import Bk7258.BkIpc.Progress

/-!
# What the thread of `bk_api_ipc.c` acknowledges

The thread acknowledges a message of the other CPU with `BK_ERR_NO_DEV` when its channel is not registered and otherwise
with `ret`, unless a callback has called `bk_ipc_obj_extract`. `ret` is one variable for everything the thread does, and
the flag by which a callback keeps a message comes with the message.
-/

namespace Bk7258
open Lts

section
variable {C : Type}

def BkIpcCmd.toAck : BkIpcCmd C → Option (IpcMsg C × UInt32)
  | .ack m result => some (m, result)
  | _ => none

/-- A message that `rx_cb` has kept is not acknowledged. One of a channel without `rx_cb` is acknowledged with
`BK_OK`. -/
def IpcEnv.ackOf (env : IpcEnv C) (h : IpcMsg C × Option IpcCb) : Option (IpcMsg C × UInt32) :=
  match h.2 with
  | some cb => if cb.extract then none else some (h.1, cb.ret)
  | none => some (h.1, if (env.channel h.1.chan).isNone then bkErrNoDev else 0)

namespace IpcThread

def msgInHand : IpcThread C → List (IpcMsg C)
  | .handle _ m => [m]
  | _ => []

def nextAck : IpcThread C → List (IpcMsg C × UInt32)
  | .get _ _ _ c | .write _ _ _ c => c.toAck.toList
  | _ => []

/-- `ret` is the result of an `rx_cb`. -/
def acking : IpcThread C → Bool
  | .get _ _ part _ | .write _ _ part _ => part = .recv
  | _ => false

def looksRecv : IpcThread C → Bool
  | .free bits | .recv bits | .handle bits _ => bits.recv
  | .send bits again | .shutdown bits again | .get bits again _ _ | .write bits again _ _ | .cmpl bits again _
  | .loop bits again => bits.recv && again
  | .wait | .collect => false

end IpcThread

theorem IpcPart.next_quiet (part : IpcPart) (bits : IpcEvents) (again : Bool) (p : IpcThread C)
    (hp : p = part.next bits again) :
    p.msgInHand = [] ∧ p.nextAck = [] ∧ p.acking = false ∧ p.looksRecv = (bits.recv && again) := by
  subst hp
  cases part <;> exact ⟨rfl, rfl, rfl, rfl⟩

end

namespace BkIpcInfo
variable {T C : Type} {env : IpcEnv C} {s s' : BkIpcInfo T C}

def acks (s : BkIpcInfo T C) : List (IpcMsg C × UInt32) := s.written.filterMap BkIpcCmd.toAck

/-- Every `tx_cb` returns `BK_OK`, and so does an `rx_cb` that keeps its message; no message of a registered channel
comes with the flag set. -/
def CbOk (env : IpcEnv C) (s : BkIpcInfo T C) : BkIpcAct T C → Prop
  | .rxCmd m => m.handAsync = true → env.channel m.chan = none
  | .thread e => match s.thread with
    | .free _ => ∀ chan ∈ s.freeList.head?, hasTxCb env chan = true → e.ret = 0
    | .handle _ _ => e.extract = true → e.ret = 0
    | _ => True
  | _ => True

instance (s : BkIpcInfo T C) : ∀ a, Decidable (s.CbOk env a)
  | .rxCmd m => inferInstanceAs (Decidable (m.handAsync = true → env.channel m.chan = none))
  | .thread e => by
    unfold CbOk
    dsimp only
    split <;> infer_instance
  | .send .. | .notify _ | .call .. | .get _ | .write _ | .rxAck _ | .rxNotify | .shutdown | .txCmpl => .isTrue trivial

structure AckInv (env : IpcEnv C) (s : BkIpcInfo T C) : Prop where
  order : s.handled.map (·.1) ++ s.thread.msgInHand ++ s.remoteList = s.arrived
  acked : s.acks ++ s.thread.nextAck = s.handled.filterMap env.ackOf
  called : ∀ h ∈ s.handled, h.2.isSome = (env.channel h.1.chan).any (·.rxCb)
  unflagged : ∀ m ∈ s.thread.msgInHand ++ s.remoteList, m.handAsync = true → env.channel m.chan = none
  ret : s.thread.acking = false → s.ret = 0
  noticed : s.remoteList ≠ [] →
    s.rxIsr = some { recv := true } ∨ s.waitingEvent.recv = true ∨ s.thread.looksRecv = true

namespace AckInv

theorem init : AckInv env ({} : BkIpcInfo T C) where
  order := rfl
  acked := rfl
  called h hh := by cases hh
  unflagged m hm := by cases hm
  ret _ := rfl
  noticed h := absurd rfl h

variable {p q : IpcThread C}

theorem goOn (h : s.AckInv env) (hp : s.thread = p) (hq : s'.thread = q) (hhand : q.msgInHand = p.msgInHand)
    (hack : s'.acks ++ q.nextAck = s.acks ++ p.nextAck) (hhandled : s'.handled = s.handled)
    (harrived : s'.arrived = s.arrived) (hlist : s'.remoteList = s.remoteList)
    (hret : q.acking = false → s'.ret = 0)
    (hnoticed : s.remoteList ≠ [] → s.rxIsr = some { recv := true } ∨ s.waitingEvent.recv ∨ p.looksRecv →
      s'.rxIsr = some { recv := true } ∨ s'.waitingEvent.recv ∨ q.looksRecv) : s'.AckInv env := by
  subst hp hq
  refine ⟨?_, ?_, ?_, ?_, hret, fun hne => ?_⟩
  · rw [hhand, hhandled, hlist, harrived]
    exact h.order
  · rw [hack, hhandled]
    exact h.acked
  · rw [hhandled]
    exact h.called
  · rw [hhand, hlist]
    exact h.unflagged
  · rw [hlist] at hne
    exact hnoticed hne (h.noticed hne)

theorem ret_at (h : s.AckInv env) (hp : s.thread = p) (hne : p.acking = false) : s.ret = 0 := h.ret (hp ▸ hne)

theorem move (h : s.AckInv env) (hp : s.thread = p) (hhand : q.msgInHand = p.msgInHand) (hack : q.nextAck = p.nextAck)
    (hret : q.acking = p.acking) (hl : s.remoteList ≠ [] → p.looksRecv → q.looksRecv) : (s.setThread q).AckInv env :=
  h.goOn hp rfl hhand (congrArg (s.acks ++ ·) hack) rfl rfl rfl (fun hq => h.ret_at hp (hret ▸ hq))
    fun hne hn => hn.imp_right (Or.imp_right (hl hne))

variable {bits : IpcEvents} {m : IpcMsg C}

theorem recvOne (h : s.AckInv env) {rest : List (IpcMsg C)} (hp : s.thread = .recv bits) (hb : bits.recv)
    (hlist : s.remoteList = m :: rest) : AckInv env { s with remoteList := rest, thread := .handle bits m } := by
  have horder := h.order
  have hunflagged := h.unflagged
  rw [hp, hlist] at horder hunflagged
  have hacked := h.acked
  rw [hp] at hacked
  refine ⟨?_, hacked, h.called, hunflagged, fun _ => h.ret_at hp rfl, fun _ => .inr (.inr hb)⟩
  rw [← horder]
  simp [IpcThread.msgInHand]

theorem handAsync_false (h : s.AckInv env) {cfg : IpcChanCfg} (hp : s.thread = .handle bits m)
    (hc : env.channel m.chan = some cfg) : m.handAsync = false := by
  cases hf : m.handAsync with
  | false => rfl
  | true =>
    have hnone := h.unflagged m (by rw [hp]; exact List.mem_cons_self ..) hf
    rw [hc] at hnone
    cases hnone

theorem handled (h : s.AckInv env) {cb : Option IpcCb} {ret : UInt32} (hp : s.thread = .handle bits m)
    (hcb : cb.isSome = (env.channel m.chan).any (·.rxCb)) (hack : p.nextAck = (env.ackOf (m, cb)).toList)
    (hret : p.acking = false → ret = 0) (hhand : p.msgInHand = []) (hl : p.looksRecv = (bits.recv && true)) :
    AckInv env { s with ret := ret, thread := p, handled := s.handled ++ [(m, cb)] } where
  order := by
    have horder := h.order
    rw [hp] at horder
    show (s.handled ++ [(m, cb)]).map (·.1) ++ p.msgInHand ++ s.remoteList = s.arrived
    rw [hhand, ← horder]
    simp [IpcThread.msgInHand]
  acked := by
    have hacked := h.acked
    rw [hp] at hacked
    show s.acks ++ p.nextAck = _
    rw [hack, List.filterMap_append, ← hacked]
    cases ha : env.ackOf (m, cb) with
    | none | some a => simp [IpcThread.nextAck, ha]
  called e he := by
    rcases List.mem_append.1 he with he | he
    · exact h.called e he
    · rw [List.mem_singleton.1 he]
      exact hcb
  unflagged d hd := by
    have hd : d ∈ p.msgInHand ++ s.remoteList := hd
    rw [hhand] at hd
    exact h.unflagged d (List.mem_append_right _ hd)
  ret := hret
  noticed hne := (h.noticed hne).imp_right <| .imp_right fun hlook => by
    rw [hp] at hlook
    exact (hl.trans (Bool.and_true _)).trans hlook

theorem rxCmd (h : s.AckInv env) (hm : m.handAsync → env.channel m.chan = none) :
    AckInv env { s with
      remoteList := s.remoteList ++ [m], arrived := s.arrived ++ [m], rxIsr := some { recv := true } } where
  order := by
    rw [← h.order]
    simp
  acked := h.acked
  called := h.called
  unflagged d hd := by
    rcases List.mem_append.1 hd with hd | hd
    · exact h.unflagged d (List.mem_append_left _ hd)
    · rcases List.mem_append.1 hd with hd | hd
      · exact h.unflagged d (List.mem_append_right _ hd)
      · rw [List.mem_singleton.1 hd]
        exact hm
  ret := h.ret
  noticed _ := .inl rfl

variable [DecidableEq C] (hword : ∀ n, env.word n = .self)
include hword

theorem thread {e : ThreadIn} (h : s.AckInv env) (hi : s.Inv) (hok : s.CbOk env (.thread e))
    (hs : s.threadStep env e = some s') : s'.AckInv env := by
  cases threadStep_cases hword hs with
  | wait hp => exact h.goOn hp rfl rfl rfl rfl rfl rfl (fun _ => rfl) fun _ => id
  | collect hp =>
    refine h.goOn hp rfl rfl rfl rfl rfl rfl (fun _ => h.ret_at hp rfl) fun _ hn => ?_
    rcases hn with hisr | hw | hlook
    · exact .inl hisr
    · exact .inr (.inr hw)
    · cases hlook
  | freeOne hp hlist =>
    refine h.goOn hp hp rfl rfl rfl rfl rfl (fun _ => ?_) fun _ => id
    simp only [CbOk, hp, hlist, List.head?_cons, Option.mem_def, Option.some.injEq, forall_eq'] at hok
    split
    next htx => exact hok htx
    next => exact h.ret_at hp rfl
  | freeNone hp => exact h.move hp rfl rfl rfl fun _ hl => hl
  | recvOne hp hb hlist => exact h.recvOne hp hb hlist
  | recvNone hp hnil => exact h.move hp rfl rfl rfl fun hne hl => absurd (hnil hl) hne
  | @noDev bits m hp hc =>
    exact h.handled hp (by rw [hc]; rfl) (by simp [IpcEnv.ackOf, hc, IpcThread.nextAck, BkIpcCmd.toAck])
      (fun _ => h.ret_at hp rfl) rfl rfl
  | @rxCb bits m cfg hp hc hcb =>
    simp only [CbOk, hp] at hok
    rw [h.handAsync_false hp hc]
    cases hx : e.extract with
    | true =>
      refine h.handled hp (by rw [hc]; exact hcb.symm) ?_ (fun _ => hok hx) rfl rfl
      simp [IpcEnv.ackOf, hx, IpcThread.nextAck]
    | false =>
      refine h.handled hp (by rw [hc]; exact hcb.symm) ?_ (fun hpa => nomatch hpa) rfl rfl
      simp [IpcEnv.ackOf, hx, IpcThread.nextAck, BkIpcCmd.toAck]
  | @noCb bits m cfg hp hc hcb =>
    have hzero : s.ret = 0 := h.ret_at hp rfl
    rw [h.handAsync_false hp hc]
    refine h.handled hp (by rw [hc]; exact hcb.symm) ?_ (fun _ => hzero) rfl rfl
    simp [IpcEnv.ackOf, hc, IpcThread.nextAck, BkIpcCmd.toAck, hzero]
  | sendOne hp =>
    refine h.goOn hp rfl rfl rfl rfl rfl rfl (fun _ => h.ret_at hp rfl) fun _ hn => ?_
    exact hn.imp_right (Or.imp_right fun hl => Bool.and_eq_true_iff.2 ⟨(Bool.and_eq_true_iff.1 hl).1, rfl⟩)
  | sendNone hp | announce hp | noShutdown hp => exact h.move hp rfl rfl rfl fun _ hl => hl
  | get hp => exact h.goOn hp rfl rfl rfl rfl rfl rfl (fun hq => h.ret_at hp hq) fun _ => id
  | @write bits again part c hp =>
    obtain ⟨hhand, hack, -, hl⟩ := part.next_quiet bits again _ rfl
    by_cases hc : c = .shutdown
    · subst hc
      rw [if_pos rfl]
      refine h.goOn hp rfl rfl (by simp [acks, IpcThread.nextAck, BkIpcCmd.toAck]) rfl rfl rfl ?_ fun _ => id
      cases part <;> exact fun _ => by first | rfl | exact h.ret_at hp rfl
    · rw [if_neg hc]
      refine h.goOn hp rfl hhand ?_ rfl rfl rfl ?_ fun _ hn => hn.imp_right (Or.imp_right fun hlook => hl.trans hlook)
      · rw [hack]
        cases hta : c.toAck <;> simp [acks, IpcThread.nextAck, hta]
      · cases part <;> exact fun _ => by first | rfl | exact h.ret_at hp rfl
  | refused hp hout =>
    rw [hi.free_of_write hp] at hout
    cases hout
  | @cmpl bits again part hp =>
    obtain ⟨hhand, hack, -, hl⟩ := part.next_quiet bits again _ rfl
    exact h.goOn hp rfl hhand (congrArg (s.acks ++ ·) hack) rfl rfl rfl (fun _ => h.ret_at hp rfl)
      fun _ hn => hn.imp_right (Or.imp_right fun hlook => hl.trans hlook)
  | @loop bits again hp =>
    cases again with
    | true => exact h.move hp rfl rfl rfl fun _ hl => (Bool.and_eq_true_iff.1 hl).1
    | false =>
      refine h.move hp rfl rfl rfl fun _ hl => ?_
      cases (Bool.and_eq_true_iff.1 hl).2

variable [DecidableEq T]

theorem step {a : BkIpcAct T C} (h : s.AckInv env) (hi : s.Inv) (hok : s.CbOk env a) (hs : s.step env a = some s') :
    s'.AckInv env := by
  cases step_cases env hs with
  | thread hs => exact h.thread hword hi hok hs
  | rxCmd _ m => exact h.rxCmd hok
  | rxAck hisr =>
    refine h.goOn rfl rfl rfl rfl rfl rfl rfl h.ret fun _ hn => ?_
    rw [hisr] at hn
    exact hn.imp_left nofun
  | @rxNotify event hisr =>
    refine h.goOn rfl rfl rfl rfl rfl rfl rfl h.ret fun _ hn => .inr ?_
    rcases hn with hn | hn
    · rw [hisr] at hn
      cases hn
      exact .inl (Bool.or_true _)
    · exact hn.imp_left fun hw => Bool.or_eq_true_iff.2 (.inl hw)
  | notify | shutdown =>
    refine h.goOn rfl rfl rfl rfl rfl rfl rfl h.ret fun _ hn => ?_
    exact hn.imp_right (Or.imp_left fun hw => Bool.or_eq_true_iff.2 (.inl hw))
  | @write t c ht =>
    have hw : s.writes (some t) := by simp [writes, ht, IpcSender.writes]
    have hout : (s.setTask t .idle).outstanding = none := (hi.sem.of_writes hw).2.1
    simp only [mbChnlWrite, hout]
    refine h.goOn rfl rfl rfl ?_ rfl rfl rfl h.ret fun _ => id
    cases c <;> simp [acks, IpcCall.cmd, BkIpcCmd.toAck, setTask]
  | send | call | get | txCmpl => exact h.goOn rfl rfl rfl rfl rfl rfl rfl h.ret fun _ => id

theorem run (hr : Run (BkIpcInfo.step env) (fun s a => s.ShutdownOk a ∧ s.CbOk env a) ({} : BkIpcInfo T C) s) :
    s.Inv ∧ s.AckInv env :=
  hr.invariant (I := fun s => s.Inv ∧ s.AckInv env) ⟨.init, .init⟩ fun _ _ _ _ hi hok hs =>
    ⟨hi.1.step hword hok.1 hs, hi.2.step hword hi.1 hok.2 hs⟩

end AckInv

def AllAcked (env : IpcEnv C) (s : BkIpcInfo T C) : Prop :=
  s.handled.map (·.1) = s.arrived ∧ s.acks = s.handled.filterMap env.ackOf

theorem AckInv.allAcked [DecidableEq C] (h : s.AckInv env) (hi : s.Inv) (hp : s.thread = .wait)
    (hsem : s.waitingSem = 0) (hisr : s.rxIsr = none) : s.AllAcked env := by
  have hnil : s.remoteList = [] := by
    by_contra hlist
    rcases h.noticed hlist with hn | hw | hlook
    · rw [hisr] at hn
      cases hn
    · have hpos := hi.event_at hp nofun fun he => by rw [he] at hw; cases hw
      omega
    · rw [hp] at hlook
      cases hlook
  have horder := h.order
  have hacked := h.acked
  rw [hp, hnil] at horder
  rw [hp] at hacked
  simp only [IpcThread.msgInHand, IpcThread.nextAck, List.append_nil] at horder hacked
  exact ⟨horder, hacked⟩

theorem cbOk_thread (s : BkIpcInfo T C) : s.CbOk env (.thread {}) := by
  unfold CbOk
  dsimp only
  split
  · exact fun _ _ _ => rfl
  · exact fun _ => rfl
  · trivial

end BkIpcInfo

open BkIpcInfo

/-- If no `tx_cb` and no `rx_cb` that keeps its message fails, and no message comes with the flag set, the messages that
are not kept are acknowledged in their order, each with its own result, as long as the thread serves at all. -/
theorem ipc_acks_in_order {T C : Type} [DecidableEq T] [DecidableEq C] {env : IpcEnv C}
    (hword : ∀ n, env.word n = .self) {s : BkIpcInfo T C}
    (hr : Run (step env) (fun s a => s.ShutdownOk a ∧ s.CbOk env a) {} s) :
    s.handled.map (·.1) ++ s.thread.msgInHand ++ s.remoteList = s.arrived ∧
    (∀ h ∈ s.handled, h.2.isSome = (env.channel h.1.chan).any (·.rxCb)) ∧
    s.acks ++ s.thread.nextAck = s.handled.filterMap env.ackOf ∧
    (s.thread = .wait → s.waitingSem = 0 → s.rxIsr = none → s.AllAcked env) ∧
    ((∀ t, s.task t = .idle) → ∃ s',
      Run (step env) (fun s a => (s.ShutdownOk a ∧ s.CbOk env a) ∧ a.drains) s s' ∧ s'.arrived = s.arrived ∧
        (s'.AllAcked env ∨ ¬s'.ShutdownOk (.thread {}))) := by
  obtain ⟨hi, ha⟩ := AckInv.run hword hr
  refine ⟨ha.order, ha.called, ha.acked, ha.allAcked hi, fun hidle => ?_⟩
  obtain ⟨s', hr', hrun, -, harrived, -, hend⟩ :=
    exists_drained hword hr hidle (fun _ _ => And.left) (fun _ => ⟨trivial, trivial⟩) (fun _ => ⟨trivial, trivial⟩) {}
  obtain ⟨hi', ha'⟩ := AckInv.run hword hrun
  refine ⟨s', hr', harrived, hend.imp ?_ fun hok hsh => hok ⟨hsh, cbOk_thread s'⟩⟩
  rintro ⟨hp, hsem, hisr⟩
  exact ha'.allAcked hi' hp hsem hisr

theorem ipc_acks_in_order_three :
    let env := wordEnv fun _ => .self
    ∃ s : BkIpcInfo Unit Nat, Run (step env) (fun s a => s.ShutdownOk a ∧ s.CbOk env a) {} s ∧
      s.arrived = [⟨0, false⟩, ⟨0, false⟩, ⟨1, false⟩, ⟨2, true⟩] ∧
      s.acks = [(⟨0, false⟩, 5), (⟨1, false⟩, 0), (⟨2, true⟩, bkErrNoDev)] ∧ s.AllAcked env := by
  intro env
  refine Run.of_exec_imp (p := fun s => s.arrived = [⟨0, false⟩, ⟨0, false⟩, ⟨1, false⟩, ⟨2, true⟩] ∧
      s.acks = [(⟨0, false⟩, 5), (⟨1, false⟩, 0), (⟨2, true⟩, bkErrNoDev)] ∧ s.thread = .wait ∧ s.waitingSem = 0 ∧
      s.rxIsr = none)
    (List.flatten [[.rxCmd ⟨0, false⟩, .rxNotify, .rxCmd ⟨0, false⟩, .rxNotify, .rxCmd ⟨1, false⟩, .rxNotify,
      .rxCmd ⟨2, true⟩, .rxNotify], List.replicate 4 (.thread {}), [.thread { ret := 5 }],
      List.replicate 2 (.thread {}), [.txCmpl], List.replicate 5 (.thread {}), [.thread { extract := true }],
      List.replicate 8 (.thread {}), [.txCmpl], List.replicate 8 (.thread {}), [.txCmpl],
      List.replicate 29 (.thread {})]) (by decide +kernel) ?_
  rintro s hr ⟨harrived, hacks, hp, hsem, hisr⟩
  obtain ⟨-, -, -, hall, -⟩ := ipc_acks_in_order (fun _ => rfl) hr
  exact ⟨harrived, hacks, hall hp hsem hisr⟩

/-- A message without callbacks is acknowledged with what a `tx_cb`, or an `rx_cb` that keeps its message, has returned
before. A message with the flag set is never acknowledged. -/
theorem ipc_ack_carries_stale_ret :
    let env := wordEnv fun _ => .self
    (∃ s : BkIpcInfo Unit Nat, Run (step env) (fun _ _ => True) {} s ∧ s.acks = [(⟨1, false⟩, 0)]) ∧
    (∃ s : BkIpcInfo Unit Nat, Run (step env) (fun _ _ => True) {} s ∧ s.arrived = [⟨1, false⟩] ∧
      s.acks = [(⟨1, false⟩, 7)]) ∧
    (∃ s : BkIpcInfo Unit Nat, Run (step env) (fun _ _ => True) {} s ∧ s.arrived = [⟨0, false⟩, ⟨1, false⟩] ∧
      s.handled = [(⟨0, false⟩, some ⟨7, true⟩), (⟨1, false⟩, none)] ∧ s.acks = [(⟨1, false⟩, 7)]) ∧
    ∃ s : BkIpcInfo Unit Nat, Run (step env) (fun _ _ => True) {} s ∧ s.handled = [(⟨0, true⟩, some ⟨7, false⟩)] ∧
      s.acks = [] ∧ s.thread = .wait ∧ s.waitingSem = 0 := by
  intro env
  refine ⟨?_, ?_, ?_, ?_⟩
  · exact Run.of_exec (List.flatten [[.rxCmd ⟨1, false⟩, .rxNotify], List.replicate 7 (.thread {})]) (by decide +kernel)
  · exact Run.of_exec (List.flatten [[.rxAck 0, .rxNotify, .rxCmd ⟨1, false⟩, .rxNotify, .thread {}, .thread {},
      .thread { ret := 7 }], List.replicate 5 (.thread {})]) (by decide +kernel)
  · exact Run.of_exec (List.flatten [[.rxCmd ⟨0, false⟩, .rxNotify, .rxCmd ⟨1, false⟩, .rxNotify],
      List.replicate 4 (.thread {}), [.thread { ret := 7, extract := true }], List.replicate 8 (.thread {})])
      (by decide +kernel)
  · exact Run.of_exec (List.flatten [[.rxCmd ⟨0, true⟩, .rxNotify], List.replicate 4 (.thread {}),
      [.thread { ret := 7 }], List.replicate 8 (.thread {})]) (by decide +kernel)

end Bk7258

import Bk7258.BkIpc.Shutdown

/-!
# The thread comes to the end of its work

A pass of the loop is followed by another one only when it has taken a message, so the thread and the completions alone
come to an end, and where they end nothing is left to send.
-/

namespace Bk7258
open Lts

def IpcPart.weight : IpcPart → Nat
  | .shutdown => 1
  | .send => 6
  | .recv | .noDev => 11

section
variable {C : Type}

def IpcThread.weight : IpcThread C → Nat
  | .wait => 0
  | .collect => 19
  | .free _ => 18
  | .recv _ => 17
  | .handle .. => 36
  | .send _ again => 11 + 20 * again.toNat
  | .shutdown _ again => 6 + 20 * again.toNat
  | .get _ again part _ => part.weight + 4 + 20 * again.toNat
  | .write _ again part _ => part.weight + 3 + 20 * again.toNat
  | .cmpl _ again part => part.weight + 1 + 20 * again.toNat
  | .loop _ again => 1 + 20 * again.toNat

theorem IpcPart.next_weight (part : IpcPart) (bits : IpcEvents) (again : Bool) :
    (part.next bits again : IpcThread C).weight = part.weight + 20 * again.toNat := by
  cases part <;> rfl

theorem IpcThread.needsSem_of_writes {p : IpcThread C} (h : p.writes) : p.needsSem = false := by
  cases p with
  | write => rfl
  | _ => cases h

theorem IpcSender.eq_write {p : IpcSender} (h : p.writes) : ∃ c, p = .write c := by
  cases p with
  | write c => exact ⟨c, rfl⟩
  | _ => cases h

def BkIpcAct.drains {T : Type} : BkIpcAct T C → Prop
  | .thread _ | .txCmpl | .rxNotify => True
  | .send .. | .notify _ | .call .. | .get _ | .write _ | .rxCmd _ | .rxAck _ | .shutdown => False

end

namespace BkIpcInfo
variable {T C : Type} {s s' : BkIpcInfo T C}

def work (s : BkIpcInfo T C) : Nat :=
  20 * (s.localList.length + s.remoteList.length + s.waitingSem + 2 * s.rxIsr.isSome.toNat) + s.freeList.length +
    s.thread.weight + s.outstanding.isSome.toNat

structure Drained (s s' : BkIpcInfo T C) : Prop where
  task : s'.task = s.task
  pushed : s'.pushed = s.pushed
  arrived : s'.arrived = s.arrived
  work : s'.work < s.work

theorem Drained.of_weight {p : IpcThread C} (hp : s.thread = p) (htask : s'.task = s.task)
    (hpushed : s'.pushed = s.pushed) (harrived : s'.arrived = s.arrived) (hlocal : s'.localList = s.localList)
    (hremote : s'.remoteList = s.remoteList) (hfree : s'.freeList = s.freeList) (hsem : s'.waitingSem = s.waitingSem)
    (hisr : s'.rxIsr = s.rxIsr)
    (hw : s'.thread.weight + s'.outstanding.isSome.toNat < p.weight + s.outstanding.isSome.toNat) : Drained s s' := by
  refine ⟨htask, hpushed, harrived, ?_⟩
  simp only [BkIpcInfo.work, hp, hlocal, hremote, hfree, hsem, hisr]
  omega

theorem Drained.of_lt {p : IpcThread C} (hp : s.thread = p) {q : IpcThread C} (hw : q.weight < p.weight)
    {ret : UInt32} {sem : Nat} {handled : List (IpcMsg C × Option IpcCb)} :
    Drained s { s with thread := q, ret := ret, sem := sem, handled := handled } :=
  .of_weight hp rfl rfl rfl rfl rfl rfl rfl rfl (Nat.add_lt_add_right hw _)

variable [DecidableEq C] {env : IpcEnv C} (hword : ∀ n, env.word n = .self) {e : ThreadIn}

section
include hword

theorem threadStep_drained (hs : s.threadStep env e = some s') : Drained s s' := by
  cases threadStep_cases hword hs with
  | wait hp hpos | collect hp =>
    refine ⟨rfl, rfl, rfl, ?_⟩
    simp only [work, hp, IpcThread.weight]
    omega
  | freeOne _ hlist =>
    refine ⟨rfl, rfl, rfl, ?_⟩
    simp only [work, hlist, List.length_cons]
    omega
  | recvOne hp _ hlist =>
    refine ⟨rfl, rfl, rfl, ?_⟩
    simp only [work, hp, hlist, List.length_cons, IpcThread.weight]
    omega
  | sendOne hp _ hlist =>
    refine ⟨rfl, rfl, rfl, ?_⟩
    simp only [work, hp, hlist, List.length_cons, IpcThread.weight, IpcPart.weight, Bool.toNat_true]
    omega
  | freeNone hp | recvNone hp => exact .of_lt hp (by simp [IpcThread.weight])
  | noDev hp => exact .of_lt hp (by simp [IpcThread.weight, IpcPart.weight])
  | rxCb hp | noCb hp => exact .of_lt hp (by split <;> simp [IpcThread.weight, IpcPart.weight])
  | sendNone hp | announce hp | noShutdown hp | get hp =>
    exact .of_lt hp (by simp only [IpcThread.weight, IpcPart.weight]; omega)
  | @write bits again part c hp =>
    refine .of_weight hp rfl rfl rfl rfl rfl rfl rfl rfl (Nat.lt_of_lt_of_le ?_ (Nat.le_add_right _ _))
    have hcmd : (some c).isSome.toNat = 1 := rfl
    split
    · simp only [IpcThread.weight, hcmd]
      omega
    · rw [IpcPart.next_weight, IpcThread.weight, hcmd]
      omega
  | refused hp | cmpl hp =>
    refine .of_lt hp ?_
    rw [IpcPart.next_weight, IpcThread.weight]
    omega
  | @loop _ again hp => cases again <;> exact .of_lt hp (by simp [IpcThread.weight])

theorem step_drained [DecidableEq T] {a : BkIpcAct T C} (ha : a.drains) (hs : s.step env a = some s') :
    Drained s s' := by
  cases step_cases env hs with
  | thread hs => exact threadStep_drained hword hs
  | txCmpl hout => exact .of_weight rfl rfl rfl rfl rfl rfl rfl rfl rfl (by simp [hout])
  | rxNotify hisr =>
    refine ⟨rfl, rfl, rfl, ?_⟩
    simp only [work, eventNotify, hisr, Option.isSome_some, Option.isSome_none, Bool.toNat_true, Bool.toNat_false]
    omega
  | _ => exact ha.elim

theorem blocked (hs : s.threadStep env e = none) :
    s.thread = .wait ∧ s.waitingSem = 0 ∨ s.thread.needsSem ∧ s.sem = 0 := by
  cases hp : s.thread with
  | wait =>
    simp only [threadStep, hp, hword] at hs
    split at hs
    · cases hs
    · exact .inl ⟨rfl, by omega⟩
  | get | cmpl =>
    simp only [threadStep, hp, getSem, Option.map_eq_none_iff] at hs
    split at hs
    · cases hs
    · exact .inr ⟨rfl, by omega⟩
  | free | recv | send =>
    simp only [threadStep, hp] at hs
    split at hs
    · split at hs <;> cases hs
    · cases hs
  | shutdown =>
    simp only [threadStep, hp] at hs
    split at hs <;> cases hs
  | collect | handle | write | loop => simp [threadStep, hp] at hs

end

namespace Inv

theorem localList_nil (h : s.Inv) (hp : s.thread = .wait) (hsem : s.waitingSem = 0) (ht : ∀ t, s.task t ≠ .notify) :
    s.localList = [] := by
  by_contra hl
  rcases h.look_at hp hl with ⟨t, hn⟩ | hb | hk
  · exact ht t hn
  · have hpos := h.event_at hp nofun fun he => by rw [he] at hb; cases hb
    omega
  · cases hk

theorem sem_comes (h : s.Inv) (hneed : s.thread.needsSem) :
    0 < s.sem ∨ s.outstanding.isSome ∨ ∃ t c, s.task t = .write c := by
  cases h.sem with
  | free h1 => exact .inl (by omega)
  | out k _ h2 => exact .inr (.inl (by rw [h2]; rfl))
  | closed _ _ _ _ h4 => rw [h4] at hneed; cases hneed
  | held c _ _ hc =>
    cases c with
    | none => rw [IpcThread.needsSem_of_writes hc] at hneed; cases hneed
    | some t => exact .inr (.inr ⟨t, IpcSender.eq_write hc⟩)

include hword

/-- A thread that can go no further, with nothing outstanding and no call in progress, waits for an event. -/
theorem waits (h : s.Inv) (hidle : ∀ t, s.task t = .idle) (hthread : s.threadStep env e = none)
    (hout : s.outstanding.isSome = false) : s.thread = .wait ∧ s.waitingSem = 0 := by
  rcases blocked hword hthread with hwait | ⟨hneed, hsem⟩
  · exact hwait
  · rcases h.sem_comes hneed with hpos | hsome | ⟨t, c, ht⟩
    · omega
    · rw [hout] at hsome; cases hsome
    · rw [hidle t] at ht; cases ht

end Inv

section
variable [DecidableEq T] {ok : BkIpcInfo T C → BkIpcAct T C → Prop}

/-- The thread, the completions and the end of an interrupt alone come to a state where the thread waits for an event,
or where its next step does not meet the condition. -/
theorem exists_drained (hword : ∀ n, env.word n = .self) (h : Run (step env) ok {} s) (hidle : ∀ t, s.task t = .idle)
    (hok : ∀ s a, ok s a → s.ShutdownOk a) (hcmpl : ∀ s : BkIpcInfo T C, ok s .txCmpl)
    (hisr : ∀ s : BkIpcInfo T C, ok s .rxNotify) (e : ThreadIn) :
    ∃ s', Run (step env) (fun s a => ok s a ∧ a.drains) s s' ∧ Run (step env) ok {} s' ∧ s'.pushed = s.pushed ∧
      s'.arrived = s.arrived ∧ (∀ t, s'.task t = .idle) ∧
      (s'.thread = .wait ∧ s'.waitingSem = 0 ∧ s'.rxIsr = none ∨ ¬ok s' (.thread e)) := by
  obtain ⟨s', hr, hstuck⟩ := Run.exists_stuck (step env) (fun s a => ok s a ∧ a.drains) work
    (fun _ _ _ hok hs => (step_drained hword hok.2 hs).work) s
  obtain ⟨htask, hpushed, harrived⟩ : s'.task = s.task ∧ s'.pushed = s.pushed ∧ s'.arrived = s.arrived := by
    refine hr.invariant (I := fun u => u.task = s.task ∧ u.pushed = s.pushed ∧ u.arrived = s.arrived) ⟨rfl, rfl, rfl⟩
      fun _ _ _ _ hi hok hs => ?_
    have hd := step_drained hword hok.2 hs
    exact ⟨hd.task.trans hi.1, hd.pushed.trans hi.2.1, hd.arrived.trans hi.2.2⟩
  have hrun := h.trans (hr.mono fun _ _ hok => hok.1)
  have hidle' : ∀ t, s'.task t = .idle := fun t => by rw [htask]; exact hidle t
  refine ⟨s', hr, hrun, hpushed, harrived, hidle', ?_⟩
  by_cases hthread : ok s' (.thread e)
  · have hout : s'.outstanding.isSome = false := by
      have hcmpl := hstuck .txCmpl ⟨hcmpl s', trivial⟩
      simp only [step] at hcmpl
      split at hcmpl
      · cases hcmpl
      · exact Bool.eq_false_iff.2 ‹_›
    obtain ⟨hp, hsem⟩ := (Inv.run hword (hrun.mono hok)).waits hword hidle' (hstuck _ ⟨hthread, trivial⟩) hout
    exact .inl ⟨hp, hsem, Option.map_eq_none_iff.1 (hstuck .rxNotify ⟨hisr s', trivial⟩)⟩
  · exact .inr hthread

end

omit [DecidableEq C] in
theorem getSem_none (h : s.sem = 0) : s.getSem = none := by simp [getSem, h]

def Dead (s : BkIpcInfo T C) : Prop :=
  s.thread.needsSem = true ∧ s.sem = 0 ∧ s.outstanding = none ∧ ∀ t, (s.task t).writes = false

namespace Dead

theorem threadStep (h : s.Dead) : s.threadStep env e = none := by
  obtain ⟨hneed, hsem, -, -⟩ := h
  cases hp : s.thread with
  | get | cmpl => simp only [BkIpcInfo.threadStep, hp, getSem_none hsem, Option.map_none]
  | _ => rw [hp] at hneed; cases hneed

variable [DecidableEq T] {t : T} {q : IpcSender}

omit [DecidableEq C] in
theorem setTask (h : s.Dead) (hq : q.writes = false) : (s.setTask t q).Dead := by
  refine ⟨h.1, h.2.1, h.2.2.1, fun u => ?_⟩
  by_cases hu : u = t
  · subst hu; simpa [BkIpcInfo.setTask] using hq
  · simpa [BkIpcInfo.setTask, hu] using h.2.2.2 u

theorem step {a : BkIpcAct T C} (h : s.Dead) (hs : s.step env a = some s') : s'.Dead := by
  cases step_cases env hs with
  | @send t _ => exact h.setTask (t := t) (q := .notify) rfl
  | @notify t => exact h.setTask (t := t) (q := .idle) rfl
  | call => exact h.setTask rfl
  | get _ hpos =>
    have hsem := h.2.1
    omega
  | @write t c ht =>
    have hw := h.2.2.2 t
    rw [ht] at hw
    cases hw
  | thread hs => rw [h.threadStep] at hs; cases hs
  | rxCmd | rxAck | rxNotify | shutdown => exact h
  | txCmpl hout => rw [h.2.2.1] at hout; cases hout

theorem run {ok : BkIpcInfo T C → BkIpcAct T C → Prop} (h : s.Dead) (hr : Run (BkIpcInfo.step env) ok s s') :
    s'.threadStep env e = none :=
  (hr.invariant (I := Dead) h fun _ _ _ _ hd _ hs => hd.step hs).threadStep

end Dead
end BkIpcInfo

open BkIpcInfo

/-- The channels with callbacks, and what the wait of the thread acts on -/
def wordEnv (word : Nat → SemWord) : IpcEnv Nat where
  channel
    | 0 => some ⟨true, true⟩
    | 1 => some ⟨false, false⟩
    | _ => none
  word := word

/-- As long as the wait of the thread acts on `waiting_sem` and the thread takes no message once a shutdown is collected
or announced: messages are written once and in order, it never waits for `sem` in vain, and the shutdown is announced
once. -/
theorem ipc_thread_serves {T C : Type} [DecidableEq T] [DecidableEq C] {env : IpcEnv C}
    (hword : ∀ n, env.word n = .self) {s : BkIpcInfo T C} (h : Run (step env) ShutdownOk {} s) :
    s.sentNums ++ s.thread.inHand ++ s.localList = s.pushed ∧
    (s.thread = .wait → s.waitingSem = 0 → s.outstanding = none → (∀ t, s.task t ≠ .notify) → s.localList = []) ∧
    (s.thread.needsSem = true → 0 < s.sem ∨ s.outstanding.isSome = true ∨ ∃ t c, s.task t = .write c) ∧
    s.written.count .shutdown ≤ 1 ∧
    ((∀ t, s.task t = .idle) → ∃ s', Run (step env) (fun s a => s.ShutdownOk a ∧ a.drains) s s' ∧
      (s'.sentNums = s.pushed ∨ ¬s'.ShutdownOk (.thread {}))) := by
  have hi := Inv.run hword h
  refine ⟨hi.order, fun hp hsem _ => hi.localList_nil hp hsem, hi.sem_comes, hi.once, fun hidle => ?_⟩
  obtain ⟨s', hr, hrun, hpushed, -, hidle', hend⟩ :=
    exists_drained hword h hidle (fun _ _ => id) (fun _ => trivial) (fun _ => trivial) {}
  refine ⟨s', hr, hend.imp_left fun ⟨hp, hsem, _⟩ => ?_⟩
  have hi' := Inv.run hword hrun
  have hnil := hi'.localList_nil hp hsem fun t => by rw [hidle' t]; nofun
  have horder := hi'.order_at hp
  rw [hnil] at horder
  simpa [IpcThread.inHand, hpushed] using horder

theorem ipc_thread_serves_shutdown : ∃ s : BkIpcInfo Unit Nat, Run (step (wordEnv fun _ => .self)) ShutdownOk {} s ∧
    s.pushed = [7] ∧ s.written = [.cmd 7, .shutdown] ∧ s.localList = [] ∧ s.written.count .shutdown ≤ 1 := by
  refine Run.of_exec_imp (p := fun s => s.pushed = [7] ∧ s.written = [.cmd 7, .shutdown] ∧ s.thread = .wait ∧
      s.waitingSem = 0 ∧ s.outstanding = none ∧ ∀ t, s.task t ≠ .notify)
    (List.flatten [[.send () 7, .notify ()], List.replicate 14 (.thread {}), [.txCmpl, .shutdown],
      List.replicate 8 (.thread {}), [.txCmpl], List.replicate 2 (.thread {})]) (by decide) ?_
  rintro s hr ⟨hpushed, hwritten, hp, hsem, hout, ht⟩
  obtain ⟨-, hnil, -, honce, -⟩ := ipc_thread_serves (fun _ => rfl) hr
  exact ⟨hpushed, hwritten, hnil hp hsem hout ht, honce⟩

/-- The first word of `waiting_sem` is not its address: the message is pushed and its event posted, and the thread waits
for another object. Or the shutdown is collected together with a message: it is announced twice, and `sem` does not come
back. -/
theorem ipc_thread_blocked :
    (∃ s : BkIpcInfo Unit Nat, Run (step (wordEnv fun n => if n = 0 then .null else .other)) ShutdownOk {} s ∧
      s.thread = .wait ∧ s.outstanding = none ∧ (∀ t, s.task t = .idle) ∧ s.waitingSem = 1 ∧ s.localList = [7] ∧
      ∀ e : ThreadIn, e.stray = none → s.threadStep (wordEnv fun n => if n = 0 then .null else .other) e = none) ∧
    ∃ s : BkIpcInfo Unit Nat, Run (step (wordEnv fun _ => .self)) (fun _ _ => True) {} s ∧
      s.written = [.cmd 7, .shutdown] ∧ s.thread.needsSem = true ∧
      ∀ s', Run (step (wordEnv fun _ => .self)) (fun _ _ => True) s s' →
        ∀ e, s'.threadStep (wordEnv fun _ => .self) e = none := by
  constructor
  · refine Run.of_exec_imp (p := fun s => s.thread = .wait ∧ s.outstanding = none ∧ (∀ t, s.task t = .idle) ∧
        s.waitingSem = 1 ∧ s.localList = [7]) [.send () 7, .thread {}, .notify ()] (by decide) ?_
    rintro s - ⟨hp, hout, ht, hsem, hlist⟩
    refine ⟨hp, hout, ht, hsem, hlist, fun e he => ?_⟩
    simp [threadStep, hp, hsem, wordEnv, he]
  · refine Run.of_exec_imp (p := fun s => s.written = [.cmd 7, .shutdown] ∧ s.thread.needsSem ∧ s.sem = 0 ∧
        s.outstanding = none ∧ ∀ t, (s.task t).writes = false)
      (List.flatten [[.send () 7, .notify (), .shutdown], List.replicate 7 (.thread {}), [.txCmpl],
        List.replicate 3 (.thread {}), [.txCmpl], List.replicate 6 (.thread {})]) (by decide) ?_
    rintro s - ⟨hwritten, hdead⟩
    exact ⟨hwritten, hdead.1, fun s' hr' e => Dead.run hdead hr'⟩

end Bk7258

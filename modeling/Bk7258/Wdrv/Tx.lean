import Bk7258.Lib.Lts

/-!
# Transmission in the Wi-Fi driver

The driver task (`wdrv_main`) puts a packet in the `tx_list` of its IPC channel and, if nothing is being sent there,
hands the whole list to `mb_chnl_write`; `sending_flag` stays set until the completion interrupt clears it, which posts
a retry message when it finds packets in the list. The steps of task and interrupt interleave. `num` has eight bits: 256
packets in the list end in `BK_ASSERT`.
-/

namespace Bk7258
open Lts Function

inductive WdrvChnl
  | cmd
  | data
deriving DecidableEq, Repr

inductive WdrvMsgType
  | cmd
  | event
  | txdata
  | rxdata
deriving DecidableEq, Repr

structure WdrvMsg where
  type : WdrvMsgType
  arg : Nat
  retryFlag : Bool
deriving DecidableEq, Repr

/-- The channel `wdrv_main` calls `wdrv_txdata_pre_process` for. -/
def WdrvMsgType.chnl : WdrvMsgType → Option WdrvChnl
  | .cmd => some .cmd
  | .txdata => some .data
  | _ => none

def WdrvChnl.retryMsg : WdrvChnl → WdrvMsg
  | .cmd => ⟨.cmd, 0, true⟩
  | .data => ⟨.txdata, 0, true⟩

inductive WdrvIsr
  | idle
  | test
  | post
deriving DecidableEq, Repr

/-- An entry of `wdrv_ipc_env`. `outstanding` says that `mb_chnl_write` has taken packets and the completion has not
come. -/
structure WdrvIpc where
  sendingFlag : Bool := false
  txList : List Nat := []
  outstanding : Bool := false
  isr : WdrvIsr := .idle
deriving DecidableEq, Repr

/-- Where `wdrv_main` is; the states with a channel are those of `wdrv_txdata_pre_process`. -/
inductive WdrvTask
  | idle
  | push (c : WdrvChnl) (head : Nat)
  | flag (c : WdrvChnl)
  | set (c : WdrvChnl)
  | read (c : WdrvChnl)
  | write (c : WdrvChnl)
  | init (c : WdrvChnl)
  | errExit (c : WdrvChnl)
  | assert (c : WdrvChnl)
deriving DecidableEq, Repr

structure WdrvSys where
  ioQueue : List WdrvMsg := []
  ipc : WdrvChnl → WdrvIpc := fun _ => {}
  task : WdrvTask := .idle

inductive WdrvAct
  | post (type : WdrvMsgType) (arg : Nat)
  /-- The driver task goes on; `written` is the result of `mb_chnl_write` if it calls it. -/
  | task (written : Bool)
  | complete (c : WdrvChnl)
  | isr (c : WdrvChnl)
deriving DecidableEq, Repr

def wdrvQueueLen : Nat := 192

namespace WdrvSys

variable (s : WdrvSys)

def setIpc (c : WdrvChnl) (e : WdrvIpc) : WdrvSys := { s with ipc := update s.ipc c e }

def pushToQueue (m : WdrvMsg) : WdrvSys :=
  if s.ioQueue.length < wdrvQueueLen then { s with ioQueue := s.ioQueue ++ [m] } else s

def dispatch (m : WdrvMsg) : WdrvTask :=
  match m.type.chnl with
  | some c => if m.retryFlag then .flag c else .push c m.arg
  | none => .idle

def taskStep (written : Bool) : Option WdrvSys :=
  match s.task with
  | .idle =>
    match s.ioQueue with
    | [] => none
    | m :: ms => some { s with ioQueue := ms, task := dispatch m }
  | .push c head =>
    some { s.setIpc c { s.ipc c with txList := (s.ipc c).txList ++ [head] } with task := .flag c }
  | .flag c => some { s with task := if (s.ipc c).sendingFlag then .idle else .set c }
  | .set c => some { s.setIpc c { s.ipc c with sendingFlag := true } with task := .read c }
  | .read c =>
    if (s.ipc c).txList = [] then some { s with task := .errExit c }
    else if (s.ipc c).txList.length % 256 = 0 then some { s with task := .assert c }
    else some { s with task := .write c }
  | .write c =>
    if written then some { s.setIpc c { s.ipc c with outstanding := true } with task := .init c }
    else some { s with task := .errExit c }
  | .init c => some { s.setIpc c { s.ipc c with txList := [] } with task := .idle }
  | .errExit c => some { s.setIpc c { s.ipc c with sendingFlag := false } with task := .idle }
  | .assert _ => none

def isrStep (c : WdrvChnl) : Option WdrvSys :=
  match (s.ipc c).isr with
  | .idle => none
  | .test => some (s.setIpc c { s.ipc c with isr := if (s.ipc c).txList = [] then .idle else .post })
  | .post => some ((s.setIpc c { s.ipc c with isr := .idle }).pushToQueue c.retryMsg)

def step : WdrvAct → Option WdrvSys
  | .post type arg => some (s.pushToQueue ⟨type, arg, false⟩)
  | .task written => s.taskStep written
  | .complete c =>
    if (s.ipc c).outstanding ∧ (s.ipc c).isr = .idle then
      some (s.setIpc c { s.ipc c with outstanding := false, sendingFlag := false, isr := .test })
    else none
  | .isr c => s.isrStep c

def Queued (c : WdrvChnl) : Prop := ∃ m ∈ s.ioQueue, m.type.chnl = some c

instance (c : WdrvChnl) : Decidable (s.Queued c) := inferInstanceAs (Decidable (∃ m ∈ s.ioQueue, _))

end WdrvSys

namespace WdrvTask

def chnl : WdrvTask → Option WdrvChnl
  | .idle => none
  | .push c _ => some c
  | .flag c => some c
  | .set c => some c
  | .read c => some c
  | .write c => some c
  | .init c => some c
  | .errExit c => some c
  | .assert c => some c

def holds : WdrvTask → Bool
  | .read _ => true
  | .write _ => true
  | .errExit _ => true
  | .assert _ => true
  | _ => false

end WdrvTask

namespace WdrvSys

/-- The condition on a step: after a failed write or a lost retry message another message for the channel is waiting. -/
def TxOk (s : WdrvSys) : WdrvAct → Prop
  | .task false =>
    match s.task with
    | .write c => s.Queued c
    | _ => True
  | .isr c => (s.ipc c).isr = .post → wdrvQueueLen ≤ s.ioQueue.length → s.Queued c
  | _ => True

instance (s : WdrvSys) : (l : WdrvAct) → Decidable (s.TxOk l)
  | .task false =>
    match h : s.task with
    | .write c => decidable_of_iff (s.Queued c) (by simp [TxOk, h])
    | .idle => isTrue (by simp [TxOk, h])
    | .push _ _ => isTrue (by simp [TxOk, h])
    | .flag _ => isTrue (by simp [TxOk, h])
    | .set _ => isTrue (by simp [TxOk, h])
    | .read _ => isTrue (by simp [TxOk, h])
    | .init _ => isTrue (by simp [TxOk, h])
    | .errExit _ => isTrue (by simp [TxOk, h])
    | .assert _ => isTrue (by simp [TxOk, h])
  | .task true => isTrue trivial
  | .post _ _ => isTrue trivial
  | .complete _ => isTrue trivial
  | .isr c => inferInstanceAs (Decidable ((s.ipc c).isr = .post → _ → s.Queued c))

def Moving (s : WdrvSys) (c : WdrvChnl) : Prop :=
  (s.ipc c).txList = [] ∨ (s.ipc c).sendingFlag = true ∨ (s.ipc c).isr ≠ .idle ∨ s.Queued c

/-- The flag and the list of one channel. Outside the hands of the task the flag says that packets are outstanding. -/
structure Inv (c : WdrvChnl) (s : WdrvSys) : Prop where
  rest : ¬ (s.task.chnl = some c ∧ s.task.holds) → (s.ipc c).sendingFlag = (s.ipc c).outstanding
  owned : s.task.chnl = some c → s.task.holds → (s.ipc c).sendingFlag = true ∧ (s.ipc c).outstanding = false
  set : s.task = .set c → (s.ipc c).sendingFlag = false
  moving : s.task.chnl ≠ some c → s.Moving c
  errExit : s.task = .errExit c → (s.ipc c).txList = [] ∨ s.Queued c

section
variable {c d : WdrvChnl} {s s' : WdrvSys}

theorem Moving.congr (h : s.Moving c) (hi : s'.ipc c = s.ipc c) (hq : s.Queued c → s'.Queued c) : s'.Moving c := by
  unfold Moving at h ⊢
  rw [hi]
  rcases h with h | h | h | h
  · exact .inl h
  · exact .inr (.inl h)
  · exact .inr (.inr (.inl h))
  · exact .inr (.inr (.inr (hq h)))

theorem Inv.congr (h : s.Inv c) (hi : s'.ipc c = s.ipc c) (ht : s'.task = s.task) (hq : s.Queued c → s'.Queued c) :
    s'.Inv c where
  rest := by rw [hi, ht]; exact h.rest
  owned := by rw [hi, ht]; exact h.owned
  set := by rw [hi, ht]; exact h.set
  moving := by rw [ht]; exact fun hc => (h.moving hc).congr hi hq
  errExit := by rw [hi, ht]; exact fun he => (h.errExit he).imp_right hq

theorem Inv.away (h : s.Inv c) (hi : s'.ipc c = s.ipc c) (ht : s.task.chnl ≠ some c) (ht' : s'.task.chnl ≠ some c)
    (hq : s.Queued c → s'.Queued c) : s'.Inv c where
  rest _ := by rw [hi]; exact h.rest fun h' => ht h'.1
  owned hc := absurd hc ht'
  set he := absurd (by rw [he]; rfl) ht'
  moving _ := (h.moving ht).congr hi hq
  errExit he := absurd (by rw [he]; rfl) ht'

theorem Inv.of_holds (hc : s.task.chnl = some c) (hh : s.task.holds)
    (ho : (s.ipc c).sendingFlag ∧ (s.ipc c).outstanding = false)
    (he : s.task = .errExit c → (s.ipc c).txList = [] ∨ s.Queued c) : s.Inv c where
  rest hn := absurd ⟨hc, hh⟩ hn
  owned _ _ := ho
  set ht := by rw [ht] at hh; cases hh
  moving hn := absurd hc hn
  errExit := he

theorem Inv.of_free (hh : s.task.holds = false) (hr : (s.ipc c).sendingFlag = (s.ipc c).outstanding)
    (hset : s.task = .set c → (s.ipc c).sendingFlag = false) (hm : s.task.chnl ≠ some c → s.Moving c) : s.Inv c where
  rest _ := hr
  owned _ h := by rw [hh] at h; cases h
  set := hset
  moving := hm
  errExit ht := by rw [ht] at hh; cases hh

theorem Queued.push (h : s.Queued c) (m : WdrvMsg) : (s.pushToQueue m).Queued c := by
  unfold pushToQueue
  split
  · obtain ⟨x, hx, hc⟩ := h
    exact ⟨x, List.mem_append_left _ hx, hc⟩
  · exact h

theorem Queued.tail {m : WdrvMsg} {ms : List WdrvMsg} (h : s.Queued c) (hq : s.ioQueue = m :: ms)
    (hm : m.type.chnl ≠ some c) (t : WdrvTask) : ({ s with ioQueue := ms, task := t } : WdrvSys).Queued c := by
  obtain ⟨x, hx, hc⟩ := h
  rw [hq, List.mem_cons] at hx
  rcases hx with rfl | hx
  · exact absurd hc hm
  · exact ⟨x, hx, hc⟩

theorem pushToQueue_ipc (m : WdrvMsg) : (s.pushToQueue m).ipc = s.ipc := by unfold pushToQueue; split <;> rfl

theorem pushToQueue_task (m : WdrvMsg) : (s.pushToQueue m).task = s.task := by unfold pushToQueue; split <;> rfl

theorem setIpc_self (e : WdrvIpc) : (s.setIpc c e).ipc c = e := update_self ..

theorem setIpc_task_self (e : WdrvIpc) (t : WdrvTask) : ({ s.setIpc c e with task := t } : WdrvSys).ipc c = e :=
  setIpc_self e

theorem setIpc_other (hd : c ≠ d) (e : WdrvIpc) : (s.setIpc d e).ipc c = s.ipc c := update_of_ne hd ..

theorem dispatch_chnl (m : WdrvMsg) : (dispatch m).chnl = m.type.chnl := by
  unfold dispatch
  split
  · rename_i c hc
    rw [hc]
    split <;> rfl
  · rename_i hc
    rw [hc]
    rfl

theorem dispatch_cases (m : WdrvMsg) : (dispatch m).holds = false ∧ dispatch m ≠ .set c := by
  unfold dispatch
  split
  · split <;> exact ⟨rfl, nofun⟩
  · exact ⟨rfl, nofun⟩

theorem Inv.pop (h : s.Inv c) {m : WdrvMsg} {ms : List WdrvMsg} (ht : s.task = .idle) (hq : s.ioQueue = m :: ms) :
    ({ s with ioQueue := ms, task := dispatch m } : WdrvSys).Inv c := by
  have hid : s.task.chnl ≠ some c := by rw [ht]; nofun
  by_cases hm : m.type.chnl = some c
  · obtain ⟨hh, hset⟩ := dispatch_cases (c := c) m
    exact .of_free hh (h.rest fun h' => hid h'.1) (fun he => absurd he hset) fun hc =>
      absurd ((dispatch_chnl m).trans hm) hc
  · refine h.away rfl hid ?_ fun hx => hx.tail hq hm _
    show (dispatch m).chnl ≠ some c
    rw [dispatch_chnl]
    exact hm

theorem taskStep_other {w : Bool} (hd : s.task.chnl = some d) (hc : c ≠ d) (hs : s.taskStep w = some s') :
    s'.ipc c = s.ipc c ∧ s'.task.chnl ≠ some c ∧ s'.ioQueue = s.ioQueue := by
  have hne : some d ≠ some c := fun h => hc (Option.some.inj h).symm
  unfold WdrvSys.taskStep at hs
  split at hs
  all_goals
    rename_i ht
    rw [ht] at hd
    cases hd
  · cases hs
    exact ⟨setIpc_other hc _, hne, rfl⟩
  · cases hs
    refine ⟨rfl, ?_, rfl⟩
    split
    · nofun
    · exact hne
  · cases hs
    exact ⟨setIpc_other hc _, hne, rfl⟩
  · split at hs
    · cases hs
      exact ⟨rfl, hne, rfl⟩
    · split at hs
      · cases hs
        exact ⟨rfl, hne, rfl⟩
      · cases hs
        exact ⟨rfl, hne, rfl⟩
  · split at hs
    · cases hs
      exact ⟨setIpc_other hc _, hne, rfl⟩
    · cases hs
      exact ⟨rfl, hne, rfl⟩
  · cases hs
    exact ⟨setIpc_other hc _, nofun, rfl⟩
  · cases hs
    exact ⟨setIpc_other hc _, nofun, rfl⟩
  · cases hs

theorem Inv.ownStep (h : s.Inv c) {w : Bool} (hok : s.TxOk (.task w)) (hc : s.task.chnl = some c)
    (hs : s.taskStep w = some s') : s'.Inv c := by
  have hown := h.owned hc
  have hrest : s.task.holds = false → (s.ipc c).sendingFlag = (s.ipc c).outstanding := by
    intro hh
    apply h.rest
    rintro ⟨-, h'⟩
    rw [hh] at h'
    cases h'
  unfold WdrvSys.taskStep at hs
  split at hs
  all_goals
    rename_i ht
    rw [ht] at hc hown hrest
    cases hc
  · -- push
    cases hs
    refine .of_free rfl ?_ nofun fun hn => absurd rfl hn
    rw [setIpc_task_self]
    exact hrest rfl
  · -- flag
    cases hs
    by_cases hf : (s.ipc c).sendingFlag
    · rw [if_pos hf]
      exact .of_free rfl (hrest rfl) nofun fun _ => .inr (.inl hf)
    · rw [if_neg hf]
      exact .of_free rfl (hrest rfl) (fun _ => Bool.eq_false_iff.2 hf) fun hn => absurd rfl hn
  · -- set
    cases hs
    have ho : (s.ipc c).outstanding = false := (hrest rfl).symm.trans (h.set ht)
    refine .of_holds rfl rfl ?_ nofun
    rw [setIpc_task_self]
    exact ⟨rfl, ho⟩
  · -- read: an empty list, 256 packets, or something to write
    split at hs
    · cases hs
      exact .of_holds rfl rfl (hown rfl) fun _ => .inl ‹_›
    · split at hs
      · cases hs
        exact .of_holds rfl rfl (hown rfl) nofun
      · cases hs
        exact .of_holds rfl rfl (hown rfl) nofun
  · -- write
    cases w with
    | true =>
      cases hs
      refine .of_free rfl ?_ nofun fun hn => absurd rfl hn
      rw [setIpc_task_self]
      exact (hown rfl).1
    | false =>
      cases hs
      have hq : s.Queued c := by simpa only [TxOk, ht] using hok
      exact .of_holds rfl rfl (hown rfl) fun _ => .inr hq
  · -- init
    cases hs
    refine .of_free rfl ?_ nofun fun _ => .inl ?_
    · rw [setIpc_task_self]
      exact hrest rfl
    · rw [setIpc_task_self]
  · -- errExit
    cases hs
    refine .of_free rfl ?_ nofun fun _ => ?_
    · rw [setIpc_task_self]
      exact (hown rfl).2.symm
    · unfold Moving
      rw [setIpc_task_self]
      rcases h.errExit ht with hl | hq
      · exact .inl hl
      · exact .inr (.inr (.inr hq))
  · cases hs

theorem Inv.taskStep (h : s.Inv c) {w : Bool} (hok : s.TxOk (.task w)) (hs : s.taskStep w = some s') : s'.Inv c := by
  cases hc : s.task.chnl with
  | none =>
    have ht : s.task = .idle := by
      cases ht : s.task with
      | idle => rfl
      | _ => rw [ht] at hc; cases hc
    unfold WdrvSys.taskStep at hs
    rw [ht] at hs
    dsimp only at hs
    split at hs
    · cases hs
    · cases hs
      exact h.pop ht ‹_›
  | some d =>
    by_cases hd : c = d
    · subst hd
      exact h.ownStep hok hc hs
    · obtain ⟨hi, ht', hq⟩ := taskStep_other hc hd hs
      refine h.away hi ?_ ht' ?_
      · rw [hc]
        exact fun he => hd (Option.some.inj he).symm
      · rintro ⟨m, hm, hmc⟩
        exact ⟨m, hq ▸ hm, hmc⟩

theorem Inv.complete (h : s.Inv c) (ho : (s.ipc c).outstanding) :
    (s.setIpc c { s.ipc c with outstanding := false, sendingFlag := false, isr := .test }).Inv c := by
  have hno : s.task.chnl = some c → s.task.holds → False := by
    intro hc hh
    have := (h.owned hc hh).2
    rw [ho] at this
    cases this
  refine ⟨?_, fun hc hh => (hno hc hh).elim, ?_, ?_, fun he => (hno ?_ ?_).elim⟩
  · rw [setIpc_self]
    exact fun _ => rfl
  · rw [setIpc_self]
    exact fun _ => rfl
  · unfold Moving
    rw [setIpc_self]
    exact fun _ => .inr (.inr (.inl nofun))
  · show s.task.chnl = some c
    rw [show s.task = _ from he]
    rfl
  · show s.task.holds
    rw [show s.task = _ from he]
    rfl

theorem Inv.setIsr (h : s.Inv c) (i : WdrvIsr)
    (hm : s.task.chnl ≠ some c → (s.setIpc c { s.ipc c with isr := i }).Moving c) :
    (s.setIpc c { s.ipc c with isr := i }).Inv c := by
  refine ⟨?_, ?_, ?_, hm, ?_⟩
  all_goals rw [setIpc_self]
  · exact h.rest
  · exact h.owned
  · exact h.set
  · exact h.errExit

theorem Inv.of_queued (h : s.Inv c) (hf : (s'.ipc c).sendingFlag = (s.ipc c).sendingFlag)
    (ho : (s'.ipc c).outstanding = (s.ipc c).outstanding) (ht : s'.task = s.task) (hq : s'.Queued c) : s'.Inv c where
  rest := by rw [hf, ho, ht]; exact h.rest
  owned := by rw [hf, ho, ht]; exact h.owned
  set := by rw [hf, ht]; exact h.set
  moving _ := .inr (.inr (.inr hq))
  errExit _ := .inr hq

theorem queued_retryMsg (hfull : wdrvQueueLen ≤ s.ioQueue.length → s.Queued c) :
    (s.pushToQueue c.retryMsg).Queued c := by
  unfold pushToQueue
  split
  · exact ⟨c.retryMsg, by simp, by cases c <;> rfl⟩
  · exact hfull (by omega)

theorem Inv.step (h : s.Inv c) {l : WdrvAct} (hok : s.TxOk l) (hs : s.step l = some s') : s'.Inv c := by
  cases l with
  | post type arg =>
    cases hs
    exact h.congr (congrFun (pushToQueue_ipc _) c) (pushToQueue_task _) fun hq => hq.push _
  | task w => exact h.taskStep hok hs
  | complete d =>
    unfold WdrvSys.step at hs
    dsimp only at hs
    split at hs
    · rename_i ho
      cases hs
      by_cases hd : c = d
      · subst hd
        exact h.complete ho.1
      · exact h.congr (setIpc_other hd _) rfl id
    · cases hs
  | isr d =>
    have hs : s.isrStep d = some s' := hs
    unfold isrStep at hs
    split at hs
    · cases hs
    · cases hs
      by_cases hd : c = d
      · subst hd
        refine h.setIsr _ fun _ => ?_
        unfold Moving
        rw [setIpc_self]
        by_cases hl : (s.ipc c).txList = []
        · exact .inl hl
        · exact .inr (.inr (.inl (by rw [if_neg hl]; nofun)))
      · exact h.congr (setIpc_other hd _) rfl id
    · rename_i hp
      cases hs
      by_cases hd : c = d
      · subst hd
        refine h.of_queued ?_ ?_ (pushToQueue_task _) (queued_retryMsg (hok hp))
        · rw [pushToQueue_ipc, setIpc_self]
        · rw [pushToQueue_ipc, setIpc_self]
      · have h' : (s.setIpc d { s.ipc d with isr := .idle }).Inv c := h.congr (setIpc_other hd _) rfl id
        exact h'.congr (congrFun (pushToQueue_ipc _) c) (pushToQueue_task _) fun hq => hq.push _

theorem inv_init : (({} : WdrvSys)).Inv c where
  rest _ := rfl
  owned := nofun
  set := nofun
  moving _ := .inl rfl
  errExit := nofun

theorem inv_of_run (h : Run WdrvSys.step TxOk {} s) : s.Inv c :=
  h.invariant inv_init fun _ _ _ _ hi hok hs => hi.step hok hs

end
end WdrvSys

/-- If a failed `mb_chnl_write` and a retry message that finds the queue full leave another message for their channel,
no packet is left behind when the task waits and nothing is outstanding. -/
theorem wdrv_no_packet_left {s : WdrvSys} (h : Run WdrvSys.step WdrvSys.TxOk {} s) (ht : s.task = .idle)
    (hq : s.ioQueue = []) {c : WdrvChnl} (ho : (s.ipc c).outstanding = false) (hi : (s.ipc c).isr = .idle) :
    (s.ipc c).txList = [] := by
  have hinv : s.Inv c := WdrvSys.inv_of_run h
  have hid : s.task.chnl ≠ some c := by rw [ht]; nofun
  have hf : (s.ipc c).sendingFlag = false := (hinv.rest fun h' => hid h'.1).trans ho
  rcases hinv.moving hid with hl | hl | hl | ⟨m, hm, -⟩
  · exact hl
  · rw [hf] at hl
    cases hl
  · exact absurd hi hl
  · rw [hq] at hm
    cases hm

theorem wdrv_no_packet_left_retry :
    ∃ s : WdrvSys, Run WdrvSys.step WdrvSys.TxOk {} s ∧ s.task = .idle ∧ s.ioQueue = [] ∧
      (s.ipc .data).outstanding = false ∧ (s.ipc .data).isr = .idle ∧ (s.ipc .data).txList = [] := by
  refine Run.of_exec_imp (p := fun s => s.task = .idle ∧ s.ioQueue = [] ∧ (s.ipc .data).outstanding = false ∧
      (s.ipc .data).isr = .idle)
    (List.flatten [[.post .txdata 1], List.replicate 7 (.task true), [.post .txdata 2], List.replicate 3 (.task true),
      [.complete .data, .isr .data, .isr .data], List.replicate 6 (.task true), [.complete .data, .isr .data]])
    (by decide +kernel) ?_
  exact fun s hr ⟨ht, hq, ho, hi⟩ => ⟨ht, hq, ho, hi, wdrv_no_packet_left hr ht hq ho hi⟩

/-- `mb_chnl_write` fails, and nothing is left that would send the packet. -/
theorem wdrv_packet_left_behind :
    ∃ s : WdrvSys, Run WdrvSys.step (fun _ _ => True) {} s ∧ s.task = .idle ∧ s.ioQueue = [] ∧
      (s.ipc .data).outstanding = false ∧ (s.ipc .data).isr = .idle ∧ (s.ipc .data).txList = [1] :=
  Run.of_exec (List.flatten [[.post .txdata 1], List.replicate 7 (.task false)]) (by decide +kernel)

end Bk7258

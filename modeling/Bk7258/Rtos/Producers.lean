import Mathlib.Data.Fintype.Defs
import Bk7258.Rtos.Queue

/-!
# Producers and consumers of one queue

A push with `timeout_ms` 0 asks `mq_getattr` whether there is room and then calls `mq_send`, which waits if there is
none. The two are separate steps here, so another producer can take the last place between them.
-/

namespace Bk7258
open Lts Mqueue Function

inductive PushPc
  | idle
  | checked (prio : Nat) (m : List UInt8)
  | sending (prio : Nat) (m : List UInt8) (forever : Bool)
  | ret (e : RtosErr)
deriving DecidableEq, Repr

namespace PushPc

def free : PushPc → Bool
  | .idle | .ret _ => true
  | _ => false

def isChecked : PushPc → Bool
  | .checked .. => true
  | _ => false

end PushPc

structure QueueSys (T : Type) where
  q : BekenMqueue
  task : T → PushPc := fun _ => .idle

inductive ProdAct (T : Type)
  | getattr (t : T) (front : Bool) (message : Nat → UInt8)
  | push (t : T) (front : Bool) (message : Nat → UInt8) (forever : Bool)
  | send (t : T)
  | timeout (t : T)
  | pop (timeoutMs : UInt32)

namespace QueueSys
variable {T : Type} [DecidableEq T] (prioMax : Nat) (s : QueueSys T)

def setTask (t : T) (pc : PushPc) : QueueSys T := { s with task := update s.task t pc }

def mqSend (t : T) (prio : Nat) (m : List UInt8) : Option (QueueSys T) :=
  match s.q.mq.send prioMax m prio with
  | .done mq => some { s.setTask t (.ret .kNoErr) with q := { s.q with mq } }
  | .error => some (s.setTask t (.ret .kGeneralErr))
  | .wait => none

def step : ProdAct T → Option (QueueSys T)
  | .getattr t front message =>
    if (s.task t).free then
      some (s.setTask t (if s.q.mq.full then .ret .kGeneralErr
        else .checked (if front then prioMax else 0) (s.q.bytes message)))
    else none
  | .push t front message forever =>
    if (s.task t).free then some (s.setTask t (.sending (if front then prioMax else 0) (s.q.bytes message) forever))
    else none
  | .send t => match s.task t with
    | .checked prio m | .sending prio m _ => s.mqSend prioMax t prio m
    | _ => none
  | .timeout t => match s.task t with
    | .sending _ _ false => if s.q.mq.full then some (s.setTask t (.ret .kGeneralErr)) else none
    | _ => none
  | .pop timeoutMs => (s.q.rtosPopFromQueue timeoutMs).map fun r => { s with q := r.1 }

/-- A push with `timeout_ms` 0 is at its `mq_send`, and the queue is full. -/
def Waits (t : T) : Prop := (s.task t).isChecked = true ∧ s.q.mq.full = true

instance (t : T) : Decidable (s.Waits t) := inferInstanceAs (Decidable (_ ∧ _))

/-- A message is sent while no other producer stands between `mq_getattr` and `mq_send`. -/
def SendAlone : ProdAct T → Prop
  | .send t => ∀ u, u ≠ t → (s.task u).isChecked = false
  | _ => True

instance [Fintype T] : ∀ a, Decidable (s.SendAlone a)
  | .send t => inferInstanceAs (Decidable (∀ u, u ≠ t → (s.task u).isChecked = false))
  | .getattr .. | .push .. | .timeout _ | .pop _ => .isTrue trivial

variable {prioMax} {s} {s' : QueueSys T}

def Room (s : QueueSys T) : Prop := ∀ t, (s.task t).isChecked = true → s.q.mq.full = false

theorem setTask_checked {t u : T} {pc : PushPc} (hu : ((s.setTask t pc).task u).isChecked) :
    u = t ∧ pc.isChecked ∨ u ≠ t ∧ (s.task u).isChecked := by
  change (update s.task t pc u).isChecked = true at hu
  by_cases hut : u = t
  · subst hut
    rw [update_self] at hu
    exact .inl ⟨rfl, hu⟩
  · rw [update_of_ne hut] at hu
    exact .inr ⟨hut, hu⟩

theorem Room.setTask (h : s.Room) {t : T} {pc : PushPc} (hpc : pc.isChecked → s.q.mq.full = false) :
    (s.setTask t pc).Room := by
  intro u hu
  rcases setTask_checked hu with ⟨-, hc⟩ | ⟨-, hc⟩
  · exact hpc hc
  · exact h u hc

theorem Room.mqSend (h : s.Room) {t : T} {prio : Nat} {m : List UInt8} (hok : s.SendAlone (.send t))
    (hs : s.mqSend prioMax t prio m = some s') : s'.Room := by
  unfold QueueSys.mqSend at hs
  split at hs
  · cases hs
    intro u hu
    have hu : ((s.setTask t (.ret .kNoErr)).task u).isChecked := hu
    rcases setTask_checked hu with ⟨-, hc⟩ | ⟨hne, hc⟩
    · cases hc
    · rw [hok u hne] at hc
      cases hc
  · cases hs
    exact h.setTask nofun
  · cases hs

theorem Room.step (h : s.Room) {a : ProdAct T} (hok : s.SendAlone a) (hs : s.step prioMax a = some s') : s'.Room := by
  cases a with
  | getattr t front message =>
    simp only [QueueSys.step] at hs
    split at hs
    · cases hs
      refine h.setTask ?_
      intro hc
      split at hc
      · cases hc
      · exact Bool.eq_false_iff.2 ‹_›
    · cases hs
  | push t front message forever =>
    simp only [QueueSys.step] at hs
    split at hs
    · cases hs
      exact h.setTask nofun
    · cases hs
  | send t =>
    simp only [QueueSys.step] at hs
    split at hs
    · exact h.mqSend hok hs
    · exact h.mqSend hok hs
    · cases hs
  | timeout t =>
    simp only [QueueSys.step] at hs
    split at hs
    · split at hs
      · cases hs
        exact h.setTask nofun
      · cases hs
    · cases hs
  | pop timeoutMs =>
    obtain ⟨x, hx, rfl⟩ := Option.map_eq_some_iff.1 hs
    intro t ht
    have hroom := Mq.full_eq_false.1 (h t ht)
    obtain ⟨hle, hmax, -⟩ := BekenMqueue.rtosPopFromQueue_le hx
    refine Mq.full_eq_false.2 ?_
    rw [hmax]
    exact Nat.lt_of_le_of_lt hle hroom

end QueueSys

/-- If no message is sent between the two steps of another producer, a push with `timeout_ms` 0 never comes to a full
queue. -/
theorem push_no_wait_has_room {T : Type} [DecidableEq T] {prioMax : Nat} {q : BekenMqueue} {s : QueueSys T}
    (h : Run (QueueSys.step prioMax) QueueSys.SendAlone { q := q } s) (t : T) : ¬ s.Waits t := by
  have hroom : s.Room := by
    refine h.invariant (I := QueueSys.Room) ?_ ?_
    · intro u hu
      cases hu
    · intro s₁ s₂ a _ hs hok hstep
      exact hs.step hok hstep
  rintro ⟨hc, hfull⟩
  rw [hroom t hc] at hfull
  cases hfull

theorem push_no_wait_has_room_two : ∃ s : QueueSys Bool,
    Run (QueueSys.step 32) QueueSys.SendAlone { q := ⟨⟨2, 1, []⟩, 1⟩ } s ∧
    (s.task true = .ret .kNoErr ∧ s.task false = .checked 0 [6] ∧ s.q.contents = [[5]]) ∧ ∀ t, ¬ s.Waits t :=
  Run.of_exec_and [.getattr true false (fun _ => 5), .send true, .getattr false false (fun _ => 6)] (by decide +kernel)
    fun _ hr _ => push_no_wait_has_room hr

theorem push_no_wait_waits : ∃ s : QueueSys Bool,
    Run (QueueSys.step 32) (fun _ _ => True) { q := ⟨⟨1, 1, []⟩, 1⟩ } s ∧
    s.Waits false ∧ s.task false = .checked 0 [6] ∧ s.q.mq.send 32 [6] 0 = .wait :=
  Run.of_exec (p := fun s : QueueSys Bool => s.Waits false ∧ s.task false = .checked 0 [6] ∧
    s.q.mq.send 32 [6] 0 = .wait)
    [.getattr true false (fun _ => 5), .getattr false false (fun _ => 6), .send true] (by decide +kernel)

end Bk7258

import Mathlib.Data.List.Basic

/-!
# POSIX message queues

A queue of at most `maxmsg` messages of at most `msgsize` cells each. The message that is received next is the oldest of
those with the highest priority. A rejected call changes nothing; a send to a full queue and a receive from an empty one
wait.
-/

namespace Mqueue

variable {α β : Type}

inductive Attempt (β : Type)
  | done (b : β)
  | error
  | wait
deriving DecidableEq, Repr

structure Mq (α : Type) where
  maxmsg : Nat
  msgsize : Nat
  msgs : List (Nat × List α) := []
deriving DecidableEq, Repr

def insert (prio : Nat) (m : β) : List (Nat × β) → List (Nat × β)
  | [] => [(prio, m)]
  | x :: l => if x.1 < prio then (prio, m) :: x :: l else x :: insert prio m l

namespace Mq

variable (q : Mq α)

def full : Bool := q.maxmsg ≤ q.msgs.length

def send (prioMax : Nat) (m : List α) (prio : Nat) : Attempt (Mq α) :=
  if prioMax ≤ prio ∨ q.msgsize < m.length then .error
  else if q.full then .wait
  else .done { q with msgs := insert prio m q.msgs }

def receive (len : Nat) : Attempt (List α × Mq α) :=
  if len < q.msgsize then .error
  else match q.msgs with
    | [] => .wait
    | x :: l => .done (x.2, { q with msgs := l })

end Mq

theorem insert_eq_append {prio : Nat} {m : β} {l : List (Nat × β)} (h : ∀ x ∈ l, prio ≤ x.1) :
    insert prio m l = l ++ [(prio, m)] := by
  induction l with
  | nil => rfl
  | cons x l ih =>
    obtain ⟨hx, hl⟩ := List.forall_mem_cons.1 h
    rw [insert, if_neg (Nat.not_lt.2 hx), ih hl]
    rfl

variable {q q' : Mq α}

theorem Mq.full_eq_true : q.full ↔ q.maxmsg ≤ q.msgs.length := decide_eq_true_iff

theorem Mq.full_eq_false : q.full = false ↔ q.msgs.length < q.maxmsg := by
  rw [← Bool.not_eq_true, Mq.full_eq_true, Nat.not_le]

theorem Mq.send_eq_done {prioMax prio : Nat} {m : List α} (h : q.send prioMax m prio = .done q') :
    q.msgs.length < q.maxmsg ∧ q' = { q with msgs := insert prio m q.msgs } := by
  unfold Mq.send at h
  split at h
  · cases h
  · split at h
    · cases h
    · cases h
      exact ⟨Mq.full_eq_false.1 (Bool.eq_false_iff.2 ‹_›), rfl⟩

theorem Mq.receive_eq_done {len : Nat} {m : List α} (h : q.receive len = .done (m, q')) :
    ∃ prio, q.msgs = (prio, m) :: q'.msgs ∧ q'.maxmsg = q.maxmsg ∧ q'.msgsize = q.msgsize := by
  unfold Mq.receive at h
  split at h
  · cases h
  · split at h
    · cases h
    · rename_i x l hx
      cases h
      exact ⟨x.1, hx, rfl, rfl⟩

end Mqueue

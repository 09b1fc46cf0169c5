import Mathlib.Data.List.Basic

/-!
# Bounded streams

A queue of at most `cap` elements as the list of its elements, oldest first. A writer puts in as much as there is room
for, a reader takes up to `n` from the front. Whatever the sizes asked for, what a sequence of reads gives, followed by
what it leaves, is the queue it began with.
-/

namespace Fifo

variable {α : Type}

def put (cap : Nat) (q xs : List α) : List α := q ++ xs.take (cap - q.length)

def gets (q : List α) : List Nat → List (List α)
  | [] => []
  | n :: ns => q.take n :: gets (q.drop n) ns

def rest (q : List α) : List Nat → List α
  | [] => q
  | n :: ns => rest (q.drop n) ns

theorem gets_append_rest (q : List α) (ns : List Nat) : (gets q ns).flatten ++ rest q ns = q := by
  induction ns generalizing q with
  | nil => rfl
  | cons n ns ih =>
    rw [gets, rest, List.flatten_cons, List.append_assoc, ih]
    exact List.take_append_drop n q

end Fifo

import Mathlib.Data.List.Basic

/-!
# Bounded double-ended queues

A queue of at most `cap` elements, next one out first. Elements come in at the back or at the front, and a push into a
full queue or a pop from an empty one is refused. `exec` gives the answers to a sequence of operations.
-/

namespace Deque

variable {α : Type}

inductive Op (α : Type)
  | pushBack (a : α)
  | pushFront (a : α)
  | pop
deriving DecidableEq, Repr

inductive Res (α : Type)
  | done
  | got (a : α)
  | refused
deriving DecidableEq, Repr

def step (cap : Nat) (q : List α) : Op α → List α × Res α
  | .pushBack a => if q.length < cap then (q ++ [a], .done) else (q, .refused)
  | .pushFront a => if q.length < cap then (a :: q, .done) else (q, .refused)
  | .pop => match q with
    | [] => ([], .refused)
    | a :: q => (q, .got a)

def exec (cap : Nat) (q : List α) : List (Op α) → List α × List (Res α)
  | [] => (q, [])
  | op :: ops =>
    let r := step cap q op
    let rs := exec cap r.1 ops
    (rs.1, r.2 :: rs.2)

theorem exec_snoc {cap : Nat} {q q' q'' : List α} {ops : List (Op α)} {rs : List (Res α)} {op : Op α} {r : Res α}
    (h : exec cap q ops = (q', rs)) (hop : step cap q' op = (q'', r)) :
      exec cap q (ops ++ [op]) = (q'', rs ++ [r]) := by
  induction ops generalizing q rs with
  | nil =>
    cases h
    simp only [List.nil_append, exec, hop]
  | cons o ops ih =>
    simp only [exec, Prod.mk.injEq] at h
    obtain ⟨hq, rfl⟩ := h
    have hlast := ih (Prod.ext hq rfl)
    simp only [List.cons_append, exec, hlast]

end Deque

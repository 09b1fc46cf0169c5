import Mathlib.Logic.Function.Basic

/-!
# Ranges of bytes

A memory, a buffer and what a pointer points to are functions from addresses to bytes. `put` writes a range, `drop` is
the memory seen from a later address on. `IsStr` is a string up to its terminating 0.
-/

namespace Bytes
open Function

abbrev Mem := Nat → UInt8

def put (a n : Nat) (data m : Mem) : Mem := fun x => if a ≤ x ∧ x < a + n then data (x - a) else m x

def drop (data : Mem) (n : Nat) : Mem := fun i => data (n + i)

variable {a n k x : Nat} {data more m : Mem}

theorem put_of_mem (h : a ≤ x ∧ x < a + n) : put a n data m x = data (x - a) := if_pos h

theorem put_of_notMem (h : ¬(a ≤ x ∧ x < a + n)) : put a n data m x = m x := if_neg h

theorem put_zero : put a 0 data m = m := by
  funext x
  exact put_of_notMem (by omega)

theorem put_congr (h : ∀ i < n, data i = more i) : put a n data m = put a n more m := by
  funext x
  unfold put
  split
  · exact h _ (by omega)
  · rfl

theorem drop_zero (data : Mem) : drop data 0 = data := by
  funext i
  exact congrArg data (Nat.zero_add i)

theorem drop_add (data : Mem) (n k : Nat) : drop data (n + k) = drop (drop data n) k := by
  funext i
  exact congrArg data (Nat.add_assoc n k i)

theorem update_put (a n : Nat) (data m : Mem) : update (put a n data m) (a + n) (data n) = put a (n + 1) data m := by
  funext x
  by_cases hx : x = a + n
  · rw [hx, update_self, put_of_mem (by omega), Nat.add_sub_cancel_left]
  · rw [update_of_ne hx]
    unfold put
    by_cases h : a ≤ x ∧ x < a + n
    · rw [if_pos h, if_pos (by omega)]
    · rw [if_neg h, if_neg (by omega)]

theorem put_drop (a n k : Nat) (data m : Mem) :
    put (a + n) k (drop data n) (put a n data m) = put a (n + k) data m := by
  funext x
  unfold put drop
  by_cases h₂ : a + n ≤ x ∧ x < a + n + k
  · rw [if_pos h₂, if_pos (by omega)]
    congr 1
    omega
  · rw [if_neg h₂]
    by_cases h₁ : a ≤ x ∧ x < a + n
    · rw [if_pos h₁, if_pos (by omega)]
    · rw [if_neg h₁, if_neg (by omega)]

/-- `n` bytes at `a` that are not 0, and then a 0 -/
structure IsStr (m : Mem) (a n : Nat) : Prop where
  ne : ∀ i < n, m (a + i) ≠ 0
  nul : m (a + n) = 0

theorem IsStr.head_eq_zero {pd : Mem} {l : Nat} (h : IsStr pd 0 l) : pd 0 = 0 ↔ l = 0 := by
  constructor
  · intro h0
    by_contra hl
    exact h.ne 0 (by omega) h0
  · rintro rfl
    exact h.nul

theorem IsStr.drop {pd : Mem} {l t : Nat} (h : IsStr pd 0 l) (ht : t ≤ l) : IsStr (drop pd t) 0 (l - t) where
  ne i hi := by
    have hne := h.ne (t + i) (by omega)
    rwa [Nat.zero_add] at hne ⊢
  nul := by
    have hnul := h.nul
    rw [Nat.zero_add] at hnul ⊢
    rwa [Bytes.drop, Nat.add_sub_cancel' ht]

end Bytes

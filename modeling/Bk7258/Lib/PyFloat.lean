import Mathlib.Algebra.Group.Nat.Defs
import Mathlib.Data.Nat.Log

/-!
# `int(n / 2 ** k)` in Python

`/` of two integers is a `float`: the quotient rounded to 53 bits, to the nearest and on a tie to the even one. Division
by a power of two only moves the exponent, so it is `n` that is rounded, and below `2 ^ 53` nothing is.
-/

namespace Py

def roundDouble (n : Nat) : Nat :=
  let unit := 2 ^ (n.log2 + 1 - 53)
  let q := n / unit
  let r := n % unit
  if 2 * r > unit ∨ (2 * r = unit ∧ q % 2 = 1) then (q + 1) * unit else q * unit

/-- `int(n / 2 ** k)`; `none` is `OverflowError`. -/
def truncDivPow (n k : Nat) : Option Nat :=
  if roundDouble n < 2 ^ (1024 + k) then some (roundDouble n / 2 ^ k) else none

theorem roundDouble_of_lt {n : Nat} (h : n < 2 ^ 53) : roundDouble n = n := by
  have hunit : n.log2 + 1 - 53 = 0 := by
    have hlog : n.log2 < 53 := by
      rcases Nat.eq_zero_or_pos n with rfl | hn
      · decide
      · exact (Nat.log2_lt hn.ne').2 h
    omega
  unfold roundDouble
  rw [hunit, pow_zero]
  dsimp only
  rw [Nat.mod_one, Nat.div_one]
  exact (if_neg (by omega)).trans (Nat.mul_one n)

theorem truncDivPow_of_lt {n : Nat} (h : n < 2 ^ 53) (k : Nat) : truncDivPow n k = some (n / 2 ^ k) := by
  have hlt : n < 2 ^ (1024 + k) := lt_of_lt_of_le h (Nat.pow_le_pow_right (by decide) (by omega))
  rw [truncDivPow, roundDouble_of_lt h, if_pos hlt]

end Py

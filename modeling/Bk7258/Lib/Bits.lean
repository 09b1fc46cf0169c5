import Mathlib.Data.List.Range
import Mathlib.Logic.Function.Basic

/-!
# Numbers as bits of a family of words

A set of numbers is kept in words of `w` bits: `k` is bit `k % w` of word `k / w`. `firstBit` finds the least number of
the set below `n * w`: the first word that is not 0, and in it the first bit that is set. At the end words of fields:
numbers of `n` bits, `m` of them in a word.
-/

namespace Bits
open Function

variable {w : Nat}

def mem (g : Nat → BitVec w) (k : Nat) : Bool := (g (k / w)).getLsbD (k % w)

def insert (g : Nat → BitVec w) (k : Nat) : Nat → BitVec w :=
  update g (k / w) (g (k / w) ||| 1#w <<< (k % w))

def erase (g : Nat → BitVec w) (k : Nat) : Nat → BitVec w :=
  update g (k / w) (g (k / w) &&& ~~~(1#w <<< (k % w)))

def firstWord (g : Nat → BitVec w) (n : Nat) : Option Nat := (List.range n).find? fun i => g i ≠ 0

def firstBit (x : BitVec w) : Nat := ((List.range w).find? fun j => x &&& 1#w <<< j ≠ 0).getD w

variable {g : Nat → BitVec w} {i j k n : Nat} {x : BitVec w}

theorem getLsbD_one_shiftLeft (hj : j < w) : (1#w <<< k).getLsbD j = decide (j = k) := by
  rw [BitVec.getLsbD_shiftLeft, BitVec.getLsbD_one]
  by_cases hjk : j = k
  · subst hjk
    simp [hj, show 0 < w by omega]
  · rw [decide_eq_false hjk]
    rcases Nat.lt_or_gt_of_ne hjk with hlt | hgt
    · simp [hlt]
    · simp [show j - k ≠ 0 by omega]

theorem getLsbD_set (hj : j < w) : (x ||| 1#w <<< k).getLsbD j = (x.getLsbD j || decide (j = k)) := by
  rw [BitVec.getLsbD_or, getLsbD_one_shiftLeft hj]

theorem getLsbD_clear (hj : j < w) : (x &&& ~~~(1#w <<< k)).getLsbD j = (x.getLsbD j && decide (j ≠ k)) := by
  rw [BitVec.getLsbD_and, BitVec.getLsbD_not, getLsbD_one_shiftLeft hj, decide_eq_true hj, Bool.true_and, ← decide_not]

theorem div_mod_inj (hdiv : i / w = k / w) : i % w = k % w ↔ i = k := by
  constructor
  · intro hmod
    rw [← Nat.div_add_mod i w, ← Nat.div_add_mod k w, hdiv, hmod]
  · rintro rfl
    rfl

theorem mem_insert (hw : 0 < w) : mem (insert g k) i = (mem g i || decide (i = k)) := by
  unfold mem insert
  by_cases hdiv : i / w = k / w
  · rw [hdiv, update_self, getLsbD_set (Nat.mod_lt i hw)]
    simp only [div_mod_inj hdiv]
  · rw [update_of_ne hdiv]
    have hne : i ≠ k := fun h => hdiv (by rw [h])
    rw [decide_eq_false hne, Bool.or_false]

theorem mem_erase (hw : 0 < w) : mem (erase g k) i = (mem g i && decide (i ≠ k)) := by
  unfold mem erase
  by_cases hdiv : i / w = k / w
  · rw [hdiv, update_self, getLsbD_clear (Nat.mod_lt i hw)]
    simp only [ne_eq, div_mod_inj hdiv]
  · rw [update_of_ne hdiv]
    have hne : i ≠ k := fun h => hdiv (by rw [h])
    rw [decide_eq_true hne, Bool.and_true]

theorem and_one_shiftLeft (hj : j < w) : x &&& 1#w <<< j ≠ 0 ↔ x.getLsbD j := by
  constructor
  · intro hne
    by_contra hbit
    refine hne (BitVec.eq_of_getLsbD_eq fun l hl => ?_)
    rw [BitVec.getLsbD_and, getLsbD_one_shiftLeft hl]
    by_cases hlj : l = j
    · rw [hlj, Bool.eq_false_iff.2 hbit]
      simp
    · simp [hlj]
  · intro hbit h0
    have hzero : (x &&& 1#w <<< j).getLsbD j = false := by rw [h0]; simp
    rw [BitVec.getLsbD_and, getLsbD_one_shiftLeft hj, hbit] at hzero
    simp at hzero

theorem firstBit_spec (h : x ≠ 0) : firstBit x < w ∧ x.getLsbD (firstBit x) ∧
    ∀ j < firstBit x, x.getLsbD j = false := by
  unfold firstBit
  cases hf : (List.range w).find? fun j => x &&& 1#w <<< j ≠ 0 with
  | none =>
    refine absurd (BitVec.eq_of_getLsbD_eq fun j hj => ?_) h
    have hnone := List.find?_eq_none.1 hf j (List.mem_range.2 hj)
    rw [decide_eq_true_eq, and_one_shiftLeft hj] at hnone
    rw [Bool.eq_false_iff.2 hnone]
    simp
  | some j =>
    obtain ⟨hp, hj, hbefore⟩ := List.find?_range_eq_some.1 hf
    rw [List.mem_range] at hj
    rw [decide_eq_true_eq, and_one_shiftLeft hj] at hp
    refine ⟨hj, hp, fun l hl => ?_⟩
    have hlt : l < j := hl
    have hl' := hbefore l hlt
    rw [Bool.not_eq_true', decide_eq_false_iff_not, and_one_shiftLeft (by omega)] at hl'
    exact Bool.eq_false_iff.2 hl'

theorem mul_add_div_mod (hj : j < w) : (i * w + j) / w = i ∧ (i * w + j) % w = j := by
  rw [Nat.mul_comm, Nat.mul_add_div (by omega), Nat.div_eq_of_lt hj, Nat.mul_add_mod, Nat.mod_eq_of_lt hj]
  exact ⟨rfl, rfl⟩

theorem mem_mul_add (hj : j < w) : mem g (i * w + j) = (g i).getLsbD j := by
  obtain ⟨hdiv, hmod⟩ : (i * w + j) / w = i ∧ (i * w + j) % w = j := mul_add_div_mod hj
  rw [mem, hdiv, hmod]

theorem erase_mul_add (hj : j < w) : erase g (i * w + j) = update g i (g i &&& ~~~(1#w <<< j)) := by
  obtain ⟨hdiv, hmod⟩ : (i * w + j) / w = i ∧ (i * w + j) % w = j := mul_add_div_mod hj
  rw [erase, hdiv, hmod]

theorem firstWord_spec (h : firstWord g n = some i) :
    firstBit (g i) < w ∧ i * w + firstBit (g i) < n * w ∧ mem g (i * w + firstBit (g i)) ∧
      ∀ k < i * w + firstBit (g i), mem g k = false := by
  obtain ⟨hne, hi, hbefore⟩ := List.find?_range_eq_some.1 h
  rw [decide_eq_true_eq] at hne
  rw [List.mem_range] at hi
  obtain ⟨hlt, hbit, hlow⟩ := firstBit_spec hne
  refine ⟨hlt, ?_, by rw [mem_mul_add hlt, hbit], fun k hk => ?_⟩
  · calc i * w + firstBit (g i) < i * w + w := Nat.add_lt_add_left hlt _
      _ = (i + 1) * w := (Nat.succ_mul i w).symm
      _ ≤ n * w := Nat.mul_le_mul_right w hi
  · have hw : 0 < w := by omega
    have hdiv : k / w ≤ i := by
      rw [← Nat.lt_succ_iff, Nat.div_lt_iff_lt_mul hw, Nat.succ_mul]
      omega
    rcases Nat.lt_or_eq_of_le hdiv with hdiv | hdiv
    · have hzero : g (k / w) = 0 := by simpa using hbefore (k / w) hdiv
      unfold mem
      rw [hzero]
      simp
    · unfold mem
      rw [hdiv]
      refine hlow _ ?_
      have hsplit := Nat.div_add_mod k w
      rw [hdiv, Nat.mul_comm] at hsplit
      omega

theorem firstWord_eq_none (h : firstWord g n = none) (hk : k < n * w) : mem g k = false := by
  have hw : 0 < w := by
    rcases Nat.eq_zero_or_pos w with h0 | hpos
    · rw [h0, Nat.mul_zero] at hk
      omega
    · exact hpos
  have hzero := List.find?_eq_none.1 h (k / w) (List.mem_range.2 ((Nat.div_lt_iff_lt_mul hw).2 hk))
  rw [decide_eq_true_eq, ne_eq, not_not] at hzero
  unfold mem
  rw [hzero]
  simp

/-! ## Words of fields -/

def low (w n : Nat) : BitVec w := (BitVec.allOnes n).setWidth w

def field (n m : Nat) (g : Nat → BitVec w) (u : Nat) : BitVec w := g (u / m) >>> (u % m * n) &&& low w n

def orWord (g : Nat → BitVec w) (i : Nat) (x : BitVec w) : Nat → BitVec w := update g i (g i ||| x)

def orField (n m : Nat) (g : Nat → BitVec w) (u : Nat) (x : BitVec w) : Nat → BitVec w :=
    orWord g (u / m) (x <<< (u % m * n))

theorem getLsbD_low (hi : i < w) : (low w n).getLsbD i = decide (i < n) := by
  rw [low, BitVec.getLsbD_setWidth, BitVec.getLsbD_allOnes, decide_eq_true hi, Bool.true_and]

theorem getLsbD_shiftLeft_field (hx : x &&& low w n = x) (hlt : k < n) (hi : i * n + k < w) :
    (x <<< (j * n)).getLsbD (i * n + k) = (x.getLsbD k && decide (i = j)) := by
  rw [BitVec.getLsbD_shiftLeft, decide_eq_true hi, Bool.true_and]
  rcases Nat.lt_trichotomy i j with hij | rfl | hij
  · have hle : (i + 1) * n ≤ j * n := Nat.mul_le_mul_right n hij
    rw [Nat.succ_mul] at hle
    rw [decide_eq_true (show i * n + k < j * n by omega), decide_eq_false (Nat.ne_of_lt hij), Bool.and_false]
    rfl
  · rw [decide_eq_false (show ¬i * n + k < i * n by omega), Nat.add_sub_cancel_left, decide_eq_true rfl, Bool.and_true]
    rfl
  · have hle : (j + 1) * n ≤ i * n := Nat.mul_le_mul_right n hij
    rw [Nat.succ_mul] at hle
    -- the value has no bits that far up
    have hzero : x.getLsbD (i * n + k - j * n) = false := by
      rw [← hx, BitVec.getLsbD_and, getLsbD_low (by omega), decide_eq_false (by omega), Bool.and_false]
    rw [hzero, Bool.and_false, decide_eq_false (Nat.ne_of_gt hij), Bool.and_false]

theorem field_orField {m u v : Nat} (hm : 0 < m) (hw : m * n ≤ w) (hx : x &&& low w n = x) :
    field n m (orField n m g u x) v = if v = u then field n m g v ||| x else field n m g v := by
  unfold field orField orWord
  by_cases hdiv : v / m = u / m
  case neg =>
    rw [update_of_ne hdiv, if_neg fun h => hdiv (by rw [h])]
  have hfit : v % m * n + n ≤ w := by
    rw [← Nat.succ_mul]
    exact Nat.le_trans (Nat.mul_le_mul_right n (Nat.mod_lt v hm)) hw
  rw [hdiv, update_self]
  -- within one word, bit by bit; above the field both sides are 0
  have hbits : (g (u / m) ||| x <<< (u % m * n)) >>> (v % m * n) &&& low w n =
      (g (u / m) >>> (v % m * n) &&& low w n) ||| if v % m = u % m then x else 0#w := by
    ext k hk
    simp only [← BitVec.getLsbD_eq_getElem, BitVec.getLsbD_and, BitVec.getLsbD_or, BitVec.getLsbD_ushiftRight,
      getLsbD_low hk]
    by_cases hkn : k < n
    · rw [decide_eq_true hkn, getLsbD_shiftLeft_field hx hkn (by omega)]
      split <;> simp [*]
    · rw [decide_eq_false hkn, Bool.and_false, Bool.and_false]
      split
      · rw [← hx, BitVec.getLsbD_and, getLsbD_low hk, decide_eq_false hkn, Bool.and_false]
        rfl
      · simp
  rw [hbits]
  by_cases huv : v = u
  · rw [huv, if_pos rfl, if_pos rfl]
  · rw [if_neg fun h => huv ((div_mod_inj hdiv).1 h), if_neg huv, BitVec.or_zero]

end Bits

import Bk7258.Lib.Bytes

/-!
# NOR flash chips

Erase sets an aligned block to ones, page program clears bits in one page and goes back to the start of the page at its
end; both take effect only after a write enable, which they use up.

A page program that fits its page melds the data into the range, and into erased bytes it puts them.
-/

namespace Nor
open Function

open Bytes

/-! ## Ranges -/

def meld (a n : Nat) (data : Nat → UInt8) (m : Mem) : Mem := fun x =>
  if a ≤ x ∧ x < a + n then m x &&& data (x - a) else m x

def ErasedOn (a n : Nat) (m : Mem) : Prop := ∀ x, a ≤ x → x < a + n → m x = 0xFF

section
variable {a b n k x : Nat} {data more : Nat → UInt8} {m : Mem}

theorem meld_congr (h : ∀ i < n, data i = more i) : meld a n data m = meld a n more m := by
  funext x
  unfold meld
  split
  · rw [h _ (by omega)]
  · rfl

theorem ErasedOn.mono (h : ErasedOn a n m) (hb : a ≤ b) (hk : b + k ≤ a + n) : ErasedOn b k m :=
  fun x h₁ h₂ => h x (by omega) (by omega)

theorem ErasedOn.rest {j : Nat} (h : ErasedOn a n m) (hb : a + k ≤ b) (hj : b + j ≤ a + n) :
    ErasedOn b j (Bytes.put a k data m) := by
  intro x h₁ h₂
  rw [put_of_notMem (by omega)]
  exact h x (by omega) (by omega)

theorem ones_and (b : UInt8) : 0xFF &&& b = b := by
  apply UInt8.toBitVec_inj.1
  exact BitVec.allOnes_and

theorem meld_erased (h : ErasedOn a n m) : meld a n data m = put a n data m := by
  funext x
  unfold meld put
  split
  · rename_i hx
    rw [h x hx.1 hx.2, ones_and]
  · rfl

theorem meld_part (hb : a ≤ b) (hk : b + k ≤ a + n) (h : ErasedOn b k m)
    (hin : ∀ x, b ≤ x → x < b + k → data (x - a) = more (x - b))
    (hout : ∀ x, a ≤ x → x < a + n → ¬(b ≤ x ∧ x < b + k) → data (x - a) = m x) : meld a n data m = put b k more m := by
  funext x
  unfold meld put
  by_cases hx : a ≤ x ∧ x < a + n
  · rw [if_pos hx]
    by_cases hp : b ≤ x ∧ x < b + k
    · rw [if_pos hp, h x hp.1 hp.2, ones_and, hin x hp.1 hp.2]
    · rw [if_neg hp, hout x hx.1 hx.2 hp, UInt8.and_self]
  · rw [if_neg hx, if_neg (by omega)]

end

/-! ## Commands -/

def erase (n a : Nat) (m : Mem) : Mem := fun x => if x / n = a / n then 0xFF else m x

/-- Where byte `i` of a program at `a` goes, in pages of `p` bytes -/
def pageAddr (p a i : Nat) : Nat := a / p * p + (a % p + i) % p

def program (p a : Nat) : (n : Nat) → (data : Nat → UInt8) → Mem → Mem
  | 0, _, m => m
  | n + 1, data, m =>
    let m' := program p a n data m
    update m' (pageAddr p a n) (m' (pageAddr p a n) &&& data n)

theorem pageAddr_fits {p a i : Nat} (h : a % p + i < p) : pageAddr p a i = a + i := by
  have hdiv := Nat.div_add_mod' a p
  rw [pageAddr, Nat.mod_eq_of_lt h]
  omega

theorem program_fits {p a n : Nat} (h : a % p + n ≤ p) (data : Nat → UInt8) (m : Mem) :
    program p a n data m = meld a n data m := by
  induction n with
  | zero =>
    funext x
    exact (if_neg (by omega)).symm
  | succ n ih =>
    funext x
    rw [program, pageAddr_fits (by omega), ih (by omega)]
    by_cases hx : x = a + n
    · subst hx
      rw [update_self]
      unfold meld
      rw [if_neg (by omega), if_pos (by omega), Nat.add_sub_cancel_left]
    · rw [update_of_ne hx]
      unfold meld
      by_cases hin : a ≤ x ∧ x < a + n
      · rw [if_pos hin, if_pos (by omega)]
      · rw [if_neg hin, if_neg (by omega)]

section
variable {p a n x : Nat} {data : Nat → UInt8} {m : Mem}

theorem program_of_ne (h : ∀ i < n, x ≠ pageAddr p a i) : program p a n data m x = m x := by
  induction n with
  | zero => rfl
  | succ n ih =>
    rw [program, update_of_ne (h n (Nat.lt_succ_self n))]
    exact ih fun i hi => h i (Nat.lt_succ_of_lt hi)

theorem program_of_zero (h : m x = 0) : program p a n data m x = 0 := by
  induction n with
  | zero => exact h
  | succ n ih =>
    rw [program]
    by_cases hx : x = pageAddr p a n
    · rw [← hx, update_self, ih, UInt8.zero_and]
    · rw [update_of_ne hx, ih]

theorem program_zero {i : Nat} (hi : i < n) (hd : data i = 0) : program p a n data m (pageAddr p a i) = 0 := by
  induction n with
  | zero => exact absurd hi (Nat.not_lt_zero i)
  | succ n ih =>
    rw [program]
    by_cases hx : pageAddr p a i = pageAddr p a n
    · rw [hx, update_self]
      rcases Nat.lt_succ_iff_lt_or_eq.1 hi with hlt | rfl
      · rw [← hx, ih hlt, UInt8.zero_and]
      · rw [hd, UInt8.and_zero]
    · rw [update_of_ne hx]
      refine ih (Nat.lt_of_le_of_ne (Nat.le_of_lt_succ hi) ?_)
      rintro rfl
      exact hx rfl

end

inductive Cmd
  | wren
  | erase (n a : Nat)
  | program (a n : Nat) (data : Nat → UInt8)

structure Chip where
  mem : Mem
  wel : Bool

def Chip.exec (p : Nat) (c : Chip) : Cmd → Chip
  | .wren => { c with wel := true }
  | .erase n a => if c.wel then ⟨Nor.erase n a c.mem, false⟩ else c
  | .program a n data => if c.wel then ⟨Nor.program p a n data c.mem, false⟩ else c

def eraseAll (bs : List (Nat × Nat)) (m : Mem) : Mem := bs.foldl (fun m b => erase b.1 b.2 m) m

theorem eraseAll_apply (bs : List (Nat × Nat)) (m : Mem) (x : Nat) :
    eraseAll bs m x = if ∃ b ∈ bs, x / b.1 = b.2 / b.1 then 0xFF else m x := by
  induction bs generalizing m with
  | nil => simp [eraseAll]
  | cons b bs ih =>
    have hfold : eraseAll (b :: bs) m = eraseAll bs (erase b.1 b.2 m) := rfl
    rw [hfold, ih]
    simp only [List.mem_cons, exists_eq_or_imp]
    by_cases hrest : ∃ b ∈ bs, x / b.1 = b.2 / b.1
    · rw [if_pos hrest, if_pos (.inr hrest)]
    · rw [if_neg hrest]
      by_cases hb : x / b.1 = b.2 / b.1
      · rw [if_pos (.inl hb), erase, if_pos hb]
      · rw [if_neg (not_or_intro hb hrest), erase, if_neg hb]

end Nor

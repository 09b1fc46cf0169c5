import Mathlib.Data.Nat.Digits.Defs
import Bk7258.Lib.PyText

/-!
# Numbers as Python text

`str(n)` and the format `0Wx` of a number, and what `int` reads back from them.
-/

namespace Py

def str (n : Int) : List Char :=
  if n < 0 then '-' :: Nat.toDigits 10 n.natAbs else Nat.toDigits 10 n.natAbs

def zfill (width : Nat) (cs : List Char) : List Char := List.replicate (width - cs.length) '0' ++ cs

def hex (width : Nat) (n : Int) : List Char :=
  if n < 0 then '-' :: zfill (width - 1) (Nat.toDigits 16 n.natAbs) else zfill width (Nat.toDigits 16 n.natAbs)

def ljust (width : Nat) (s : List Char) : List Char := s ++ List.replicate (width - s.length) ' '

/-! ### Reading them back -/

def IsDigitOf (base : Nat) (c : Char) : Prop := ∃ d < base, c = Nat.digitChar d

section
variable {decimal : Char → Option (Fin 10)} {base : Nat} {t : List Char}

theorem isDigitOf_of_mem_toDigits (hb : 1 < base) (n : Nat) : ∀ c ∈ Nat.toDigits base n, IsDigitOf base c := by
  induction n using Nat.strong_induction_on with
  | _ n ih =>
    intro c hc
    rw [Nat.toDigits_eq_if hb] at hc
    split at hc
    · rename_i hlt
      exact ⟨n, hlt, List.mem_singleton.1 hc⟩
    · rename_i hlt
      rcases List.mem_append.1 hc with hc | hc
      · exact ih (n / base) (Nat.div_lt_self (by omega) hb) c hc
      · exact ⟨n % base, Nat.mod_lt n (by omega), List.mem_singleton.1 hc⟩

theorem isDigitOf_of_mem_zfill (hb : 0 < base) (width : Nat) (ht : ∀ c ∈ t, IsDigitOf base c) :
    ∀ c ∈ zfill width t, IsDigitOf base c := by
  intro c hc
  rcases List.mem_append.1 hc with hc | hc
  · exact ⟨0, hb, List.eq_of_mem_replicate hc⟩
  · exact ht c hc

theorem digit_digitChar (hb : base ≤ 16) {d : Nat} (hd : d < base) : digit base (Nat.digitChar d) = some d := by
  have hall : ∀ b ≤ 16, ∀ d < b, digit b (Nat.digitChar d) = some d := by decide
  exact hall base hb d hd

theorem digitsFrom_digitChar (hb : base ≤ 16) {d : Nat} (hd : d < base) (acc : Nat) (cs : List Char) :
    digitsFrom base acc false (Nat.digitChar d :: cs) = digitsFrom base (acc * base + d) false cs := by
  rw [digitsFrom, digit_digitChar hb hd]

theorem digitsFrom_toDigits (hb : 1 < base) (hb' : base ≤ 16) (n : Nat) :
    ∀ cs, digitsFrom base 0 false (Nat.toDigits base n ++ cs) = digitsFrom base n false cs := by
  induction n using Nat.strong_induction_on with
  | _ n ih =>
    intro cs
    rw [Nat.toDigits_eq_if hb]
    split
    · rename_i hlt
      rw [List.singleton_append, digitsFrom_digitChar hb' hlt, Nat.zero_mul, Nat.zero_add]
    · rename_i hlt
      rw [List.append_assoc, List.singleton_append, ih (n / base) (Nat.div_lt_self (by omega) hb),
        digitsFrom_digitChar hb' (Nat.mod_lt n (by omega)), Nat.mul_comm, Nat.div_add_mod]

theorem digitsFrom_zeros (hb : 0 < base) (hb' : base ≤ 16) (k : Nat) (cs : List Char) :
    digitsFrom base 0 false (List.replicate k '0' ++ cs) = digitsFrom base 0 false cs := by
  induction k with
  | zero => rfl
  | succ k ih =>
    have hstep := digitsFrom_digitChar hb' hb 0 (List.replicate k '0' ++ cs)
    rw [Nat.zero_mul] at hstep
    exact hstep.trans ih

theorem digits_eq_digitsFrom (hb : base ≤ 16) (hne : t ≠ []) (ht : ∀ c ∈ t, IsDigitOf base c) :
    digits base t = digitsFrom base 0 false t := by
  cases t with
  | nil => exact absurd rfl hne
  | cons c cs =>
    obtain ⟨d, hd, rfl⟩ := ht c (List.mem_cons_self ..)
    rw [digitsFrom_digitChar hb hd, digits, digit_digitChar hb hd, Nat.zero_mul, Nat.zero_add, Option.bind_some]

theorem digits_toDigits (hb : 1 < base) (hb' : base ≤ 16) (n : Nat) : digits base (Nat.toDigits base n) = some n := by
  rw [digits_eq_digitsFrom hb' Nat.toDigits_ne_nil (isDigitOf_of_mem_toDigits hb n)]
  have h := digitsFrom_toDigits hb hb' n []
  rw [List.append_nil] at h
  exact h

theorem digits_zfill_toDigits (hb : 1 < base) (hb' : base ≤ 16) (width n : Nat) :
    digits base (zfill width (Nat.toDigits base n)) = some n := by
  have hdig := isDigitOf_of_mem_zfill (by omega) width (isDigitOf_of_mem_toDigits hb n)
  rw [digits_eq_digitsFrom hb' (by simp [zfill]) hdig, zfill, digitsFrom_zeros (by omega) hb']
  have h := digitsFrom_toDigits hb hb' n []
  rw [List.append_nil] at h
  exact h

/-! ### `int` of such a text -/

def IsPlain (c : Char) : Prop := c.toNat < 127 ∧ isAsciiSpace c = false ∧ c ≠ '+' ∧ c ≠ '-'

instance (c : Char) : Decidable (IsPlain c) :=
  inferInstanceAs (Decidable (c.toNat < 127 ∧ isAsciiSpace c = false ∧ c ≠ '+' ∧ c ≠ '-'))

theorem IsDigitOf.plain {c : Char} (hb : base ≤ 16) (h : IsDigitOf base c) : IsPlain c := by
  obtain ⟨d, hd, rfl⟩ := h
  have hall : ∀ d < 16, IsPlain (Nat.digitChar d) := by decide
  exact hall d (by omega)

theorem map_toAscii_of_plain (ht : ∀ c ∈ t, IsPlain c) : t.map (toAscii decimal) = t :=
  (List.map_congr_left fun c hc => if_pos (ht c hc).1).trans (List.map_id t)

theorem int_of_plain (ht : ∀ c ∈ t, IsPlain c) : int decimal base t = (unsigned base t).map Int.ofNat := by
  have hdrop : t.dropWhile isAsciiSpace = t := by
    cases t with
    | nil => rfl
    | cons c cs => rw [List.dropWhile_cons, if_neg (Bool.eq_false_iff.1 (ht c (List.mem_cons_self ..)).2.1)]
  unfold int
  rw [map_toAscii_of_plain ht, hdrop]
  split
  · exact absurd rfl (ht '+' (List.mem_cons_self ..)).2.2.1
  · exact absurd rfl (ht '-' (List.mem_cons_self ..)).2.2.2
  · rfl

theorem int_minus_of_plain (ht : ∀ c ∈ t, IsPlain c) :
    int decimal base ('-' :: t) = (unsigned base t).map fun n => -(n : Int) := by
  have hascii : ('-' :: t).map (toAscii decimal) = '-' :: t := congrArg ('-' :: ·) (map_toAscii_of_plain ht)
  unfold int
  rw [hascii]
  rfl

theorem int_str (n : Int) : int decimal 10 (str n) = some n := by
  have hplain : ∀ c ∈ Nat.toDigits 10 n.natAbs, IsPlain c := fun c hc =>
    (isDigitOf_of_mem_toDigits (by decide) n.natAbs c hc).plain (by decide)
  have hread : unsigned 10 (Nat.toDigits 10 n.natAbs) = some n.natAbs :=
    (by simp [unsigned] : unsigned 10 _ = digits 10 _).trans (digits_toDigits (by decide) (by decide) _)
  unfold str
  split
  · rw [int_minus_of_plain hplain, hread]
    show some (-(n.natAbs : Int)) = some n
    congr 1
    omega
  · rw [int_of_plain hplain, hread, Option.map_some]
    exact congrArg some (Int.natAbs_of_nonneg (by omega))

theorem unsigned_hex {cs : List Char} (hcs : '_' ∉ cs) : unsigned 16 ('0' :: 'x' :: cs) = digits 16 cs := by
  unfold unsigned
  split
  · rename_i h
    obtain ⟨-, rfl⟩ : 'x' = _ ∧ cs = '_' :: _ := by simpa using h
    exact absurd (List.mem_cons_self ..) hcs
  · rename_i h
    obtain ⟨rfl, rfl⟩ : 'x' = _ ∧ cs = _ := by simpa using h
    exact if_pos (.inl rfl)
  · rename_i h
    exact absurd rfl (h 'x' cs rfl)

theorem int_hex {n : Int} (hn : 0 ≤ n) (width : Nat) : int decimal 16 ('0' :: 'x' :: hex width n) = some n := by
  rw [hex, if_neg (by omega)]
  have hdig : ∀ c ∈ zfill width (Nat.toDigits 16 n.natAbs), IsDigitOf 16 c :=
    isDigitOf_of_mem_zfill (by decide) width (isDigitOf_of_mem_toDigits (by decide) n.natAbs)
  have hunder : '_' ∉ zfill width (Nat.toDigits 16 n.natAbs) := by
    intro h
    obtain ⟨d, hd, he⟩ := hdig _ h
    have hall : ∀ d < 16, '_' ≠ Nat.digitChar d := by decide
    exact hall d hd he
  have hplain : ∀ c ∈ '0' :: 'x' :: zfill width (Nat.toDigits 16 n.natAbs), IsPlain c := by
    rw [List.forall_mem_cons, List.forall_mem_cons]
    exact ⟨by decide, by decide, fun c hc => (hdig c hc).plain (by decide)⟩
  rw [int_of_plain hplain, unsigned_hex hunder, digits_zfill_toDigits (by decide) (by decide), Option.map_some]
  exact congrArg some (Int.natAbs_of_nonneg hn)

-- the sign stands behind `0x`
theorem int_hex_of_neg {n : Int} (hn : n < 0) (width : Nat) : int decimal 16 ('0' :: 'x' :: hex width n) = none := by
  rw [hex, if_pos hn]
  rfl

/-! ### White space and case -/

theorem strip_eq_self (ht : ∀ c ∈ t, isSpace c = false) : strip t = t := by
  have hl : t.dropWhile isSpace = t := by
    cases t with
    | nil => rfl
    | cons c cs => rw [List.dropWhile_cons, if_neg (Bool.eq_false_iff.1 (ht c (List.mem_cons_self ..)))]
  rw [strip, hl, List.rdropWhile_eq_self_iff]
  intro hne
  exact Bool.eq_false_iff.1 (ht _ (List.getLast_mem hne))

theorem upper_eq_self (ht : ∀ c ∈ t, c.toUpper = c) : upper t = t :=
  (List.map_congr_left ht).trans (List.map_id t)

/-- White space and small letters do not occur in a printed number, nor do the letters of the units. -/
theorem printed_of_mem_str {n : Int} : ∀ c ∈ str n, isSpace c = false ∧ c.toUpper = c ∧ c ∉ "KMGB".toList := by
  have hdigit : ∀ c ∈ Nat.toDigits 10 n.natAbs, isSpace c = false ∧ c.toUpper = c ∧ c ∉ "KMGB".toList := by
    intro c hc
    obtain ⟨d, hd, rfl⟩ := isDigitOf_of_mem_toDigits (by decide) n.natAbs c hc
    have hall : ∀ d < 10, isSpace (Nat.digitChar d) = false ∧ (Nat.digitChar d).toUpper = Nat.digitChar d ∧
        Nat.digitChar d ∉ "KMGB".toList := by decide
    exact hall d hd
  unfold str
  split
  · exact List.forall_mem_cons.2 ⟨by decide, hdigit⟩
  · exact hdigit

end
end Py

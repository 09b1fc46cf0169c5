import Mathlib.Data.List.Range
import Bk7258.Lib.Bytes

/-!
# `bk_psram_strcat`

PSRAM is written in words of four bytes. The function looks for the terminator in the word it stands at, fills that word
from there with the source and goes round again: a full word has no terminator, so the next word is searched, whatever
it held.
-/

namespace Bk7258
open Function

open Bytes

abbrev psramMaxStringLen : Nat := 1024
abbrev psramBytesPerWord : Nat := 4

def findNul (m : Mem) (addr : Nat) : Option Nat := (List.range 4).find? fun i => m (addr + i) = 0

/-- `for (; j < 4 && *pd != '\0'; j++) *(pb + j) = *pd++`, with `k` bytes left in the word: the memory, `j` and `pd` -/
def copyChars (addr : Nat) : Nat → Mem → Nat → Mem → Mem × Nat × Mem
  | 0, m, j, pd => (m, j, pd)
  | k + 1, m, j, pd =>
    if pd 0 = 0 then (m, j, pd) else copyChars addr k (update m (addr + j) (pd 0)) (j + 1) (drop pd 1)

/-- The loop, with the iterations that are left: the memory and the address returned, `none` for NULL -/
def strcatLoop : Nat → Mem → Nat → Mem → Mem × Option Nat
  | 0, m, _, _ => (m, none)
  | left + 1, m, addr, pd =>
    match findNul m addr with
    | none => strcatLoop left m (addr + psramBytesPerWord) pd
    | some i =>
      let r := copyChars addr (psramBytesPerWord - i) m i pd
      -- the end of the source, with room for the terminator in this word
      let m := if r.2.2 0 = 0 ∧ r.2.1 < psramBytesPerWord then update r.1 (addr + r.2.1) 0 else r.1
      if r.2.2 0 = 0 then (m, some addr) else strcatLoop left m addr r.2.2

/-- The source is read from a memory of its own, it does not overlap the destination. `iteration_count++ >
max_iterations` lets one iteration more than `max_iterations` through. -/
def bkPsramStrcat (isInit : Bool) (m : Mem) (startAddr : Option Nat) (dataBuf : Option Mem) : Mem × Option Nat :=
  if isInit = false then (m, none)
  else
    match startAddr, dataBuf with
    | some start, some pd =>
      if pd 0 = 0 then (m, some start)
      else strcatLoop (psramMaxStringLen / psramBytesPerWord + 1) m start pd
    | _, _ => (m, none)

theorem findNul_eq_some {m : Mem} {addr i : Nat} (hi : i < 4) (hnul : m (addr + i) = 0)
    (hne : ∀ j < i, m (addr + j) ≠ 0) :
    findNul m addr = some i := by
  refine List.find?_range_eq_some.2 ⟨by simpa using hnul, List.mem_range.2 hi, fun j hj => ?_⟩
  simpa using hne j hj

theorem findNul_eq_none {m : Mem} {addr : Nat} (hne : ∀ i < 4, m (addr + i) ≠ 0) : findNul m addr = none := by
  refine List.find?_eq_none.2 fun i hi => ?_
  simpa using hne i (List.mem_range.1 hi)

theorem strcatLoop_skip (pd : Mem) {m : Mem} {addr : Nat} (left w : Nat) (hne : ∀ i < 4 * w, m (addr + i) ≠ 0) :
    strcatLoop (w + left) m addr pd = strcatLoop left m (addr + 4 * w) pd := by
  induction w generalizing addr with
  | zero => rw [Nat.zero_add, Nat.mul_zero, Nat.add_zero]
  | succ w ih =>
    have hnone : findNul m addr = none := findNul_eq_none fun i hi => hne i (by omega)
    have hrest : ∀ i < 4 * w, m (addr + 4 + i) ≠ 0 := by
      intro i hi
      rw [Nat.add_assoc]
      exact hne (4 + i) (by omega)
    rw [Nat.succ_add, strcatLoop]
    simp only [hnone]
    rw [ih hrest]
    congr 1
    omega

theorem copyChars_put {pd : Mem} {l : Nat} (hpd : IsStr pd 0 l) (addr k : Nat) (m : Mem) (j : Nat) :
    copyChars addr k m j pd = (put (addr + j) (min k l) pd m, j + min k l, drop pd (min k l)) := by
  induction k generalizing m j pd l with
  | zero => rw [copyChars, Nat.zero_min, put_zero, drop_zero, Nat.add_zero]
  | succ k ih =>
    rw [copyChars]
    rcases Nat.eq_zero_or_pos l with rfl | hpos
    · rw [if_pos (hpd.head_eq_zero.2 rfl), Nat.min_zero, put_zero, drop_zero, Nat.add_zero]
    · have hone : update m (addr + j) (pd 0) = put (addr + j) 1 pd m := by
        have hput := update_put (addr + j) 0 pd m
        rwa [put_zero, Nat.add_zero] at hput
      rw [if_neg (mt hpd.head_eq_zero.1 (by omega)), ih (hpd.drop hpos), hone, ← Nat.add_assoc, put_drop, ← drop_add,
        show min (k + 1) l = 1 + min k (l - 1) by omega, Nat.add_assoc]

section
-- `n` bytes at `start`, to which the `l` bytes of `src` are appended
variable {m src : Mem} {start n l t : Nat} (hdst : IsStr m start n) (hsrc : IsStr src 0 l)
include hdst hsrc

omit hdst hsrc in
/-- The bytes in front of the terminator and those copied there -/
theorem put_ne {pd : Mem} (hpd : IsStr pd 0 l) {a k : Nat} (hk : k ≤ l) (hne : ∀ x, start ≤ x → x < a → m x ≠ 0)
    {x : Nat} (hx : start ≤ x) (hxa : x < a + k) : put a k pd m x ≠ 0 := by
  by_cases hnew : a ≤ x
  · have hsrc := hpd.ne (x - a) (by omega)
    rw [Nat.zero_add] at hsrc
    rwa [put_of_mem ⟨hnew, hxa⟩]
  · rw [put_of_notMem (by omega)]
    exact hne x hx (by omega)

theorem appended_ne (ht : t ≤ l) {x : Nat} (hx : x < n + t) : put (start + n) t src m (start + x) ≠ 0 := by
  refine put_ne hsrc ht (fun y hy hyn => ?_) (Nat.le_add_right start x) (by omega)
  have hold := hdst.ne (y - start) (by omega)
  rwa [Nat.add_sub_cancel' hy] at hold

omit hdst in
theorem copyChars_eq (m : Mem) (addr j k : Nat) (ht : t ≤ l) (hj : addr + j = start + n + t) :
    copyChars addr k (put (start + n) t src m) j (drop src t) =
      (put (start + n) (t + min k (l - t)) src m, j + min k (l - t), drop src (t + min k (l - t))) := by
  rw [copyChars_put (hsrc.drop ht), hj, put_drop, ← drop_add]

omit hdst in
theorem drop_eq_zero_iff (ht : t ≤ l) : drop src t 0 = 0 ↔ t = l := by
  rw [(hsrc.drop ht).head_eq_zero]
  omega

theorem strcatLoop_word {left : Nat} (ht : t ≤ l) (hnul : m (start + (n + t)) = 0) :
    strcatLoop (left + 1) (put (start + n) t src m) (start + 4 * ((n + t) / 4)) (drop src t) =
      if l - t ≤ 4 - (n + t) % 4 then
        (if (n + t) % 4 + (l - t) < 4 then update (put (start + n) l src m) (start + (n + l)) 0
          else put (start + n) l src m, some (start + 4 * ((n + t) / 4))) else
        strcatLoop left (put (start + n) (t + (4 - (n + t) % 4)) src m) (start + 4 * ((n + t) / 4))
          (drop src (t + (4 - (n + t) % 4))) := by
  have hfind : findNul (put (start + n) t src m) (start + 4 * ((n + t) / 4)) = some ((n + t) % 4) := by
    refine findNul_eq_some (by omega) ?_ fun j hj => ?_
    · rw [put_of_notMem (by omega), ← hnul]
      congr 1
      omega
    · rw [Nat.add_assoc]
      exact appended_ne hdst hsrc ht (by omega)
  have hcopy := copyChars_eq hsrc m (start + 4 * ((n + t) / 4)) ((n + t) % 4) (4 - (n + t) % 4) ht
    (show _ = start + n + t by omega)
  rw [strcatLoop]
  simp only [hfind, hcopy]
  by_cases hlast : l - t ≤ 4 - (n + t) % 4
  · rw [if_pos hlast, Nat.min_eq_right hlast, Nat.add_sub_cancel' ht]
    have h0 : drop src l 0 = 0 := (drop_eq_zero_iff hsrc (Nat.le_refl l)).2 rfl
    simp only [h0, true_and, if_true]
    rw [show start + 4 * ((n + t) / 4) + ((n + t) % 4 + (l - t)) = start + (n + l) by omega]
  · rw [if_neg hlast, Nat.min_eq_left (by omega)]
    have h0 : ¬drop src (t + (4 - (n + t) % 4)) 0 = 0 := by
      rw [drop_eq_zero_iff hsrc (by omega)]
      omega
    simp only [h0, false_and, if_false]

omit hdst in
theorem terminated (hend : (n + l) % 4 = 0 → m (start + (n + l)) = 0)
    {p : Prop} [Decidable p] (hp : ¬p → (n + l) % 4 = 0) :
    (if p then update (put (start + n) l src m) (start + (n + l)) 0 else put (start + n) l src m) =
      put (start + n) (l + 1) src m := by
  have hnul : src l = 0 := (drop_eq_zero_iff hsrc (Nat.le_refl l)).2 rfl
  rw [← update_put, hnul, ← Nat.add_assoc]
  by_cases h : p
  · rw [if_pos h]
  · rw [if_neg h]
    have hold : put (start + n) l src m (start + n + l) = 0 := by
      rw [put_of_notMem (by omega), Nat.add_assoc]
      exact hend (hp h)
    exact (update_eq_self_iff.2 hold.symm).symm

theorem strcatLoop_fill (hclear : ∀ q, q % 4 = 0 → n < q → q ≤ n + l → m (start + q) = 0) (d : Nat) {left : Nat}
    (ht : t < l) (hnul : m (start + (n + t)) = 0) (hd : (n + l - 1) / 4 = (n + t) / 4 + d) (hleft : 1 + 2 * d ≤ left) :
    strcatLoop left (put (start + n) t src m) (start + 4 * ((n + t) / 4)) (drop src t) =
      (put (start + n) (l + 1) src m, some (start + 4 * ((n + l - 1) / 4))) := by
  have hend : (n + l) % 4 = 0 → m (start + (n + l)) = 0 := fun h => hclear _ h (by omega) (Nat.le_refl _)
  induction d generalizing t left with
  | zero =>
    obtain ⟨left, rfl⟩ : ∃ k, left = k + 1 := ⟨left - 1, by omega⟩
    rw [strcatLoop_word hdst hsrc (Nat.le_of_lt ht) hnul, if_pos (by omega),
      terminated hsrc hend (by omega), show (n + l - 1) / 4 = (n + t) / 4 by omega]
  | succ d ih =>
    obtain ⟨left, rfl⟩ : ∃ k, left = k + 1 + 1 := ⟨left - 2, by omega⟩
    -- the word is filled, found to be full, and the next one starts with a 0
    have hnext : n + (t + (4 - (n + t) % 4)) = 4 * ((n + t) / 4 + 1) := by omega
    have hfull : findNul (put (start + n) (t + (4 - (n + t) % 4)) src m) (start + 4 * ((n + t) / 4)) = none := by
      refine findNul_eq_none fun i hi => ?_
      rw [Nat.add_assoc]
      exact appended_ne hdst hsrc (by omega) (by omega)
    rw [strcatLoop_word hdst hsrc (Nat.le_of_lt ht) hnul, if_neg (by omega), strcatLoop]
    simp only [hfull]
    have hih := @ih (t + (4 - (n + t) % 4)) left (by omega) (hclear _ (by omega) (by omega) (by omega)) (by omega)
      (by omega)
    rw [← hih]
    congr 1
    show start + 4 * ((n + t) / 4) + 4 = _
    omega

omit hdst hsrc in
/-- A call that gets to the end of the source appends all of it behind the bytes that are not 0, be they old ones. -/
theorem strcatLoop_ne {pd : Mem} (hpd : IsStr pd 0 l) {left addr a r : Nat} (hlow : start ≤ addr) (haddr : addr ≤ a)
    (hne : ∀ x, start ≤ x → x < a → m x ≠ 0) (hret : (strcatLoop left m addr pd).2 = some r) {x : Nat} (hx : start ≤ x)
    (hxa : x < a + l) : (strcatLoop left m addr pd).1 x ≠ 0 := by
  induction left generalizing m pd l addr a with
  | zero => cases hret
  | succ left ih =>
    rw [strcatLoop] at hret ⊢
    cases hfind : findNul m addr with
    | none =>
      simp only [hfind] at hret ⊢
      refine ih hpd (a := max a (addr + 4)) (by omega) (Nat.le_max_right ..) (fun y hy hya => ?_) hret (by omega)
      by_cases hlt : y < a
      · exact hne y hy hlt
      · have hword := List.find?_eq_none.1 hfind (y - addr) (List.mem_range.2 (by omega))
        rw [Nat.add_sub_cancel' (by omega)] at hword
        simpa using hword
    | some i =>
      obtain ⟨hnul, hi, hbefore⟩ := List.find?_range_eq_some.1 hfind
      have hi : i < 4 := List.mem_range.1 hi
      have hnul : m (addr + i) = 0 := by simpa using hnul
      have hai : a ≤ addr + i := Nat.le_of_not_lt fun h => hne (addr + i) (by omega) h hnul
      have hword : ∀ y, start ≤ y → y < addr + i → m y ≠ 0 := by
        intro y hy hyi
        by_cases hlt : y < addr
        · exact hne y hy (by omega)
        · have hy' := hbefore (y - addr) (by omega)
          rw [Nat.add_sub_cancel' (by omega)] at hy'
          simpa using hy'
      have hcopied {y : Nat} (hy : start ≤ y) := put_ne hpd (Nat.min_le_right (4 - i) l) hword hy
      simp only [hfind, copyChars_put hpd, psramBytesPerWord] at hret ⊢
      by_cases hend : l ≤ 4 - i
      · have h0 : drop pd (min (4 - i) l) 0 = 0 := by
          rw [(hpd.drop (Nat.min_le_right ..)).head_eq_zero]
          omega
        simp only [h0, true_and, if_true] at hret ⊢
        have hput := hcopied hx (by omega)
        split
        · rwa [update_of_ne (by omega)]
        · exact hput
      · have h0 : drop pd (min (4 - i) l) 0 ≠ 0 := by
          rw [ne_eq, (hpd.drop (Nat.min_le_right ..)).head_eq_zero]
          omega
        simp only [h0, false_and, if_false] at hret ⊢
        exact ih (hpd.drop (Nat.min_le_right ..)) (a := addr + 4) hlow (by omega)
          (fun y hy hya => hcopied hy (by omega)) hret (by omega)

theorem strcatLoop_clear (d : Nat) {left r : Nat} (ht : t < l) (hnul : m (start + (n + t)) = 0)
    (hd : (n + l - 1) / 4 = (n + t) / 4 + d)
    (hret : (strcatLoop left (put (start + n) t src m) (start + 4 * ((n + t) / 4)) (drop src t)).2 = some r)
    (hend : (strcatLoop left (put (start + n) t src m) (start + 4 * ((n + t) / 4)) (drop src t)).1
      (start + (n + l)) = 0) :
    (∀ q, q % 4 = 0 → n + t < q → q ≤ n + l → m (start + q) = 0) ∧ 1 + 2 * d ≤ left := by
  induction d generalizing t left with
  | zero =>
    cases left with
    | zero => cases hret
    | succ left =>
      rw [strcatLoop_word hdst hsrc (Nat.le_of_lt ht) hnul, if_pos (by omega)] at hend
      refine ⟨fun q hq hlo hhi => ?_, by omega⟩
      obtain rfl : q = n + l := by omega
      rw [if_neg (by omega)] at hend
      have hold : put (start + n) l src m (start + (n + l)) = 0 := hend
      rwa [put_of_notMem (by omega)] at hold
  | succ d ih =>
    cases left with
    | zero => cases hret
    | succ left =>
      rw [strcatLoop_word hdst hsrc (Nat.le_of_lt ht) hnul, if_neg (by omega)] at hret hend
      cases left with
      | zero => cases hret
      | succ left =>
        have hne {x : Nat} (hx : x < n + (t + (4 - (n + t) % 4))) :=
          appended_ne hdst hsrc (t := t + (4 - (n + t) % 4)) (by omega) hx
        have hfull : findNul (put (start + n) (t + (4 - (n + t) % 4)) src m) (start + 4 * ((n + t) / 4)) = none :=
          findNul_eq_none fun i hi => by
            rw [Nat.add_assoc]
            exact hne (by omega)
        have hnext : start + 4 * ((n + t) / 4) + psramBytesPerWord =
            start + 4 * ((n + (t + (4 - (n + t) % 4))) / 4) := by
          show start + 4 * ((n + t) / 4) + 4 = _
          omega
        rw [strcatLoop] at hret hend
        simp only [hfull, hnext] at hret hend
        by_cases hclear : m (start + (n + (t + (4 - (n + t) % 4)))) = 0
        · obtain ⟨hrest, hleft⟩ := ih (by omega) hclear (by omega) hret hend
          refine ⟨fun q hq hlo hhi => ?_, by omega⟩
          by_cases hfirst : q = n + (t + (4 - (n + t) % 4))
          · rw [hfirst]
            exact hclear
          · exact hrest q hq (by omega) hhi
        · -- the old byte is kept, so the string gets longer than it should
          refine absurd hend (strcatLoop_ne (hsrc.drop (by omega)) (a := start + (n + (t + (4 - (n + t) % 4))) + 1)
            (show start ≤ _ by omega) (by omega) (fun x hx hxa => ?_) hret (by omega) (by omega))
          by_cases hlast : x = start + (n + (t + (4 - (n + t) % 4)))
          · rw [hlast, put_of_notMem (by omega)]
            exact hclear
          · have hin := hne (show x - start < _ by omega)
            rwa [Nat.add_sub_cancel' hx] at hin

end

/-- The two strings joined at `start`, with the terminator of the second -/
structure Joined (m src : Mem) (start n l : Nat) (m' : Mem) : Prop where
  first : ∀ i < n, m' (start + i) = m (start + i)
  second : ∀ i ≤ l, m' (start + n + i) = src i

/-- Each word that the joined string enters after the old terminator starts with a 0, and the iterations are enough. -/
def StrcatClear (m : Mem) (start n l : Nat) : Prop :=
  (∀ q, q % 4 = 0 → n < q → q ≤ n + l → m (start + q) = 0) ∧ n / 4 + 2 * ((n + l - 1) / 4 - n / 4) + 1 ≤ 257

/-- A call that does not give up joins the strings if and only if the words behind the first one are clear; then nothing
else is changed. -/
theorem psram_strcat_joins (m src : Mem) (start n l : Nat) (hdst : IsStr m start n) (hsrc : IsStr src 0 l)
    (hlen : n + l < psramMaxStringLen) :
    let r := bkPsramStrcat true m (some start) (some src)
    (r.2 ≠ none ∧ Joined m src start n l r.1 ↔ l = 0 ∨ StrcatClear m start n l) ∧
      (l = 0 ∨ StrcatClear m start n l → r.1 = put (start + n) (l + 1) src m) := by
  have hzero : src 0 = 0 ↔ l = 0 := hsrc.head_eq_zero
  have hjoined : Joined m src start n l (put (start + n) (l + 1) src m) := by
    refine ⟨fun i hi => put_of_notMem (by omega), fun i hi => ?_⟩
    rw [put_of_mem (by omega), Nat.add_sub_cancel_left]
  unfold bkPsramStrcat
  simp only [Bool.true_eq_false, if_false]
  rcases Nat.eq_zero_or_pos l with rfl | hpos
  · have hput : m = put (start + n) (0 + 1) src m := by
      rw [← update_put, put_zero, hzero.2 rfl]
      exact (update_eq_self_iff.2 hdst.nul.symm).symm
    rw [if_pos (hzero.2 rfl), ← hput]
    rw [← hput] at hjoined
    exact ⟨iff_of_true ⟨Option.some_ne_none _, hjoined⟩ (.inl rfl), fun _ => rfl⟩
  rw [if_neg (mt hzero.1 (by omega))]
  have hlen : n + l < 1024 := hlen
  have hskip := strcatLoop_skip src (257 - n / 4) (n / 4) fun i (hi : i < _) => hdst.ne i (by omega)
  rw [Nat.add_sub_cancel' (by omega)] at hskip
  have hrun : strcatLoop (psramMaxStringLen / psramBytesPerWord + 1) m start src =
      strcatLoop (257 - n / 4) (put (start + n) 0 src m) (start + 4 * ((n + 0) / 4)) (drop src 0) := by
    rw [put_zero, drop_zero]
    exact hskip
  have hd : (n + l - 1) / 4 = (n + 0) / 4 + ((n + l - 1) / 4 - n / 4) := by
    rw [Nat.add_zero]
    omega
  have hfill (h : StrcatClear m start n l) := strcatLoop_fill hdst hsrc h.1 _ hpos hdst.nul hd
    (show _ ≤ 257 - n / 4 by have := h.2; omega)
  rw [hrun]
  refine ⟨⟨fun ⟨hret, hj⟩ => .inr ?_, fun h => ?_⟩, fun h => ?_⟩
  · obtain ⟨r, hret⟩ := Option.ne_none_iff_exists'.1 hret
    have hend := hj.second l (Nat.le_refl l)
    have hnul := hsrc.nul
    rw [Nat.zero_add] at hnul
    rw [hnul, Nat.add_assoc] at hend
    obtain ⟨hclear, hiter⟩ := strcatLoop_clear hdst hsrc _ hpos hdst.nul hd hret hend
    exact ⟨hclear, by omega⟩
  · rw [hfill (h.resolve_left (by omega))]
    exact ⟨Option.some_ne_none _, hjoined⟩
  · rw [hfill (h.resolve_left (by omega))]

def memOf (bytes : List UInt8) : Mem := fun x => bytes.getD x 0

-- "abcde" and "fgh": the terminator is put at the start of the third word, which held a 0
theorem psram_strcat_joins_abc :
    (bkPsramStrcat true (memOf [97, 98, 99, 100, 101]) (some 0) (some (memOf [102, 103, 104]))).1 =
      put 5 4 (memOf [102, 103, 104]) (memOf [97, 98, 99, 100, 101]) :=
  (psram_strcat_joins _ _ 0 5 3 ⟨by decide, rfl⟩ ⟨by decide, rfl⟩ (by decide)).2
    (.inr ⟨fun q _ hlo hhi => by
      obtain rfl | rfl | rfl : q = 6 ∨ q = 7 ∨ q = 8 := by omega
      all_goals rfl, by decide⟩)

/-- "abc" and "d" are left without a terminator; "ab" and "cdef" become "abcdxef". -/
theorem psram_strcat_old_bytes :
    (IsStr (memOf [97, 98, 99, 0, 120]) 0 3 ∧ IsStr (memOf [100]) 0 1 ∧
      (bkPsramStrcat true (memOf [97, 98, 99, 0, 120]) (some 0) (some (memOf [100]))).1 4 = 120) ∧
    IsStr (memOf [97, 98, 0, 0, 120]) 0 2 ∧ IsStr (memOf [99, 100, 101, 102]) 0 4 ∧
      (List.range 8).map (bkPsramStrcat true (memOf [97, 98, 0, 0, 120]) (some 0)
        (some (memOf [99, 100, 101, 102]))).1 =
        [97, 98, 99, 100, 120, 101, 102, 0] :=
  ⟨⟨⟨by decide, rfl⟩, ⟨by decide, rfl⟩, by decide +kernel⟩, ⟨by decide, rfl⟩, ⟨by decide, rfl⟩, by decide +kernel⟩

end Bk7258

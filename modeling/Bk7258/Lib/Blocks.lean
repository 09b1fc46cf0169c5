import Mathlib.Algebra.Group.Nat.Defs
import Mathlib.Data.List.Basic

/-!
# Blocks of a list

A list cut into pieces of one length, the last one perhaps shorter, and lists put together from pieces of one length.
Cutting undoes putting together (`split_flatten`), and the other way round (`flatten_split`). `pad` fills the last
piece.
-/

namespace Blocks

variable {α β : Type} {n m : Nat} {l a b : List α} {bs : List (List α)}

def split (n : Nat) (l : List α) : List (List α) :=
  (List.range ((l.length + n - 1) / n)).map fun i => (l.drop (i * n)).take n

def pad (n : Nat) (x : α) (l : List α) : List α := l ++ List.replicate ((n - l.length % n) % n) x

theorem induction {P : List α → Prop} (hn : 0 < n) (nil : P []) (step : ∀ l, l ≠ [] → P (l.drop n) → P l) (l : List α) :
    P l := by
  induction h : l.length using Nat.strongRecOn generalizing l with
  | _ k ih =>
    by_cases hl : l = []
    · exact hl ▸ nil
    · have hpos : 0 < l.length := List.length_pos_iff.2 hl
      refine step l hl (ih _ ?_ (l.drop n) rfl)
      rw [List.length_drop]
      omega

theorem split_nil (hn : 0 < n) : split n ([] : List α) = [] := by
  have hzero : (0 + n - 1) / n = 0 := Nat.div_eq_of_lt (by omega)
  rw [split, List.length_nil, hzero]
  rfl

theorem split_cons (hn : 0 < n) (hl : l ≠ []) : split n l = l.take n :: split n (l.drop n) := by
  have hpos : 0 < l.length := List.length_pos_iff.2 hl
  have hcount : (l.length + n - 1) / n = ((l.drop n).length + n - 1) / n + 1 := by
    rw [List.length_drop]
    by_cases hle : l.length ≤ n
    · have h1 : (l.length - n + n - 1) / n = 0 := Nat.div_eq_of_lt (by omega)
      have h2 : (l.length + n - 1) / n = 1 := Nat.div_eq_of_lt_le (by omega) (by omega)
      rw [h1, h2]
    · have h3 : l.length + n - 1 = l.length - n + n - 1 + n := by omega
      rw [h3, Nat.add_div_right _ hn]
  rw [split, hcount, List.range_succ_eq_map, List.map_cons, List.map_map, Nat.zero_mul, List.drop_zero]
  refine congrArg _ (List.map_congr_left fun i _ => ?_)
  rw [Function.comp_apply, Nat.succ_mul, List.drop_drop, Nat.add_comm]

theorem flatten_split (hn : 0 < n) (l : List α) : (split n l).flatten = l := by
  induction l using induction hn with
  | nil => rw [split_nil hn, List.flatten_nil]
  | step l hl ih => rw [split_cons hn hl, List.flatten_cons, ih, List.take_append_drop]

theorem split_append (hn : 0 < n) (ha : n ∣ a.length) : split n (a ++ b) = split n a ++ split n b := by
  induction a using induction hn with
  | nil => rw [split_nil hn, List.nil_append, List.nil_append]
  | step a hne ih =>
    have hle : n ≤ a.length := Nat.le_of_dvd (List.length_pos_iff.2 hne) ha
    have hdrop : n ∣ (a.drop n).length := by
      rw [List.length_drop]
      exact Nat.dvd_sub ha (Nat.dvd_refl n)
    rw [split_cons hn (by simp [hne]), split_cons hn hne, List.take_append_of_le_length hle,
      List.drop_append_of_le_length hle, ih hdrop, List.cons_append]

theorem split_flatten (hn : 0 < n) (h : ∀ b ∈ bs, b.length = n) : split n bs.flatten = bs := by
  induction bs with
  | nil => exact split_nil hn
  | cons b bs ih =>
    obtain ⟨hb, hbs⟩ := List.forall_mem_cons.1 h
    have hone : split n b = [b] := by
      have hne : b ≠ [] := List.ne_nil_of_length_pos (by omega)
      rw [split_cons hn hne, List.take_of_length_le (by omega), List.drop_eq_nil_of_le (by omega), split_nil hn]
    rw [List.flatten_cons, split_append hn ⟨1, by omega⟩, hone, ih hbs, List.singleton_append]

theorem length_of_mem_split (hn : 0 < n) (hl : n ∣ l.length) : ∀ b ∈ split n l, b.length = n := by
  induction l using induction hn with
  | nil =>
    rw [split_nil hn]
    exact fun _ hb => absurd hb List.not_mem_nil
  | step l hne ih =>
    have hle : n ≤ l.length := Nat.le_of_dvd (List.length_pos_iff.2 hne) hl
    have hdrop : n ∣ (l.drop n).length := by
      rw [List.length_drop]
      exact Nat.dvd_sub hl (Nat.dvd_refl n)
    rw [split_cons hn hne]
    exact List.forall_mem_cons.2 ⟨List.length_take_of_le hle, ih hdrop⟩

theorem length_split (n : Nat) (l : List α) : (split n l).length = (l.length + n - 1) / n := by
  rw [split, List.length_map, List.length_range]

theorem split_map_flatten (hn : 0 < n) (hm : 0 < m) (hl : n ∣ l.length) {f : List α → List β}
    (hf : ∀ b, b.length = n → (f b).length = m) : split m ((split n l).map f).flatten = (split n l).map f := by
  refine split_flatten hm fun c hc => ?_
  obtain ⟨b, hb, rfl⟩ := List.mem_map.1 hc
  exact hf b (length_of_mem_split hn hl b hb)

/-! ### Padding -/

theorem length_pad (hn : 0 < n) (x : α) (l : List α) : (pad n x l).length = (l.length + n - 1) / n * n := by
  rw [pad, List.length_append, List.length_replicate]
  have hdiv := Nat.div_add_mod l.length n
  have hlt := Nat.mod_lt l.length hn
  rcases Nat.eq_zero_or_pos (l.length % n) with hzero | hpos
  · have hq : (l.length + n - 1) / n = l.length / n :=
      Nat.div_eq_of_lt_le (by rw [Nat.mul_comm]; omega) (by rw [Nat.succ_mul, Nat.mul_comm]; omega)
    rw [hq, hzero, Nat.sub_zero, Nat.mod_self, Nat.mul_comm]
    omega
  · have hq : (l.length + n - 1) / n = l.length / n + 1 :=
      Nat.div_eq_of_lt_le (by rw [Nat.succ_mul, Nat.mul_comm]; omega)
        (by rw [Nat.succ_mul, Nat.succ_mul, Nat.mul_comm]; omega)
    rw [hq, Nat.mod_eq_of_lt (by omega : n - l.length % n < n), Nat.succ_mul, Nat.mul_comm (l.length / n)]
    omega

theorem dvd_length_pad (hn : 0 < n) (x : α) (l : List α) : n ∣ (pad n x l).length := by
  rw [length_pad hn]
  exact Nat.dvd_mul_left n _

theorem pad_of_dvd (x : α) (h : n ∣ l.length) : pad n x l = l := by
  rw [pad, Nat.mod_eq_zero_of_dvd h, Nat.sub_zero, Nat.mod_self, List.replicate_zero, List.append_nil]

end Blocks

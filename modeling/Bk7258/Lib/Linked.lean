import Mathlib.Logic.Function.Basic

/-!
# Linked lists

Cells with a `next` pointer each. `Chain next p l` says that the cells `l` are met from `p` on, in that order, until the
chain ends. The list is determined by the pointers, so no cell is met twice, and a cell that is not met may be changed.
-/

namespace Linked
open Function

variable {α : Type}

def Chain (next : α → Option α) : Option α → List α → Prop
  | p, [] => p = none
  | p, a :: l => p = some a ∧ Chain next (next a) l

variable {next : α → Option α} {p : Option α} {a b : α} {l m : List α}

theorem Chain.unique (hl : Chain next p l) (hm : Chain next p m) : l = m := by
  induction l generalizing p m with
  | nil =>
    cases hl
    cases m with
    | nil => rfl
    | cons b m => cases hm.1
  | cons a l ih =>
    obtain ⟨rfl, hl⟩ := hl
    cases m with
    | nil => cases hm
    | cons b m =>
      obtain ⟨hab, hm⟩ := hm
      cases hab
      rw [ih hl hm]

theorem Chain.mem (h : Chain next p l) (ha : a ∈ l) : ∃ m, m.length < l.length ∧ Chain next (next a) m := by
  induction l generalizing p with
  | nil => cases ha
  | cons b l ih =>
    obtain ⟨rfl, h⟩ := h
    rcases List.mem_cons.1 ha with rfl | ha
    · exact ⟨l, Nat.lt_succ_self _, h⟩
    · obtain ⟨m, hm, hc⟩ := ih h ha
      exact ⟨m, Nat.lt_succ_of_lt hm, hc⟩

theorem Chain.nodup (h : Chain next p l) : l.Nodup := by
  induction l generalizing p with
  | nil => exact .nil
  | cons a l ih =>
    refine List.nodup_cons.2 ⟨fun ha => ?_, ih h.2⟩
    obtain ⟨m, hm, hc⟩ := h.2.mem ha
    exact absurd (h.2.unique hc ▸ hm) (Nat.lt_irrefl _)

theorem Chain.snoc [DecidableEq α] (h : Chain next p (l ++ [a])) (hb : b ∉ l ++ [a]) :
    Chain (update (update next a (some b)) b none) p (l ++ [a] ++ [b]) := by
  induction l generalizing p with
  | nil =>
    have hne : a ≠ b := fun he => hb (by rw [he]; exact List.mem_singleton_self b)
    refine ⟨h.1, ?_, ?_⟩
    · rw [update_of_ne hne, update_self]
    · rw [update_self]
      rfl
  | cons c l ih =>
    have hnd := (List.nodup_cons.1 h.nodup).1
    rw [List.cons_append, List.mem_cons, not_or] at hb
    have hca : c ≠ a := fun he => hnd (by rw [he]; exact List.mem_append_right _ (List.mem_singleton_self a))
    refine ⟨h.1, ?_⟩
    rw [update_of_ne (Ne.symm hb.1), update_of_ne hca]
    exact ih h.2 hb.2

end Linked

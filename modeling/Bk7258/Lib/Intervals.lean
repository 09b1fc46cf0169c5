import Mathlib.Data.Prod.Lex
import Mathlib.Data.List.Sort

/-!
# Overlap by sorting

Half-open intervals `(start, stop)` are sorted and only neighbours are compared. That no neighbour starts before its
predecessor stops is enough for all pairs, empty and reversed intervals included: the starts are sorted.
-/

namespace Intervals

variable {α : Type} [LinearOrder α]

def adjacentOverlap : List (α × α) → Bool
  | a :: b :: l => b.1 < a.2 || adjacentOverlap (b :: l)
  | _ => false

def overlaps (l : List (α × α)) : Bool :=
  adjacentOverlap (l.insertionSort fun a b => toLex a ≤ toLex b)

def Apart (a b : α × α) : Prop := ∀ x, a.1 ≤ x → x < a.2 → b.1 ≤ x → x < b.2 → False

variable {a b : α × α}

theorem Apart.symm (h : Apart a b) : Apart b a := fun x h₁ h₂ h₃ h₄ => h x h₃ h₄ h₁ h₂

theorem Apart.of_le (h : a.2 ≤ b.1) : Apart a b := fun _ _ ha hb _ => (ha.trans_le h).not_ge hb

theorem fst_le_of_toLex_le (h : toLex a ≤ toLex b) : a.1 ≤ b.1 := by
  rcases Prod.Lex.le_iff.1 h with h | h
  · exact h.le
  · exact h.1.le

theorem pairwise_of_adjacent : ∀ {l : List (α × α)}, l.Pairwise (fun a b => a.1 ≤ b.1) → adjacentOverlap l = false →
    l.Pairwise fun a b => a.2 ≤ b.1
  | [], _, _ => .nil
  | [a], _, _ => List.pairwise_singleton ..
  | a :: b :: l, hs, h => by
    obtain ⟨hab, htail⟩ := Bool.or_eq_false_iff.1 h
    have hle : a.2 ≤ b.1 := not_lt.1 (of_decide_eq_false hab)
    have hs' := (List.pairwise_cons.1 hs).2
    refine List.pairwise_cons.2 ⟨?_, pairwise_of_adjacent hs' htail⟩
    intro c hc
    rcases List.mem_cons.1 hc with rfl | hc
    · exact hle
    · exact hle.trans ((List.pairwise_cons.1 hs').1 c hc)

variable {l : List (α × α)}

theorem pairwise_apart (h : overlaps l = false) : l.Pairwise Apart := by
  have hsort := List.pairwise_insertionSort (fun a b : α × α => toLex a ≤ toLex b) l
  have hstop := pairwise_of_adjacent (hsort.imp fst_le_of_toLex_le) h
  exact ((List.perm_insertionSort _ l).pairwise_iff Apart.symm).1 (hstop.imp Apart.of_le)

theorem adjacentOverlap_of_pairwise : ∀ {l : List (α × α)}, l.Pairwise (fun a b => a.2 ≤ b.1) →
    adjacentOverlap l = false
  | [], _ => rfl
  | [_], _ => rfl
  | a :: b :: l, h => by
    obtain ⟨ha, htail⟩ := List.pairwise_cons.1 h
    have hle : ¬b.1 < a.2 := not_lt.2 (ha b (List.mem_cons_self ..))
    exact Bool.or_eq_false_iff.2 ⟨decide_eq_false hle, adjacentOverlap_of_pairwise htail⟩

theorem Apart.stop_le (h : Apart a b) (hb : b.1 < b.2) (hle : a.1 ≤ b.1) : a.2 ≤ b.1 :=
  not_lt.1 fun hlt => h b.1 hle hlt le_rfl hb

theorem overlaps_of_pairwise_apart (hne : ∀ a ∈ l, a.1 < a.2) (h : l.Pairwise Apart) : overlaps l = false := by
  have hperm := List.perm_insertionSort (fun a b : α × α => toLex a ≤ toLex b) l
  have hsort := List.pairwise_insertionSort (fun a b : α × α => toLex a ≤ toLex b) l
  have hapart := (hperm.pairwise_iff Apart.symm).2 h
  refine adjacentOverlap_of_pairwise ((hapart.and hsort).imp_of_mem ?_)
  intro a b _ hb hab
  exact hab.1.stop_le (hne b (hperm.mem_iff.1 hb)) (fst_le_of_toLex_le hab.2)

theorem pairwise_stop_le_start_of_sorted {l' : List (α × α)} (h : overlaps l = false) (hp : l'.Perm l)
    (hs : l'.Pairwise fun a b => toLex a ≤ toLex b) : l'.Pairwise fun a b => a.2 ≤ b.1 := by
  have hsort := List.pairwise_insertionSort (fun a b : α × α => toLex a ≤ toLex b) l
  have he : l' = l.insertionSort fun a b => toLex a ≤ toLex b :=
    (hp.trans (List.perm_insertionSort _ l).symm).eq_of_pairwise
      (fun _ _ _ _ hab hba => toLex.injective (le_antisymm hab hba)) hs hsort
  exact he ▸ pairwise_of_adjacent (hsort.imp fst_le_of_toLex_le) h

/-! ### Tilings -/

/-- From `s` on, every interval starts where the one before stops; the last stops at `e`. -/
def Tiles (s : α) : List (α × α) → α → Prop
  | [], e => s = e
  | i :: l, e => i.1 = s ∧ Tiles i.2 l e

instance Tiles.decidable : ∀ (s : α) (l : List (α × α)) (e : α), Decidable (Tiles s l e)
  | s, [], e => inferInstanceAs (Decidable (s = e))
  | s, i :: l, e =>
    have := Tiles.decidable i.2 l e
    inferInstanceAs (Decidable (i.1 = s ∧ Tiles i.2 l e))

namespace Tiles

theorem le : ∀ {l : List (α × α)} {s e : α}, (∀ i ∈ l, i.1 ≤ i.2) → Tiles s l e → s ≤ e
  | [], _, _, _, h => le_of_eq h
  | i :: _, _, _, hl, h => by
    obtain ⟨hi, hl⟩ := List.forall_mem_cons.1 hl
    exact h.1 ▸ hi.trans (le hl h.2)

theorem mem_iff : ∀ {l : List (α × α)} {s e x : α}, (∀ i ∈ l, i.1 ≤ i.2) → Tiles s l e →
    ((s ≤ x ∧ x < e) ↔ ∃ i ∈ l, i.1 ≤ x ∧ x < i.2)
  | [], s, e, x, _, h => by
    constructor
    · rintro ⟨hs, he⟩
      exact absurd (h ▸ hs : e ≤ x) he.not_ge
    · rintro ⟨i, hi, -⟩
      exact absurd hi List.not_mem_nil
  | i :: l, s, e, x, hl, h => by
    obtain ⟨hi, hl⟩ := List.forall_mem_cons.1 hl
    obtain ⟨rfl, htail⟩ := h
    rw [List.exists_mem_cons_iff, ← mem_iff hl htail]
    constructor
    · rintro ⟨hs, he⟩
      rcases lt_or_ge x i.2 with hx | hx
      · exact .inl ⟨hs, hx⟩
      · exact .inr ⟨hx, he⟩
    · rintro (⟨hs, hx⟩ | ⟨hx, he⟩)
      · exact ⟨hs, hx.trans_le (le hl htail)⟩
      · exact ⟨hi.trans hx, he⟩

theorem of_covers : ∀ {l : List (α × α)} {s e : α}, l.Pairwise (fun a b => a.2 ≤ b.1) → (∀ i ∈ l, i.1 < i.2) → s ≤ e →
    (∀ x, (s ≤ x ∧ x < e) ↔ ∃ i ∈ l, i.1 ≤ x ∧ x < i.2) → Tiles s l e
  | [], s, e, _, _, hse, hcov => by
    refine hse.eq_of_not_lt fun hlt => ?_
    obtain ⟨i, hi, -⟩ := (hcov s).1 ⟨le_rfl, hlt⟩
    exact absurd hi List.not_mem_nil
  | i :: l, s, e, hs, hl, _, hcov => by
    obtain ⟨hi, hl⟩ := List.forall_mem_cons.1 hl
    obtain ⟨hfirst, hs⟩ := List.pairwise_cons.1 hs
    obtain ⟨hsi, hie⟩ := (hcov i.1).2 ⟨i, List.mem_cons_self .., le_rfl, hi⟩
    have hstart : i.1 = s := by
      obtain ⟨j, hj, hjs, hsj⟩ := (hcov s).1 ⟨le_rfl, hsi.trans_lt hie⟩
      rcases List.mem_cons.1 hj with rfl | hj
      · exact le_antisymm hjs hsi
      · exact absurd (((hfirst j hj).trans hjs).trans hsi) hi.not_ge
    have hstop : i.2 ≤ e :=
      not_lt.1 fun hlt => lt_irrefl e ((hcov e).2 ⟨i, List.mem_cons_self .., hie.le, hlt⟩).2
    refine ⟨hstart, of_covers hs hl hstop fun x => ⟨?_, ?_⟩⟩
    · rintro ⟨hx, hxe⟩
      obtain ⟨j, hj, hjx⟩ := (hcov x).1 ⟨(hsi.trans hi.le).trans hx, hxe⟩
      rcases List.mem_cons.1 hj with rfl | hj
      · exact absurd hx hjx.2.not_ge
      · exact ⟨j, hj, hjx⟩
    · rintro ⟨j, hj, hjx⟩
      exact ⟨(hfirst j hj).trans hjx.1, ((hcov x).2 ⟨j, List.mem_cons_of_mem i hj, hjx⟩).2⟩

end Tiles
end Intervals

import Mathlib.Data.Nat.ModEq

/-!
# Messages passed by reference through rotating slots

A sender that owns `n` slots writes each message into the slot after the last one and queues the number of that slot. As
long as fewer than `n` numbers are queued at each write, what the queue refers to stays as it was written.
-/

namespace Slots

/-- The queue `q` holds the last `q.length` slots of a rotation over `n` slots that has come to `t`. -/
def Rotation (n t : Nat) (q : List Nat) : Prop :=
  ∃ c, q.length ≤ n ∧ t = (c + q.length) % n ∧ q = (List.range' (c + 1) q.length).map (· % n)

variable {n t i : Nat} {q : List Nat}

theorem Rotation.nil (h : t < n) : Rotation n t [] :=
  ⟨t, Nat.zero_le n, (Nat.mod_eq_of_lt h).symm, rfl⟩

theorem Rotation.fresh (h : Rotation n t q) (hq : q.length < n) : (t + 1) % n ∉ q := by
  obtain ⟨c, -, rfl, he⟩ := h
  generalize q.length = k at hq he ⊢
  subst he
  simp only [List.mem_map, List.mem_range'_1, Nat.mod_add_mod, not_exists, not_and]
  rintro j ⟨hj, hj'⟩ hm
  -- the numbers queued are less than `n` before the next one
  have hd : n ∣ c + k + 1 - j := (Nat.modEq_iff_dvd' (by omega)).1 hm
  have hle := Nat.le_of_dvd (by omega) hd
  omega

theorem Rotation.push (h : Rotation n t q) (hq : q.length < n) : Rotation n ((t + 1) % n) (q ++ [(t + 1) % n]) := by
  obtain ⟨c, -, rfl, he⟩ := h
  refine ⟨c, ?_, ?_, ?_⟩
  · simp only [List.length_append, List.length_singleton]; omega
  · simp only [List.length_append, List.length_singleton, Nat.mod_add_mod]; rfl
  · simp only [List.length_append, List.length_singleton, List.range'_concat, List.map_append, List.map_cons,
      List.map_nil, ← he, Nat.mod_add_mod]
    congr 3; omega

theorem Rotation.tail (h : Rotation n t (i :: q)) : Rotation n t q := by
  obtain ⟨c, hl, ht, he⟩ := h
  simp only [List.length_cons] at hl ht he
  rw [List.range'_succ, List.map_cons, List.cons.injEq] at he
  exact ⟨c + 1, by omega, by rw [ht]; congr 1; omega, he.2⟩

theorem map_update {α : Type} (buff : Nat → α) (v : α) (h : i ∉ q) : q.map (Function.update buff i v) = q.map buff := by
  refine List.map_congr_left fun j hj => Function.update_of_ne ?_ v buff
  rintro rfl
  exact h hj

end Slots

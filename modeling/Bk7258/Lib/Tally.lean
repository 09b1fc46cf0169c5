import Mathlib.Algebra.BigOperators.Group.Finset.Piecewise
import Mathlib.Algebra.Order.BigOperators.Group.Finset

/-!
# Tallies over processes

`tally f g` adds up `f t (g t)` over the processes `t` of a system whose local states are `g`. A step of one process
changes it by what that process contributes (`tally_update`).
-/

namespace Tally
open Function

section
variable {τ α : Type} [Fintype τ]

def tally (f : τ → α → Nat) (g : τ → α) : Nat := ∑ t, f t (g t)

variable {f : τ → α → Nat} {g : τ → α}

theorem le_tally (f : τ → α → Nat) (g : τ → α) (t : τ) : f t (g t) ≤ tally f g :=
  Finset.single_le_sum (f := fun u => f u (g u)) (fun _ _ => Nat.zero_le _) (Finset.mem_univ t)

theorem tally_congr {g' : τ → α} (h : ∀ t, f t (g' t) = f t (g t)) : tally f g' = tally f g :=
  Finset.sum_congr rfl fun t _ => h t

theorem tally_eq_zero (h : ∀ t, f t (g t) = 0) : tally f g = 0 :=
  Finset.sum_eq_zero fun t _ => h t

end

section
variable {τ α : Type} [Fintype τ] [DecidableEq τ] {f : τ → α → Nat} {g : τ → α} {t u : τ}

theorem tally_eq_add (f : τ → α → Nat) (g : τ → α) (t : τ) :
    tally f g = f t (g t) + ∑ u ∈ Finset.univ \ {t}, f u (g u) :=
  Finset.sum_eq_add_sum_sdiff_singleton_of_mem (Finset.mem_univ t) _

theorem tally_update (f : τ → α → Nat) (g : τ → α) (t : τ) (a : α) :
    tally f (update g t a) + f t (g t) = tally f g + f t a := by
  have hold := tally_eq_add f g t
  have hnew : tally f (update g t a) = f t a + ∑ u ∈ Finset.univ \ {t}, f u (g u) := by
    simp only [tally, apply_update f]
    exact Finset.sum_update_of_mem (Finset.mem_univ t) _ _
  omega

theorem add_le_tally (h : t ≠ u) : f t (g t) + f u (g u) ≤ tally f g := by
  have hold := tally_eq_add f g t
  have hle : f u (g u) ≤ ∑ u ∈ Finset.univ \ {t}, f u (g u) :=
    Finset.single_le_sum (f := fun u => f u (g u)) (fun _ _ => Nat.zero_le _) (by simp [h.symm])
  omega

end
end Tally

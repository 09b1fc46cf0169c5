import Mathlib.Logic.Function.Basic

/-!
# Runs of a labelled step function

A system is a step function `step : S → L → Option S`: the label carries every choice of the environment, so a run is a
list of labels. `Run step ok s t` says that `t` is reached from `s` by steps whose labels meet `ok` in the state they
are taken in; `exec` evaluates a list of labels and `Run.of_exec` turns such an evaluation into a run.
-/

namespace Lts
open Function

variable {S L : Type}

inductive Run (step : S → L → Option S) (ok : S → L → Prop) (s : S) : S → Prop
  | refl : Run step ok s s
  | tail {t u : S} {l : L} (h : Run step ok s t) (hok : ok t l) (hstep : step t l = some u) :
      Run step ok s u

namespace Run

variable {step : S → L → Option S} {ok ok' : S → L → Prop} {s t : S}

theorem invariant {I : S → Prop} (h : Run step ok s t) (h₀ : I s)
    (hs : ∀ t u l, Run step ok s t → I t → ok t l → step t l = some u → I u) : I t := by
  induction h with
  | refl => exact h₀
  | tail hr hok hstep ih => exact hs _ _ _ hr ih hok hstep

theorem mono (hok : ∀ t l, ok t l → ok' t l) (h : Run step ok s t) : Run step ok' s t := by
  induction h with
  | refl => exact .refl
  | tail _ h hstep ih => exact ih.tail (hok _ _ h) hstep

theorem trans {u : S} (h : Run step ok s t) (h' : Run step ok t u) : Run step ok s u := by
  induction h' with
  | refl => exact h
  | tail _ hok hstep ih => exact ih.tail hok hstep

variable (step ok) in
theorem exists_stuck (μ : S → Nat) (hμ : ∀ t u l, ok t l → step t l = some u → μ u < μ t) (s : S) :
    ∃ t, Run step ok s t ∧ ∀ l, ok t l → step t l = none := by
  induction hn : μ s using Nat.strongRecOn generalizing s with
  | _ n ih =>
    by_cases hs : ∃ l u, ok s l ∧ step s l = some u
    · obtain ⟨l, u, hok, hu⟩ := hs
      obtain ⟨t, hr, ht⟩ := ih (μ u) (hn ▸ hμ s u l hok hu) u rfl
      exact ⟨t, (Run.tail .refl hok hu).trans hr, ht⟩
    · refine ⟨s, .refl, fun l hok => Option.eq_none_iff_forall_ne_some.2 fun u hu => hs ⟨l, u, hok, hu⟩⟩

theorem refine {L' : Type} {step' : S → L' → Option S} {ok' : S → L' → Prop} (h : Run step ok s t)
    (hs : ∀ t u l, ok t l → step t l = some u → Run step' ok' t u) : Run step' ok' s t := by
  induction h with
  | refl => exact .refl
  | tail _ hok hstep ih => exact ih.trans (hs _ _ _ hok hstep)

end Run

/-- Takes the steps of `ls` in order; `none` when one of them is not enabled or not `ok`. -/
def exec (step : S → L → Option S) (ok : S → L → Prop) [∀ s l, Decidable (ok s l)] : S → List L → Option S
  | s, [] => some s
  | s, l :: ls => if ok s l then (step s l).bind fun t => exec step ok t ls else none

section
variable {step : S → L → Option S} {ok : S → L → Prop} [∀ s l, Decidable (ok s l)] {s : S} {ls : List L}

theorem exec_run {t : S} (h : exec step ok s ls = some t) : Run step ok s t := by
  induction ls generalizing s with
  | nil => cases h; exact .refl
  | cons l ls ih =>
    simp only [exec] at h
    split at h
    · rename_i hok
      obtain ⟨u, hu, h⟩ := Option.bind_eq_some_iff.1 h
      exact Run.trans (.tail .refl hok hu) (ih h)
    · cases h

theorem Run.of_exec {p : S → Prop} [DecidablePred p] (ls : List L)
    (h : (exec step ok s ls).any (fun t => decide (p t)) = true) : ∃ t, Run step ok s t ∧ p t := by
  cases he : exec step ok s ls with
  | none => rw [he] at h; cases h
  | some t => rw [he] at h; exact ⟨t, exec_run he, of_decide_eq_true h⟩

section
variable {p q : S → Prop} [DecidablePred p] (ls : List L)
  (h : (exec step ok s ls).any (fun t => decide (p t)) = true) (hq : ∀ t, Run step ok s t → p t → q t)
include h hq

theorem Run.of_exec_imp : ∃ t, Run step ok s t ∧ q t := by
  obtain ⟨t, hr, hp⟩ := Run.of_exec ls h
  exact ⟨t, hr, hq t hr hp⟩

theorem Run.of_exec_and : ∃ t, Run step ok s t ∧ p t ∧ q t :=
  Run.of_exec_imp ls h fun t hr hp => ⟨hp, hq t hr hp⟩

end

/-- A system and its image take the same steps, from states where the map commutes with each of them. -/
theorem exec_map {S' : Type} {step' : S' → L → Option S'} {h : S → S'} {I : S → Prop}
    (hstep : ∀ t l, I t → (step t l).map h = step' (h t) l ∧ ∀ u, step t l = some u → I u) (hI : I s) :
    (exec step (fun _ _ => True) s ls).map h = exec step' (fun _ _ => True) (h s) ls := by
  induction ls generalizing s with
  | nil => rfl
  | cons l ls ih =>
    obtain ⟨hmap, hinv⟩ := hstep s l hI
    simp only [exec, if_true, ← hmap]
    cases hs : step s l with
    | none => rfl
    | some t => exact ih (hinv t hs)

end
theorem update_cases {ι α : Type} [DecidableEq ι] {f : ι → α} {i j : ι} {x y : α} (h : update f i x j = y) :
    j = i ∧ x = y ∨ j ≠ i ∧ f j = y := by
  by_cases he : j = i
  · rw [he, update_self] at h
    exact .inl ⟨he, h⟩
  · rw [update_of_ne he] at h
    exact .inr ⟨he, h⟩

end Lts

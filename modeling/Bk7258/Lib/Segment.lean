import Mathlib.Data.List.Basic

/-!
# A list at a position of another

`At σ n xs`: the elements of `σ` from position `n` on begin with `xs`.
-/

namespace Segment

variable {α : Type} {σ xs ys : List α} {n : Nat}

def At (σ : List α) (n : Nat) (xs : List α) : Prop :=
  ∃ pre post, pre.length = n ∧ σ = pre ++ xs ++ post

theorem At.append_left (h : At σ n xs) (ys : List α) : At (ys ++ σ) (ys.length + n) xs := by
  obtain ⟨pre, post, rfl, rfl⟩ := h
  exact ⟨ys ++ pre, post, List.length_append, by simp only [List.append_assoc]⟩

/-! ### Behind padding -/

section
variable (x : α) (rest : List α)

theorem length_padded : (List.replicate n x ++ xs).length = n + xs.length := by
  rw [List.length_append, List.length_replicate]

theorem At.padded : At (List.replicate n x ++ xs ++ rest) n xs := ⟨_, rest, List.length_replicate, rfl⟩

theorem At.behind {m : Nat} (h : At rest m ys) : At (List.replicate n x ++ xs ++ rest) (n + xs.length + m) ys := by
  rw [← length_padded x]
  exact h.append_left _

theorem getElem?_padding {k : Nat} (hk : k < n) : (List.replicate n x ++ xs ++ rest)[k]? = some x := by
  rw [List.append_assoc, List.getElem?_append_left (by rwa [List.length_replicate]), List.getElem?_replicate,
    if_pos hk]

theorem getElem?_behind {k : Nat} (hk : n + xs.length ≤ k) :
    (List.replicate n x ++ xs ++ rest)[k]? = rest[k - (n + xs.length)]? := by
  rw [List.getElem?_append_right (by rwa [length_padded]), length_padded]

end

end Segment

import Mathlib.Data.List.Forall2

/-!
# Programs that raise

What it means for a computation in `Except` to succeed: a sequence succeeds part by part, a loop of checks on every
element, and a loop with a state keeps what its body keeps.
-/

namespace Raise

variable {ε α β : Type} {x : Except ε α} {f : α → Except ε β}

theorem bind_eq_ok {b : β} : x >>= f = .ok b ↔ ∃ a, x = .ok a ∧ f a = .ok b := by
  cases x with
  | error e => exact ⟨nofun, fun ⟨_, h, _⟩ => nomatch h⟩
  | ok a => exact ⟨fun h => ⟨a, rfl, h⟩, fun ⟨_, h, hb⟩ => Except.ok.inj h ▸ hb⟩

def orRaise (e : ε) : Option α → Except ε α
  | some a => .ok a
  | none => .error e

variable {a : α}

theorem orRaise_eq_ok {e : ε} {x : Option α} : orRaise e x = .ok a ↔ x = some a := by
  cases x with
  | none => exact ⟨nofun, nofun⟩
  | some b => exact ⟨fun h => congrArg some (Except.ok.inj h), fun h => congrArg Except.ok (Option.some.inj h)⟩

theorem mapError_eq_ok {ε' : Type} {f : ε → ε'} : x.mapError f = .ok a ↔ x = .ok a := by
  cases x with
  | error e => exact ⟨nofun, nofun⟩
  | ok b => exact ⟨fun h => congrArg Except.ok (Except.ok.inj h), fun h => congrArg Except.ok (Except.ok.inj h)⟩

theorem ok_bind (a : α) (f : α → Except ε β) : (.ok a >>= f) = f a := rfl

theorem error_bind (e : ε) (f : α → Except ε β) : (.error e >>= f) = .error e := rfl

instance decidableExistsOk (x : Except ε α) (p : α → Prop) [DecidablePred p] : Decidable (∃ a, x = .ok a ∧ p a) :=
  match x with
  | .error _ => .isFalse fun ⟨_, h, _⟩ => nomatch h
  | .ok a => decidable_of_iff (p a) ⟨fun h => ⟨a, rfl, h⟩, fun ⟨_, h, hp⟩ => Except.ok.inj h ▸ hp⟩

instance decidableExistsOkPair (x : Except ε (α × β)) (p : α → β → Prop) [∀ a b, Decidable (p a b)] :
    Decidable (∃ a b, x = .ok (a, b) ∧ p a b) :=
  decidable_of_iff (∃ r, x = .ok r ∧ p r.1 r.2) Prod.exists

instance decidableExistsOkMem (x : Except ε α) (l : α → List β) (p : α → β → Prop) [∀ a b, Decidable (p a b)] :
    Decidable (∃ a b, x = .ok a ∧ b ∈ l a ∧ p a b) :=
  decidable_of_iff (∃ a, x = .ok a ∧ ∃ b ∈ l a, p a b) (exists_congr fun _ => exists_and_left.symm)

variable {l : List α}

theorem forM_eq_ok {f : α → Except ε Unit} {u : Unit} : l.forM f = .ok u ↔ ∀ a ∈ l, f a = .ok () := by
  induction l with
  | nil => exact ⟨fun _ => nofun, fun _ => rfl⟩
  | cons a l ih =>
    rw [List.forM, bind_eq_ok, List.forall_mem_cons]
    constructor
    · rintro ⟨_, ha, hl⟩
      exact ⟨ha, ih.1 hl⟩
    · rintro ⟨ha, hl⟩
      exact ⟨(), ha, ih.2 hl⟩

variable {bs : List β}

theorem mapM_eq_ok (h : l.mapM f = .ok bs) : List.Forall₂ (fun a b => f a = .ok b) l bs := by
  induction l generalizing bs with
  | nil =>
    rw [List.mapM_nil] at h
    exact Except.ok.inj h ▸ .nil
  | cons a l ih =>
    rw [List.mapM_cons, bind_eq_ok] at h
    obtain ⟨b, ha, h⟩ := h
    obtain ⟨bs', hl, h⟩ := bind_eq_ok.1 h
    exact Except.ok.inj h ▸ .cons ha (ih hl)

theorem exists_of_forall₂ {R : α → β → Prop} (h : List.Forall₂ R l bs) : ∀ b ∈ bs, ∃ a, R a b := by
  induction h with
  | nil => exact fun _ hb => absurd hb List.not_mem_nil
  | cons ha _ ih => exact List.forall_mem_cons.2 ⟨⟨_, ha⟩, ih⟩

theorem mapM_eq_ok_map {g : α → β} (h : ∀ a ∈ l, f a = .ok (g a)) : l.mapM f = .ok (l.map g) := by
  induction l with
  | nil => rfl
  | cons a l ih =>
    obtain ⟨ha, hl⟩ := List.forall_mem_cons.1 h
    rw [List.mapM_cons, ha, ok_bind, ih hl, ok_bind]
    rfl

/-- A loop that makes a list succeeds exactly when every element passes the test of its body. -/
theorem mapM_iff {Q : α → Prop} {g : α → β} (hf : ∀ a b, f a = .ok b ↔ Q a ∧ b = g a) :
    l.mapM f = .ok bs ↔ (∀ a ∈ l, Q a) ∧ bs = l.map g := by
  constructor
  · intro h
    have hall := mapM_eq_ok h
    clear h
    induction hall with
    | nil => exact ⟨fun _ ha => absurd ha List.not_mem_nil, rfl⟩
    | cons ha _ ih =>
      obtain ⟨hQ, rfl⟩ := (hf _ _).1 ha
      exact ⟨List.forall_mem_cons.2 ⟨hQ, ih.1⟩, congrArg _ ih.2⟩
  · rintro ⟨hQ, rfl⟩
    exact mapM_eq_ok_map fun a ha => (hf _ _).2 ⟨hQ a ha, rfl⟩

theorem foldlM_invariant {f : β → α → Except ε β} {P : β → Prop} {s t : β}
    (hf : ∀ s a s', a ∈ l → P s → f s a = .ok s' → P s') (hs : P s) (h : l.foldlM f s = .ok t) : P t := by
  induction l generalizing s with
  | nil => exact Except.ok.inj h ▸ hs
  | cons a l ih =>
    rw [List.foldlM_cons, bind_eq_ok] at h
    obtain ⟨s', ha, hl⟩ := h
    exact ih (fun s a s' hm => hf s a s' (List.mem_cons_of_mem _ hm)) (hf s a s' (List.mem_cons_self ..) hs ha) hl

/-- What holds at the end of a loop exactly when it held at the start and every element passes a test that may look at
the elements before it. -/
theorem foldlM_prefix_iff {f : β → α → Except ε β} {I : List α → β → Prop} {P : β → Prop} {Q : List α → α → Prop}
    {s t : β} {before : List α}
    (hf : ∀ before s a s', a ∈ l → I before s → f s a = .ok s' → I (before ++ [a]) s' ∧ (P s' ↔ P s ∧ Q before a))
    (hs : I before s) (h : l.foldlM f s = .ok t) :
    P t ↔ P s ∧ ∀ i < l.length, ∀ a ∈ l[i]?, Q (before ++ l.take i) a := by
  induction l generalizing s before with
  | nil =>
    cases h
    exact ⟨fun hP => ⟨hP, fun i hi => absurd hi (Nat.not_lt_zero i)⟩, And.left⟩
  | cons a l ih =>
    rw [List.foldlM_cons, bind_eq_ok] at h
    obtain ⟨s', ha, hl⟩ := h
    obtain ⟨hs', hstep⟩ := hf before s a s' List.mem_cons_self hs ha
    rw [ih (fun before s a s' hm => hf before s a s' (List.mem_cons_of_mem _ hm)) hs' hl, hstep, and_assoc]
    refine and_congr_right fun _ => ⟨fun ⟨hq, hrest⟩ i hi b hb => ?_, fun hall => ⟨?_, fun i hi b hb => ?_⟩⟩
    · cases i with
      | zero =>
        cases hb
        rwa [List.take_zero, List.append_nil]
      | succ i =>
        have hnext := hrest i (Nat.lt_of_succ_lt_succ hi) b hb
        rwa [List.append_assoc] at hnext
    · have hfirst := hall 0 (Nat.succ_pos _) a rfl
      rwa [List.take_zero, List.append_nil] at hfirst
    · have hnext := hall (i + 1) (Nat.succ_lt_succ hi) b hb
      rwa [List.append_assoc]

/-- What holds at the end of a loop exactly when it held at the start and every element passes a test. -/
theorem foldlM_iff {f : β → α → Except ε β} {I P : β → Prop} {Q : α → Prop} {s t : β}
    (hf : ∀ s a s', I s → f s a = .ok s' → I s' ∧ (P s' ↔ P s ∧ Q a)) (hs : I s) (h : l.foldlM f s = .ok t) :
    P t ↔ P s ∧ ∀ a ∈ l, Q a := by
  induction l generalizing s with
  | nil =>
    cases h
    exact ⟨fun hP => ⟨hP, fun _ ha => absurd ha List.not_mem_nil⟩, And.left⟩
  | cons a l ih =>
    rw [List.foldlM_cons, bind_eq_ok] at h
    obtain ⟨s', ha, hl⟩ := h
    obtain ⟨hs', hstep⟩ := hf s a s' hs ha
    rw [ih hs' hl, hstep, and_assoc, List.forall_mem_cons]

end Raise

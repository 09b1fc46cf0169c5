import Mathlib.Data.List.Induction

/-!
# Counting open sessions

A log of the marks that sessions leave: each session enters at most once, and leaves at most once, after it entered
(`Paired`). A bounded counter that goes up at each `enter` and down at each `leave`, but not below 0 (`value`), is the
number of open sessions as long as that fits.
-/

namespace Sessions

inductive Mark
  | enter
  | leave
deriving DecidableEq, Repr

variable {ι : Type} [DecidableEq ι] {l : List (ι × Mark)} {d : ι} {N : Nat}

def enters {ι : Type} (l : List (ι × Mark)) : Nat := l.countP (·.2 = .enter)

def leaves {ι : Type} (l : List (ι × Mark)) : Nat := l.countP (·.2 = .leave)

def of (l : List (ι × Mark)) (d : ι) : List (ι × Mark) := l.filter (·.1 = d)

def without (l : List (ι × Mark)) (d : ι) : List (ι × Mark) := l.filter fun x => !decide (x.1 = d)

def Paired (l : List (ι × Mark)) : Prop := ∀ d, of l d <+: [(d, .enter), (d, .leave)]

def Bounded {ι : Type} (N : Nat) (l : List (ι × Mark)) : Prop := ∀ p, p <+: l → enters p < leaves p + N

def count {ι : Type} (N c : Nat) (e : ι × Mark) : Nat :=
  match e.2 with
  | .enter => (c + 1) % N
  | .leave => if 0 < c then c - 1 else c

def value {ι : Type} (N : Nat) (l : List (ι × Mark)) : Nat := l.foldl (count N) 0

theorem enters_eq (l : List (ι × Mark)) (d : ι) : enters l = enters (of l d) + enters (without l d) :=
  List.countP_eq_countP_filter_add l _ _

theorem leaves_eq (l : List (ι × Mark)) (d : ι) : leaves l = leaves (of l d) + leaves (without l d) :=
  List.countP_eq_countP_filter_add l _ _

theorem of_without_ne {d e : ι} (h : e ≠ d) : of (without l d) e = of l e := by
  rw [of, without, List.filter_filter]
  refine List.filter_congr fun x _ => ?_
  by_cases hx : x.1 = e
  · simp [hx, h]
  · simp [hx]

theorem of_without_self : of (without l d) d = [] := by
  simp [of, without, List.filter_filter]

theorem Paired.without (h : Paired l) (d : ι) : Paired (without l d) := by
  intro e
  by_cases he : e = d
  · subst he
    rw [of_without_self]
    exact List.nil_prefix
  · rw [of_without_ne he]
    exact h e

theorem Paired.of_cases (h : Paired l) (d : ι) :
    of l d = [] ∨ of l d = [(d, .enter)] ∨ of l d = [(d, .enter), (d, .leave)] := by
  rcases List.prefix_cons_iff.1 (h d) with h0 | ⟨t, ht, h1⟩
  · exact .inl h0
  · rcases List.prefix_cons_iff.1 h1 with rfl | ⟨u, rfl, h2⟩
    · exact .inr (.inl ht)
    · obtain rfl := List.prefix_nil.1 h2
      exact .inr (.inr ht)

theorem Paired.before {p : List (ι × Mark)} (h : Paired l) (hp : p <+: l) : Paired p := by
  intro d
  obtain ⟨t, rfl⟩ := hp
  refine List.IsPrefix.trans ?_ (h d)
  rw [of, of, List.filter_append]
  exact List.prefix_append _ _

theorem Paired.leaves_of_le (h : Paired l) (d : ι) : leaves (of l d) ≤ enters (of l d) := by
  rcases h.of_cases d with hc | hc | hc <;> rw [hc] <;> simp [leaves, enters]

theorem Paired.leaves_le (h : Paired l) : leaves l ≤ enters l := by
  -- take the marks of one session out of the log at a time
  induction hn : l.length using Nat.strongRecOn generalizing l with
  | ind n ih =>
    cases l with
    | nil => exact Nat.le_refl 0
    | cons e l =>
      have hlt : (Sessions.without (e :: l) e.1).length < n := by
        rw [← hn]
        simp only [Sessions.without, List.filter_cons, decide_true, Bool.not_true, Bool.false_eq_true, ↓reduceIte]
        exact Nat.lt_succ_of_le (List.length_filter_le _ _)
      have hle := ih _ hlt (h.without e.1) rfl
      rw [enters_eq _ e.1, leaves_eq _ e.1]
      have hone := h.leaves_of_le e.1
      omega

theorem Paired.leaves_lt (h : Paired l) (ho : of l d = [(d, .enter)]) : leaves l < enters l := by
  have hle := (h.without d).leaves_le
  rw [enters_eq l d, leaves_eq l d, ho]
  simp only [enters, leaves, List.countP_cons, List.countP_nil] at hle ⊢
  simp only [decide_true, reduceCtorEq, decide_false, Bool.false_eq_true, ↓reduceIte]
  omega

theorem Bounded.without (h : Bounded N l) (hp : Paired l) (d : ι) : Bounded N (without l d) := by
  intro p' hp'
  obtain ⟨p, hpre, rfl⟩ := List.prefix_filter_iff.1 hp'
  have hlt := h p hpre
  have hone := (hp.before hpre).leaves_of_le d
  rw [enters_eq p d, leaves_eq p d] at hlt
  show enters (Sessions.without p d) < leaves (Sessions.without p d) + N
  omega

omit [DecidableEq ι] in
theorem value_snoc (e : ι × Mark) : value N (l ++ [e]) = count N (value N l) e := by
  simp [value]

theorem Paired.value_add_leaves (h : Paired l) (hb : Bounded N l) : value N l + leaves l = enters l := by
  induction l using List.reverseRecOn with
  | nil => rfl
  | append_singleton l e ih =>
    have hpre : l <+: l ++ [e] := List.prefix_append _ _
    have ih := ih (h.before hpre) fun p hp => hb p (hp.trans hpre)
    have hlt := hb _ (List.prefix_refl _)
    rw [value_snoc]
    obtain ⟨d, m⟩ := e
    cases m with
    | enter =>
      have he : enters (l ++ [(d, Mark.enter)]) = enters l + 1 := by simp [enters, List.countP_append]
      have hl : leaves (l ++ [(d, Mark.enter)]) = leaves l := by simp [leaves, List.countP_append]
      rw [he, hl] at hlt ⊢
      have hmod : (value N l + 1) % N = value N l + 1 := Nat.mod_eq_of_lt (by omega)
      simp only [count, hmod]
      omega
    | leave =>
      have he : enters (l ++ [(d, Mark.leave)]) = enters l := by simp [enters, List.countP_append]
      have hl : leaves (l ++ [(d, Mark.leave)]) = leaves l + 1 := by simp [leaves, List.countP_append]
      -- the session that leaves was open
      have hopen : of l d = [(d, .enter)] := by
        have hd : of (l ++ [(d, Mark.leave)]) d = of l d ++ [(d, .leave)] := by simp [of, List.filter_append]
        rcases h.of_cases d with hc | hc | hc <;> rw [hd] at hc
        · simp at hc
        · have hlen := congrArg List.length hc
          simp only [List.length_append, List.length_singleton] at hlen
          rw [List.length_eq_zero_iff.1 (show (of l d).length = 0 by omega)] at hc
          cases hc
        · exact (List.append_left_inj [(d, Mark.leave)]).1 hc
      have hpos := (h.before hpre).leaves_lt hopen
      rw [he, hl]
      simp only [count]
      rw [if_pos (by omega)]
      omega

theorem Paired.value_without (h : Paired l) (hb : Bounded N l) (d : ι) :
    value N l = value N (Sessions.without l d) + if of l d = [(d, .enter)] then 1 else 0 := by
  have h1 := h.value_add_leaves hb
  have h2 := (h.without d).value_add_leaves (hb.without h d)
  rw [enters_eq l d, leaves_eq l d] at h1
  rcases h.of_cases d with hc | hc | hc <;> rw [hc] at h1 ⊢ <;> simp [enters, leaves] at h1 ⊢ <;>
    simp only [enters, leaves] at h2 <;> omega

end Sessions

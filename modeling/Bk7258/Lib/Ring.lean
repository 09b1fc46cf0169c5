import Mathlib.Data.List.Basic

/-!
# Ring buffers

A ring of `n` cells with a read index and a write index, both below `n`: it holds the cells from `rd` on, up to `wr` and
around the end, and is empty when the indices are equal. `contents` is the list it stands for. Under it lies `window`,
the cells from a start on whose number is given.
-/

namespace Ring
open Function

variable {α : Type} {n rd wr k l : Nat}

def count (n rd wr : Nat) : Nat := if rd ≤ wr then wr - rd else n - (rd - wr)

/-- `len` cells from `start` on and around the end; `start` may lie beyond it. -/
def window (buf : Nat → α) (n start len : Nat) : List α := (List.range len).map fun k => buf ((start + k) % n)

def contents (buf : Nat → α) (n rd wr : Nat) : List α :=
  (List.range (count n rd wr)).map fun k => buf ((rd + k) % n)

theorem add_mod_cases (h : rd < n) (hk : k ≤ n) :
    ((rd + k) % n = rd + k ∧ rd + k < n) ∨ ((rd + k) % n = rd + k - n ∧ n ≤ rd + k) := by
  rcases Nat.lt_or_ge (rd + k) n with hlt | hge
  · exact .inl ⟨Nat.mod_eq_of_lt hlt, hlt⟩
  · refine .inr ⟨?_, hge⟩
    rw [Nat.mod_eq_sub_mod hge]
    exact Nat.mod_eq_of_lt (by omega)

theorem add_mod_lt (h : rd < n) : (rd + k) % n < n := Nat.mod_lt _ (by omega)

theorem count_cases (n rd wr : Nat) :
    (rd ≤ wr ∧ count n rd wr = wr - rd) ∨ (wr < rd ∧ count n rd wr = n - (rd - wr)) := by
  unfold count
  split <;> omega

theorem count_lt (hrd : rd < n) (hwr : wr < n) : count n rd wr < n := by
  have := count_cases n rd wr
  omega

theorem count_eq_zero (hrd : rd < n) : count n rd wr = 0 ↔ rd = wr := by
  have := count_cases n rd wr
  omega

theorem add_count (hrd : rd < n) (hwr : wr < n) : (rd + count n rd wr) % n = wr := by
  have hcount := count_cases n rd wr
  have hmod := add_mod_cases hrd (Nat.le_of_lt (count_lt hrd hwr))
  omega

theorem count_write (hrd : rd < n) (hwr : wr < n) (h : count n rd wr + k < n) :
    count n rd ((wr + k) % n) = count n rd wr + k := by
  have hold := count_cases n rd wr
  have hnew := count_cases n rd ((wr + k) % n)
  have hmod := add_mod_cases hwr (k := k) (by omega)
  omega

theorem count_read (hrd : rd < n) (hwr : wr < n) (h : k ≤ count n rd wr) :
    count n ((rd + k) % n) wr = count n rd wr - k := by
  have hold := count_cases n rd wr
  have hnew := count_cases n ((rd + k) % n) wr
  have hmod := add_mod_cases hrd (k := k) (by omega)
  omega

theorem add_mod_ne (h : rd < n) (hk : k < n) (hl : l < n) (hne : k ≠ l) : (rd + k) % n ≠ (rd + l) % n := by
  have hmod := add_mod_cases h (Nat.le_of_lt hk)
  have hmod' := add_mod_cases h (Nat.le_of_lt hl)
  omega

theorem used_ne_free (hrd : rd < n) (hwr : wr < n) (hk : k < count n rd wr) (hl : count n rd wr + l < n) :
    (rd + k) % n ≠ (wr + l) % n := by
  rw [← add_count hrd hwr, Nat.mod_add_mod, Nat.add_assoc]
  exact add_mod_ne hrd (by omega) hl (by omega)

section
variable {buf buf' : Nat → α} {xs : List α} {start len : Nat}

@[simp] theorem window_length : (window buf n start len).length = len := by simp [window]

theorem window_mod : window buf n (start % n) len = window buf n start len := by simp only [window, Nat.mod_add_mod]

theorem window_congr (h : ∀ k < len, buf' ((start + k) % n) = buf ((start + k) % n)) :
    window buf' n start len = window buf n start len :=
  List.map_congr_left fun k hk => h k (List.mem_range.1 hk)

theorem window_add : window buf n start (k + l) = window buf n start k ++ window buf n (start + k) l := by
  unfold window
  rw [List.range_add, List.map_append, List.map_map]
  simp only [comp_def, Nat.add_assoc]

theorem window_append (hold : ∀ k < len, buf' ((start + k) % n) = buf ((start + k) % n))
    (hnew : ∀ k (hk : k < xs.length), buf' ((start + len + k) % n) = xs[k]) :
    window buf' n start (len + xs.length) = window buf n start len ++ xs := by
  rw [window_add, window_congr hold]
  congr 1
  refine List.ext_getElem (by simp) fun i _ hi => ?_
  simp only [window, List.getElem_map, List.getElem_range]
  exact hnew i hi

theorem window_take (hk : k ≤ len) : (window buf n start len).take k = window buf n start k := by
  simp [window, ← List.map_take, List.take_range, Nat.min_eq_left hk]

theorem window_drop (hk : k ≤ len) : (window buf n start len).drop k = window buf n (start + k) (len - k) := by
  have hsplit : window buf n start len = window buf n start k ++ window buf n (start + k) (len - k) := by
    rw [← window_add, Nat.add_sub_cancel' hk]
  rw [hsplit, List.drop_left' window_length]

theorem contents_eq_window : contents buf n rd wr = window buf n rd (count n rd wr) := rfl

@[simp] theorem contents_length : (contents buf n rd wr).length = count n rd wr := by simp [contents]

theorem contents_eq_nil (hrd : rd < n) : contents buf n rd wr = [] ↔ rd = wr := by
  rw [← count_eq_zero hrd, ← List.length_eq_zero_iff, contents_length]

theorem contents_append (hrd : rd < n) (hwr : wr < n) (hroom : count n rd wr + xs.length < n)
    (hold : ∀ k < count n rd wr, buf' ((rd + k) % n) = buf ((rd + k) % n))
    (hnew : ∀ k (hk : k < xs.length), buf' ((wr + k) % n) = xs[k]) :
    contents buf' n rd ((wr + xs.length) % n) = contents buf n rd wr ++ xs := by
  rw [contents_eq_window, count_write hrd hwr hroom]
  refine window_append hold fun k hk => ?_
  rw [← Nat.mod_add_mod, add_count hrd hwr]
  exact hnew k hk

theorem contents_take (hk : k ≤ count n rd wr) : (contents buf n rd wr).take k = window buf n rd k := window_take hk

theorem contents_drop (hrd : rd < n) (hwr : wr < n) (hk : k ≤ count n rd wr) :
    contents buf n ((rd + k) % n) wr = (contents buf n rd wr).drop k := by
  rw [contents_eq_window, contents_eq_window, window_drop hk, count_read hrd hwr hk, window_mod]

theorem contents_push (hrd : rd < n) (hwr : wr < n) (hroom : count n rd wr + 1 < n) (x : α) :
    contents (update buf wr x) n rd ((wr + 1) % n) = contents buf n rd wr ++ [x] := by
  have hroom' : count n rd wr + [x].length < n := by simpa using hroom
  refine contents_append hrd hwr hroom' ?_ ?_
  · intro k hk
    have hne := used_ne_free hrd hwr hk (l := 0) (by omega)
    rw [Nat.add_zero, Nat.mod_eq_of_lt hwr] at hne
    exact update_of_ne hne _ _
  · intro k hk
    obtain rfl : k = 0 := by simpa using hk
    simp [Nat.mod_eq_of_lt hwr]

theorem contents_pop (hrd : rd < n) (hwr : wr < n) (hne : rd ≠ wr) :
    contents buf n rd wr = buf rd :: contents buf n ((rd + 1) % n) wr := by
  have hpos : 1 ≤ count n rd wr := by
    have hzero : count n rd wr = 0 ↔ _ := count_eq_zero hrd
    omega
  have htake : (contents buf n rd wr).take 1 = [buf rd] := by
    simp [contents_take hpos, window, Nat.mod_eq_of_lt hrd]
  calc contents buf n rd wr
      = (contents buf n rd wr).take 1 ++ (contents buf n rd wr).drop 1 := (List.take_append_drop ..).symm
    _ = buf rd :: contents buf n ((rd + 1) % n) wr := by rw [htake, contents_drop hrd hwr hpos]; rfl

/-! ## Copies in two parts -/

def put (buf : Nat → α) (off : Nat) (xs : List α) : Nat → α :=
  fun c => if off ≤ c then xs[c - off]?.getD (buf c) else buf c

def slice (buf : Nat → α) (off len : Nat) : List α := (List.range len).map fun k => buf (off + k)

/-- `xs` in the cells from `wr` on and around the end, which a copy in one or two parts is meant to be. -/
def fill (buf : Nat → α) (n wr : Nat) (xs : List α) : Nat → α :=
  fun c => xs[count n wr c]?.getD (buf c)

theorem slice_add : slice buf start (k + l) = slice buf start k ++ slice buf (start + k) l := by
  unfold slice
  rw [List.range_add, List.map_append, List.map_map]
  simp only [comp_def, Nat.add_assoc]

@[simp] theorem slice_length : (slice buf start k).length = k := by simp [slice]

theorem put_eq_fill (hwr : wr < n) (hfit : wr + xs.length ≤ n) (c : Nat) : put buf wr xs c = fill buf n wr xs c := by
  have hcount := count_cases n wr c
  unfold put fill
  split
  · rw [show count n wr c = c - wr by omega]
  · rw [List.getElem?_eq_none (by omega)]
    rfl

theorem put_put_eq_fill (hwr : wr < n) (hlen : xs.length ≤ n) {c : Nat} (hc : c < n) :
    put (put buf wr (xs.take (n - wr))) 0 (xs.drop (n - wr)) c = fill buf n wr xs c := by
  have hcount := count_cases n wr c
  simp only [put, fill, Nat.zero_le, if_true, Nat.sub_zero, List.getElem?_drop]
  rcases Nat.lt_or_ge c wr with hlt | hge
  · rw [if_neg (by omega), show count n wr c = n - wr + c by omega]
  · rw [if_pos hge, List.getElem?_eq_none (by omega), List.getElem?_take_of_lt (by omega),
      show count n wr c = c - wr by omega]
    rfl

theorem put_slices_eq_fill {src : Nat → α} (hwr : wr < n) (hlen : len ≤ n) {c : Nat} (hc : c < n) :
    put (put buf wr (slice src 0 (min len (n - wr)))) 0 (slice src (min len (n - wr)) (len - min len (n - wr))) c =
      fill buf n wr (slice src 0 len) c := by
  rw [← put_put_eq_fill hwr (by rwa [slice_length]) hc]
  rcases Nat.le_total len (n - wr) with hle | hge
  · rw [Nat.min_eq_left hle, Nat.sub_self, List.take_of_length_le (by rwa [slice_length]),
      List.drop_eq_nil_of_le (by rwa [slice_length])]
    rfl
  · have hsplit : slice src 0 len = slice src 0 (n - wr) ++ slice src (n - wr) (len - (n - wr)) := by
      have hadd : slice src 0 (n - wr + (len - (n - wr))) = slice src 0 (n - wr) ++ slice src (0 + (n - wr))
          (len - (n - wr)) :=
        slice_add
      rwa [Nat.add_sub_cancel' hge, Nat.zero_add] at hadd
    rw [Nat.min_eq_right hge, hsplit, List.take_left' slice_length, List.drop_left' slice_length]

theorem fill_new (hwr : wr < n) (hlen : xs.length ≤ n) (hbuf : ∀ c < n, buf' c = fill buf n wr xs c)
    (hk : k < xs.length) : buf' ((wr + k) % n) = xs[k] := by
  have hself := count_cases n wr wr
  have hcount := count_write hwr hwr (k := k) (by omega)
  rw [show count n wr wr + k = k by omega] at hcount
  rw [hbuf _ (add_mod_lt hwr)]
  simp [fill, hcount, hk]

theorem fill_old (hstart : start < n) (hroom : len + xs.length ≤ n)
    (hbuf : ∀ c < n, buf' c = fill buf n ((start + len) % n) xs c)
    (hk : k < len) : buf' ((start + k) % n) = buf ((start + k) % n) := by
  have hmod := add_mod_cases hstart (k := k) (by omega)
  have hmod' := add_mod_cases hstart (k := len) (by omega)
  have hcell := count_cases n ((start + len) % n) ((start + k) % n)
  rw [hbuf _ (add_mod_lt hstart)]
  simp only [fill]
  rw [List.getElem?_eq_none (by omega)]
  rfl

theorem window_fill (buf : Nat → α) (hstart : start < n) (hroom : len + xs.length ≤ n)
    (hbuf : ∀ c < n, buf' c = fill buf n ((start + len) % n) xs c) :
    window buf' n start (len + xs.length) = window buf n start len ++ xs := by
  refine window_append (fun k hk => fill_old hstart hroom hbuf hk) fun k hk => ?_
  rw [← Nat.mod_add_mod]
  exact fill_new (add_mod_lt hstart) (by omega) hbuf hk

theorem contents_fill (hrd : rd < n) (hwr : wr < n) (hroom : count n rd wr + xs.length ≤ n)
    (hbuf : ∀ c < n, buf' c = fill buf n wr xs c) : contents buf' n rd wr = contents buf n rd wr := by
  rw [← add_count hrd hwr] at hbuf
  exact window_congr fun k hk => fill_old hrd hroom hbuf hk

theorem contents_append_fill (hrd : rd < n) (hwr : wr < n) (hroom : count n rd wr + xs.length < n)
    (hbuf : ∀ c < n, buf' c = fill buf n wr xs c) :
    contents buf' n rd ((wr + xs.length) % n) = contents buf n rd wr ++ xs := by
  rw [← contents_fill hrd hwr (Nat.le_of_lt hroom) hbuf]
  exact contents_append hrd hwr hroom (fun _ _ => rfl) fun _ hk => fill_new hwr (by omega) hbuf hk

theorem slice_put (buf : Nat → α) (off : Nat) (xs : List α) : slice (put buf off xs) off xs.length = xs := by
  refine List.ext_getElem (by simp [slice]) fun i hi hi' => ?_
  simp [slice, put, hi']

theorem slice_eq_window (hfit : start + k ≤ n) : slice buf start k = window buf n start k := by
  refine List.map_congr_left fun j hj => ?_
  rw [List.mem_range] at hj
  rw [Nat.mod_eq_of_lt (by omega)]

theorem slice_slice_eq_window (hstart : start < n) (hwrap : n ≤ start + k) (hk : k ≤ n) :
    slice buf start (n - start) ++ slice buf 0 (k - (n - start)) = window buf n start k := by
  -- past the end the window goes on from cell 0
  have hrest : window buf n (start + (n - start)) (k - (n - start)) = window buf n 0 (k - (n - start)) := by
    rw [Nat.add_sub_cancel' (Nat.le_of_lt hstart), ← window_mod, Nat.mod_self]
  rw [slice_eq_window (n := n) (by omega), slice_eq_window (n := n) (by omega), ← hrest, ← window_add,
    Nat.add_sub_cancel' (by omega)]

theorem slice_slice_min_eq_window (hstart : start < n) (hk : k ≤ n) :
    slice buf start (min k (n - start)) ++ slice buf 0 (k - min k (n - start)) = window buf n start k := by
  rcases Nat.le_total k (n - start) with hle | hge
  · rw [Nat.min_eq_left hle, Nat.sub_self, ← slice_eq_window (by omega)]
    exact List.append_nil _
  · rw [Nat.min_eq_right hge]
    exact slice_slice_eq_window hstart (by omega) hk

theorem slice_eq_take (hfit : rd + k ≤ n) (hk : k ≤ count n rd wr) :
    slice buf rd k = (contents buf n rd wr).take k := by
  rw [contents_take hk, slice_eq_window hfit]

theorem slice_slice_eq_take (hrd : rd < n) (hwr : wr < n) (hwrap : n ≤ rd + k) (hk : k ≤ count n rd wr) :
    slice buf rd (n - rd) ++ slice buf 0 (k - (n - rd)) = (contents buf n rd wr).take k := by
  have hlt := count_lt hrd hwr
  rw [contents_take hk, slice_slice_eq_window hrd hwrap (by omega)]

end
end Ring

import Bk7258.Lib.Intervals
import Bk7258.Lib.PyFormat

/-!
# `bk_misc`

The helpers the packaging scripts share: sizes with a unit, and the test for overlapping partitions.
-/

namespace Bk7258

inductive PyErr
  | literal
  | indexError
  | keyError
  | structError
  | valueError (msg : String)
  | runtimeError (msg : String)
deriving DecidableEq, Repr

/-- `parse_format_size`. The first letter decides before the pairs are tried, but none of `KB`, `MB` and `GB` ends in
`K`, `M` or `G`. -/
def parseFormatSize (decimal : Char → Option (Fin 10)) (sizeStr : List Char) : Option Int :=
  let s := Py.upper (Py.strip sizeStr)
  let int := Py.int decimal 10
  if "K".toList.isSuffixOf s then (int s.dropLast).map (· * 1024)
  else if "M".toList.isSuffixOf s then (int s.dropLast).map (· * 1024 * 1024)
  else if "G".toList.isSuffixOf s then (int s.dropLast).map (· * 1024 * 1024 * 1024)
  else if "KB".toList.isSuffixOf s then (int (Py.strip (s.take (s.length - 2)))).map (· * 1024)
  else if "MB".toList.isSuffixOf s then (int (Py.strip (s.take (s.length - 2)))).map (· * 1024 * 1024)
  else if "GB".toList.isSuffixOf s then (int (Py.strip (s.take (s.length - 2)))).map (· * 1024 * 1024 * 1024)
  else if "B".toList.isSuffixOf s then int s.dropLast
  else int s

def formatSize (size : Int) : List Char :=
  if size % 0x100000 = 0 then Py.str (size / 0x100000) ++ "M".toList
  else if size % 0x400 = 0 then Py.str (size / 0x400) ++ "K".toList
  else Py.str size

def checkOverlaps (spaces : List (Int × Int)) : Bool :=
  Intervals.overlaps (spaces.map fun (start, length) => (start, start + length))

theorem pairwise_of_checkOverlaps {α : Type} {l : List α} {f : α → Int × Int} (h : ¬checkOverlaps (l.map f)) :
    l.Pairwise fun p q => ∀ a : Int, (f p).1 ≤ a → a < (f p).1 + (f p).2 → (f q).1 ≤ a →
      a < (f q).1 + (f q).2 → False := by
  have hap := Intervals.pairwise_apart (Bool.eq_false_iff.2 h)
  rw [List.map_map, List.pairwise_map] at hap
  exact hap

def InSpace (space : Int × Int) (a : Int) : Prop := space.1 ≤ a ∧ a < space.1 + space.2

theorem check_overlaps_iff {spaces : List (Int × Int)} (hpos : ∀ space ∈ spaces, 0 < space.2) :
    checkOverlaps spaces = true ↔
      ∃ i j : Fin spaces.length, i ≠ j ∧ ∃ a, InSpace (spaces.get i) a ∧ InSpace (spaces.get j) a := by
  constructor
  · intro hover
    by_contra hnone
    have hapart : (spaces.map fun (start, length) => (start, start + length)).Pairwise Intervals.Apart := by
      refine List.pairwise_map.2 (List.pairwise_iff_get.2 fun i j hij a h₁ h₂ h₃ h₄ => ?_)
      exact hnone ⟨i, j, hij.ne, a, ⟨h₁, h₂⟩, ⟨h₃, h₄⟩⟩
    have hne : ∀ i ∈ spaces.map fun (start, length) => (start, start + length), i.1 < i.2 := by
      intro i hi
      obtain ⟨space, hmem, rfl⟩ := List.mem_map.1 hi
      exact Int.lt_add_of_pos_right _ (hpos space hmem)
    exact Bool.false_ne_true ((Intervals.overlaps_of_pairwise_apart hne hapart).symm.trans hover)
  · rintro ⟨i, j, hij, a, hi, hj⟩
    by_contra hover
    rw [← List.map_id spaces] at hover
    have hapart := List.pairwise_iff_get.1 (pairwise_of_checkOverlaps hover)
    rcases lt_or_gt_of_ne hij with hlt | hlt
    · exact hapart i j hlt a hi.1 hi.2 hj.1 hj.2
    · exact hapart j i hlt a hj.1 hj.2 hi.1 hi.2

theorem check_overlaps_iff_three : checkOverlaps [(8, 8), (0, 8), (8, 8)] = true ∧
    (∃ i j : Fin 3, i ≠ j ∧ ∃ a, InSpace ([(8, 8), (0, 8), (8, 8)].get i) a ∧
      InSpace ([(8, 8), (0, 8), (8, 8)].get j) a) ∧
    checkOverlaps [(8, 8), (0, 8)] = false := by
  have hover : checkOverlaps [(8, 8), (0, 8), (8, 8)] = true := by decide +kernel
  exact ⟨hover, (check_overlaps_iff (by decide)).1 hover, by decide +kernel⟩

theorem row_of_not_skipped {comment setting : Bool} {empty : Prop} [Decidable empty] (hskip : ¬(comment = true ∨ empty))
    (hset : ¬setting = true) : (!(comment || decide empty || setting)) = true := by
  obtain ⟨hcomment, hempty⟩ := not_or.1 hskip
  rw [Bool.not_eq_true', Bool.or_eq_false_iff, Bool.or_eq_false_iff]
  exact ⟨⟨Bool.eq_false_iff.2 hcomment, decide_eq_false hempty⟩, Bool.eq_false_iff.2 hset⟩

theorem not_row_of_skipped {comment setting : Bool} {empty : Prop} [Decidable empty]
    (h : (comment = true ∨ empty) ∨ setting = true) : ¬(!(comment || decide empty || setting)) = true := by
  rw [Bool.not_eq_true', Bool.not_eq_false, Bool.or_eq_true, Bool.or_eq_true, decide_eq_true_iff]
  exact h

/-! ### A size is read as it was written -/

section
variable {decimal : Char → Option (Fin 10)} {n : Int}

theorem upper_strip_str_append {u : List Char} (hu : ∀ c ∈ u, Py.isSpace c = false ∧ c.toUpper = c) :
    Py.upper (Py.strip (Py.str n ++ u)) = Py.str n ++ u := by
  have hall : ∀ c ∈ Py.str n ++ u, Py.isSpace c = false ∧ c.toUpper = c := by
    intro c hc
    rcases List.mem_append.1 hc with hc | hc
    · exact ⟨(Py.printed_of_mem_str c hc).1, (Py.printed_of_mem_str c hc).2.1⟩
    · exact hu c hc
  rw [Py.strip_eq_self fun c hc => (hall c hc).1, Py.upper_eq_self fun c hc => (hall c hc).2]

theorem not_isSuffixOf_str {u : List Char} {x : Char} (hu : u.getLast? = some x) (hx : x ∈ "KMGB".toList) :
    ¬u.isSuffixOf (Py.str n) := by
  intro hs
  have hmem : x ∈ Py.str n := (List.isSuffixOf_iff_suffix.1 hs).subset (List.mem_of_getLast? hu)
  exact (Py.printed_of_mem_str x hmem).2.2 hx

theorem parseFormatSize_str (n : Int) : parseFormatSize decimal (Py.str n) = some n := by
  have hs : Py.upper (Py.strip (Py.str n)) = Py.str n := by
    have h := upper_strip_str_append (n := n) (fun c (hc : c ∈ []) => absurd hc List.not_mem_nil)
    rw [List.append_nil] at h
    exact h
  unfold parseFormatSize
  dsimp only
  rw [hs, if_neg (not_isSuffixOf_str rfl (by decide)), if_neg (not_isSuffixOf_str rfl (by decide)),
    if_neg (not_isSuffixOf_str rfl (by decide)), if_neg (not_isSuffixOf_str rfl (by decide)),
    if_neg (not_isSuffixOf_str rfl (by decide)), if_neg (not_isSuffixOf_str rfl (by decide)),
    if_neg (not_isSuffixOf_str rfl (by decide)), Py.int_str]

theorem parseFormatSize_str_K (n : Int) : parseFormatSize decimal (Py.str n ++ "K".toList) = some (n * 1024) := by
  have hs : Py.upper (Py.strip (Py.str n ++ "K".toList)) = Py.str n ++ "K".toList :=
    upper_strip_str_append (List.forall_mem_singleton.2 (by decide))
  have hsuf : "K".toList.isSuffixOf (Py.str n ++ "K".toList) := List.isSuffixOf_iff_suffix.2 ⟨_, rfl⟩
  unfold parseFormatSize
  dsimp only
  rw [hs, if_pos hsuf, show "K".toList = ['K'] from rfl, List.dropLast_concat,
    Py.int_str, Option.map_some]

theorem parseFormatSize_str_M (n : Int) :
    parseFormatSize decimal (Py.str n ++ "M".toList) = some (n * 1024 * 1024) := by
  have hs : Py.upper (Py.strip (Py.str n ++ "M".toList)) = Py.str n ++ "M".toList :=
    upper_strip_str_append (List.forall_mem_singleton.2 (by decide))
  have hsuf : "M".toList.isSuffixOf (Py.str n ++ "M".toList) := List.isSuffixOf_iff_suffix.2 ⟨_, rfl⟩
  have hK : ¬"K".toList.isSuffixOf (Py.str n ++ "M".toList) := by
    intro h
    obtain ⟨t, ht⟩ := List.isSuffixOf_iff_suffix.1 h
    exact absurd (List.append_inj_right' ht rfl) (by decide)
  unfold parseFormatSize
  dsimp only
  rw [hs, if_neg hK, if_pos hsuf,
    show "M".toList = ['M'] from rfl, List.dropLast_concat, Py.int_str, Option.map_some]

theorem parseFormatSize_formatSize (n : Int) : parseFormatSize decimal (formatSize n) = some n := by
  unfold formatSize
  split
  · rw [parseFormatSize_str_M]
    congr 1
    omega
  · split
    · rw [parseFormatSize_str_K]
      congr 1
      omega
    · exact parseFormatSize_str n

end
end Bk7258

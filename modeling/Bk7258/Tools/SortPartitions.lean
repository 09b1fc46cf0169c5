import Mathlib.Data.List.GetD
import Mathlib.Data.List.Nodup
import Bk7258.Tools.PartTable

/-!
# `sort_partitions`

The ids of a table are given anew. The first row of a reserved name gets the place of the name in the list of reserved
names; all other rows are numbered in table order behind the reserved ids. While this is done, ids from 10000 on are old
ones.
-/

namespace Bk7258

def BkPartition.withId (part : BkPartition) (id : Nat) : BkPartition := { part with id }

def assignReserved (existPartitions : List (List Char)) : Nat → List (List Char) → List BkPartition → List BkPartition
  | _, [], partitions => partitions
  | internelId, item :: items, partitions =>
    assignReserved existPartitions (internelId + 1) items
      (if item ∈ existPartitions then partitions.modify (existPartitions.idxOf item) (·.withId internelId)
      else partitions)

def assignUser : Nat → List BkPartition → List BkPartition
  | _, [] => []
  | userIndex, part :: partitions =>
    if part.id ≥ 10000 then part.withId userIndex :: assignUser (userIndex + 1) partitions
    else part :: assignUser userIndex partitions

def sortPartitions (reservedPartitions : List (List Char)) (partitions : List BkPartition) : List BkPartition :=
  let partitions := partitions.map fun part => part.withId (part.id + 10000)
  let existPartitions := partitions.map (·.name)
  assignUser reservedPartitions.length (assignReserved existPartitions 0 reservedPartitions partitions)

/-! ### The id of a row -/

section
variable (reserved names : List (List Char))

def IsReserved (i : Nat) : Prop := ∃ name ∈ reserved, name ∈ names ∧ names.idxOf name = i

instance (i : Nat) : Decidable (IsReserved reserved names i) :=
  inferInstanceAs (Decidable (∃ name ∈ reserved, name ∈ names ∧ names.idxOf name = i))

def othersBefore (i : Nat) : Nat := (List.range i).countP fun j => ¬IsReserved reserved names j

def sortedId (i : Nat) : Nat :=
  if IsReserved reserved names i then reserved.idxOf (names.getD i []) else
    reserved.length + othersBefore reserved names i

end

section
variable {reserved names : List (List Char)} {item name : List Char} {i j : Nat}

theorem getD_idxOf (h : name ∈ names) : names.getD (names.idxOf name) [] = name := by
  rw [List.getD_eq_getElem _ _ (List.idxOf_lt_length_of_mem h), List.getElem_idxOf]

theorem isReserved_iff : IsReserved reserved names i ↔
    i < names.length ∧ names.getD i [] ∈ reserved ∧ names.idxOf (names.getD i []) = i := by
  constructor
  · rintro ⟨name, hres, hmem, rfl⟩
    refine ⟨List.idxOf_lt_length_of_mem hmem, ?_⟩
    rw [getD_idxOf hmem]
    exact ⟨hres, rfl⟩
  · rintro ⟨hlt, hres, hidx⟩
    refine ⟨_, hres, ?_, hidx⟩
    rw [List.getD_eq_getElem _ _ hlt]
    exact List.getElem_mem hlt

theorem isReserved_cons_of_ne (h : ¬(item ∈ names ∧ names.idxOf item = i)) :
    IsReserved (item :: reserved) names i ↔ IsReserved reserved names i := by
  constructor
  · rintro ⟨name, hres, hname⟩
    rcases List.mem_cons.1 hres with rfl | hres
    · exact absurd hname h
    · exact ⟨name, hres, hname⟩
  · rintro ⟨name, hres, hname⟩
    exact ⟨name, List.mem_cons_of_mem _ hres, hname⟩

theorem othersBefore_succ :
    othersBefore reserved names (i + 1) = othersBefore reserved names i + if IsReserved reserved names i then
      0 else 1 := by
  unfold othersBefore
  rw [List.range_succ, List.countP_append, List.countP_singleton]
  by_cases h : IsReserved reserved names i
  · rw [if_pos h, if_neg (by rw [decide_eq_true_eq]; exact not_not.2 h)]
  · rw [if_neg h, if_pos (decide_eq_true h)]

theorem sortedId_of_isReserved (h : IsReserved reserved names i) :
    sortedId reserved names i = reserved.idxOf (names.getD i []) ∧ sortedId reserved names i < reserved.length := by
  have hid : sortedId reserved names i = reserved.idxOf (names.getD i []) := if_pos h
  refine ⟨hid, ?_⟩
  rw [hid]
  exact List.idxOf_lt_length_of_mem (isReserved_iff.1 h).2.1

theorem sortedId_of_not_isReserved (h : ¬IsReserved reserved names i) :
    sortedId reserved names i = reserved.length + othersBefore reserved names i := if_neg h

theorem sortedId_ne (h : i < j) : sortedId reserved names i ≠ sortedId reserved names j := by
  intro heq
  by_cases hi : IsReserved reserved names i
  · obtain ⟨hid, hlt⟩ := sortedId_of_isReserved hi
    by_cases hj : IsReserved reserved names j
    · obtain ⟨-, hres, hidx⟩ := isReserved_iff.1 hi
      obtain ⟨-, -, hidx'⟩ := isReserved_iff.1 hj
      rw [hid, (sortedId_of_isReserved hj).1] at heq
      have hname : names.getD i [] = names.getD j [] := (List.idxOf_inj hres).1 heq
      rw [hname] at hidx
      omega
    · rw [sortedId_of_not_isReserved hj] at heq
      omega
  · rw [sortedId_of_not_isReserved hi] at heq
    by_cases hj : IsReserved reserved names j
    · have hlt := (sortedId_of_isReserved hj).2
      omega
    · -- row `i` is among the others before row `j`
      have hsucc : othersBefore reserved names (i + 1) = othersBefore reserved names i + 1 := by
        rw [othersBefore_succ, if_neg hi]
      have hmono : othersBefore reserved names (i + 1) ≤ othersBefore reserved names j :=
        (List.range_sublist.2 h).countP_le
      rw [sortedId_of_not_isReserved hj] at heq
      omega

end

/-! ### What the loops do -/

section
variable {reserved names : List (List Char)} {parts : List BkPartition} {i : Nat}

theorem getElem?_assignReserved : ∀ {reserved : List (List Char)} {parts : List BkPartition} (k : Nat), reserved.Nodup →
    (assignReserved names k reserved parts)[i]? = parts[i]?.map fun part =>
      part.withId (if IsReserved reserved names i then k + reserved.idxOf (names.getD i []) else part.id)
  | [], parts, k, _ => by
    have hno : ¬IsReserved [] names i := fun ⟨_, h, _⟩ => absurd h List.not_mem_nil
    show parts[i]? = _
    simp only [if_neg hno]
    exact (Option.map_id' ..).symm
  | item :: reserved, parts, k, hnd => by
    obtain ⟨hitem, hnd⟩ := List.nodup_cons.1 hnd
    show (assignReserved names (k + 1) reserved
      (if item ∈ names then parts.modify (names.idxOf item) (·.withId k) else parts))[i]? = _
    rw [getElem?_assignReserved (k + 1) hnd]
    by_cases hfirst : item ∈ names ∧ names.idxOf item = i
    · obtain ⟨hmem, rfl⟩ := hfirst
      have hno : ¬IsReserved reserved names (names.idxOf item) := by
        rw [isReserved_iff, getD_idxOf hmem]
        exact fun h => hitem h.2.1
      have hyes : IsReserved (item :: reserved) names (names.idxOf item) := ⟨item, List.mem_cons_self .., hmem, rfl⟩
      simp only [if_pos hmem, if_neg hno, if_pos hyes, List.getElem?_modify_eq, getD_idxOf hmem, List.idxOf_cons_self]
      exact Option.map_map ..
    · have hkeep : (if item ∈ names then parts.modify (names.idxOf item) (·.withId k) else parts)[i]? = parts[i]? := by
        split
        · rename_i hmem
          exact List.getElem?_modify_ne _ _ fun h => hfirst ⟨hmem, h⟩
        · rfl
      have hid : ∀ id : Nat, (if IsReserved reserved names i then k + 1 + reserved.idxOf (names.getD i []) else id) =
          if IsReserved (item :: reserved) names i then k + (item :: reserved).idxOf (names.getD i []) else id := by
        intro id
        simp only [isReserved_cons_of_ne hfirst]
        split
        · rename_i hres
          have hne : item ≠ names.getD i [] := fun h => hitem (h ▸ (isReserved_iff.1 hres).2.1)
          rw [List.idxOf_cons_ne _ hne]
          omega
        · rfl
      simp only [hkeep, hid]

theorem getElem?_assignUser : ∀ {parts : List BkPartition} {i : Nat} (u : Nat), (assignUser u parts)[i]? =
    parts[i]?.map fun part =>
      part.withId (if part.id ≥ 10000 then u + (parts.take i).countP (·.id ≥ 10000) else part.id)
  | [], i, u => rfl
  | part :: parts, 0, u => by
    rw [assignUser]
    split
    · rename_i h
      rw [List.getElem?_cons_zero, List.getElem?_cons_zero, Option.map_some, if_pos h]
      rfl
    · rename_i h
      rw [List.getElem?_cons_zero, List.getElem?_cons_zero, Option.map_some, if_neg h]
      rfl
  | part :: parts, i + 1, u => by
    rw [assignUser]
    split
    · rename_i h
      have hcount : u + ((part :: parts).take (i + 1)).countP (·.id ≥ 10000) =
          u + 1 + (parts.take i).countP (·.id ≥ 10000) := by
        rw [List.take_succ_cons, List.countP_cons, if_pos (decide_eq_true h)]
        omega
      rw [List.getElem?_cons_succ, List.getElem?_cons_succ, getElem?_assignUser (u + 1), hcount]
    · rename_i h
      have hcount : ((part :: parts).take (i + 1)).countP (·.id ≥ 10000) = (parts.take i).countP (·.id ≥ 10000) := by
        rw [List.take_succ_cons, List.countP_cons, if_neg (by rw [decide_eq_true_eq]; exact h), Nat.add_zero]
      rw [List.getElem?_cons_succ, List.getElem?_cons_succ, getElem?_assignUser u, hcount]

theorem assignReserved_ids (hnd : reserved.Nodup) (hlen : reserved.length < 10000) {part : BkPartition}
    (h : (assignReserved names 0 reserved (parts.map fun part => part.withId (part.id + 10000)))[i]? = some part) :
    part.id ≥ 10000 ↔ ¬IsReserved reserved names i := by
  rw [getElem?_assignReserved 0 hnd, List.getElem?_map, Option.map_map] at h
  obtain ⟨old, -, rfl⟩ := Option.map_eq_some_iff.1 h
  show (if IsReserved reserved names i then 0 + reserved.idxOf (names.getD i []) else old.id + 10000) ≥ 10000 ↔ _
  split
  · rename_i hres
    have hlt := List.idxOf_lt_length_of_mem (isReserved_iff.1 hres).2.1
    exact ⟨fun h => by omega, fun h => absurd hres h⟩
  · rename_i hres
    exact ⟨fun _ => hres, fun _ => by omega⟩

theorem countP_eq_othersBefore {l : List BkPartition} (h : ∀ i part, l[i]? = some part →
    (part.id ≥ 10000 ↔ ¬IsReserved reserved names i)) :
    ∀ i ≤ l.length, (l.take i).countP (·.id ≥ 10000) = othersBefore reserved names i
  | 0, _ => rfl
  | i + 1, hi => by
    have hget : l[i]? = some l[i] := List.getElem?_eq_getElem hi
    have hiff := h i l[i] hget
    rw [List.take_succ_eq_append_getElem hi, List.countP_append, countP_eq_othersBefore h i (by omega),
      othersBefore_succ,
      List.countP_singleton]
    by_cases hres : IsReserved reserved names i
    · rw [if_pos hres, if_neg (by rw [decide_eq_true_eq, hiff]; exact not_not.2 hres)]
    · rw [if_neg hres, if_pos (decide_eq_true (hiff.2 hres))]

theorem getElem?_sortPartitions (hnd : reserved.Nodup) (hlen : reserved.length < 10000)
    (parts : List BkPartition) (i : Nat) :
    (sortPartitions reserved parts)[i]? = parts[i]?.map (·.withId (sortedId reserved (parts.map (·.name)) i)) := by
  have hnames : (parts.map fun part => part.withId (part.id + 10000)).map (·.name) = parts.map (·.name) := by
    rw [List.map_map]
    rfl
  unfold sortPartitions
  dsimp only
  rw [hnames, getElem?_assignUser]
  obtain ⟨l, hl⟩ : ∃ l, assignReserved (parts.map (·.name)) 0 reserved
      (parts.map fun part => part.withId (part.id + 10000)) = l :=
    ⟨_, rfl⟩
  have hids : ∀ i part, l[i]? = some part → (part.id ≥ 10000 ↔ ¬IsReserved reserved (parts.map (·.name)) i) :=
    fun i part h => assignReserved_ids hnd hlen (hl ▸ h)
  have hget : l[i]? = parts[i]?.map fun part => part.withId (if IsReserved reserved (parts.map (·.name)) i then
      0 + reserved.idxOf ((parts.map (·.name)).getD i []) else part.id + 10000) := by
    rw [← hl, getElem?_assignReserved 0 hnd, List.getElem?_map, Option.map_map]
    rfl
  rw [hl]
  cases hpart : parts[i]? with
  | none => rw [hget, hpart, Option.map_none, Option.map_none, Option.map_none]
  | some part =>
    rw [hpart, Option.map_some] at hget
    have hi : i < l.length := (List.getElem?_eq_some_iff.1 hget).1
    have hiff := hids i _ hget
    rw [hget, Option.map_some, Option.map_some, countP_eq_othersBefore hids i hi.le]
    congr 1
    by_cases hres : IsReserved reserved (parts.map (·.name)) i
    · rw [if_neg (fun h => hiff.1 h hres), if_pos hres, (sortedId_of_isReserved hres).1, Nat.zero_add]
      rfl
    · rw [if_pos (hiff.2 hres), sortedId_of_not_isReserved hres]
      rfl

theorem map_sortPartitions {β : Type} (hnd : reserved.Nodup) (hlen : reserved.length < 10000) (parts : List BkPartition)
    {f : BkPartition → β} (hf : ∀ part id, f (part.withId id) = f part) :
    (sortPartitions reserved parts).map f = parts.map f := by
  refine List.ext_getElem? fun i => ?_
  rw [List.getElem?_map, List.getElem?_map, getElem?_sortPartitions hnd hlen, Option.map_map]
  exact Option.map_congr fun part _ => hf part _

theorem nodup_sortPartitions (hnd : reserved.Nodup) (hlen : reserved.length < 10000) (parts : List BkPartition) :
    ((sortPartitions reserved parts).map (·.id)).Nodup := by
  rw [List.Nodup, List.pairwise_iff_getElem]
  intro i j hi hj hij heq
  have hget : ∀ k (hk : k < ((sortPartitions reserved parts).map (·.id)).length),
      ((sortPartitions reserved parts).map (·.id))[k] = sortedId reserved (parts.map (·.name)) k := by
    intro k hk
    have h : ((sortPartitions reserved parts).map (·.id))[k]? = some _ := List.getElem?_eq_getElem hk
    rw [List.getElem?_map, getElem?_sortPartitions hnd hlen, Option.map_map] at h
    obtain ⟨part, -, h⟩ := Option.map_eq_some_iff.1 h
    exact h.symm
  rw [hget i hi, hget j hj] at heq
  exact sortedId_ne hij heq

theorem sortPartitions_idem (hnd : reserved.Nodup) (hlen : reserved.length < 10000) (parts : List BkPartition) :
    sortPartitions reserved (sortPartitions reserved parts) = sortPartitions reserved parts := by
  refine List.ext_getElem? fun i => ?_
  have hnames : (sortPartitions reserved parts).map (·.name) = parts.map (·.name) :=
    map_sortPartitions hnd hlen parts fun _ _ => rfl
  rw [getElem?_sortPartitions hnd hlen (sortPartitions reserved parts), hnames, getElem?_sortPartitions hnd hlen,
    Option.map_map]
  rfl

end
end Bk7258

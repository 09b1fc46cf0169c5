import Mathlib.Data.List.Pairwise
import Bk7258.Tools.PartTable

/-!
# `bk_ota_partition`

The table of partitions for an update with two copies of the application. The executable partitions other than the
bootloader are called `application`, `application1` and so on, and one entry `appa` stands for all of them. It starts
where the bootloader ends, and its length is the sum of their sizes; their own offsets are not looked at.
-/

namespace Bk7258

structure OtaPartition where
  magic : List Char
  name : List Char
  flashName : List Char
  offset : List Char
  len : List Char
deriving DecidableEq, Repr

namespace BkPartition

def isBootloader (item : BkPartition) : Bool := Py.contains "bootloader".toList item.name && item.execute

def isApp (item : BkPartition) : Bool := item.execute && !Py.contains "bootloader".toList item.name

def interval (p : BkPartition) : Int × Int := (p.offset, p.offset + p.size)

end BkPartition

def partAdapter (appCount : Nat) : List BkPartition → List BkPartition
  | [] => []
  | item :: items =>
    if item.isBootloader then { item with name := "bootloader".toList } :: partAdapter appCount items
    else if item.execute then
      { item with name := "application".toList ++ if appCount ≠ 0 then Py.str appCount else [] } ::
        partAdapter (appCount + 1) items
    else item :: partAdapter appCount items

structure OtaScan where
  appTotalSize : Int := 0
  appaOffset : Int := 0
  partTableTemp : List BkPartition := []

section
variable (decimal : Char → Option (Fin 10))

/-- `re.match(r"^stem(\d)*$", name)`; `$` is also before a newline at the end. -/
def matchesNumbered (stem name : List Char) : Bool :=
  stem.isPrefixOf name &&
    let rest := name.drop stem.length
    let isDecimal := fun c : Char => c.isDigit || (decimal c).isSome
    rest.all isDecimal || (rest.getLast? = some '\n' && rest.dropLast.all isDecimal)

namespace OtaScan

def append (s : OtaScan) (p : BkPartition) : OtaScan := { s with partTableTemp := s.partTableTemp ++ [p] }

def addBootloader (s : OtaScan) (p : BkPartition) : OtaScan :=
  if matchesNumbered decimal "bootloader".toList p.name then { s.append p with appaOffset := p.offset + p.size } else s

def addApplication (s : OtaScan) (p : BkPartition) : OtaScan :=
  if Py.contains "application".toList p.name then
    if p.name = "application".toList then { s.append p with appTotalSize := p.size }
    else { s with appTotalSize := s.appTotalSize + p.size }
  else s

def addNumbered (stem : List Char) (s : OtaScan) (p : BkPartition) : OtaScan :=
  if matchesNumbered decimal stem p.name then s.append p else s

def add (s : OtaScan) (p : BkPartition) : OtaScan :=
  let s := s.addBootloader decimal p
  let s := s.addApplication p
  let s := s.addNumbered decimal "s_app".toList p
  s.addNumbered decimal "ota_fina_executive".toList p

end OtaScan

def getOtaPartName (partName : List Char) : List Char :=
  if Py.contains "application".toList partName then "appa".toList else partName

def otaPart (s : OtaScan) (p : BkPartition) : OtaPartition where
  magic := "0x45503130".toList
  name := p.name
  flashName := if p.name = "s_app".toList ∨ p.execute then "beken_onchip_crc".toList else "beken_onchip".toList
  offset := "0x".toList ++ Py.hex 8 (if p.name = "appa".toList then s.appaOffset else p.offset)
  len := formatSize (if p.name = "appa".toList then s.appTotalSize else p.size)

/-- `gen_ab_ota_json`: the entries of `part_table` for the partitions of the table -/
def genAbOtaJson (partInfo : List BkPartition) : List OtaPartition :=
  let s := (partAdapter 0 partInfo).foldl (OtaScan.add decimal) {}
  let renamed := s.partTableTemp.map fun p => { p with name := getOtaPartName p.name }
  (renamed.insertionSort fun p q => p.offset ≤ q.offset).map (otaPart s)

end

/-! ### What the loop computes -/

/-- The rows behind which the area of the applications is taken to begin, for the rows as they are renamed. -/
def bootRows (decimal : Char → Option (Fin 10)) (rows : List BkPartition) : List BkPartition :=
  rows.filter fun p => matchesNumbered decimal "bootloader".toList p.name

def applicationRows (rows : List BkPartition) : List BkPartition :=
  rows.filter fun p => Py.contains "application".toList p.name

/-- The rows from the last one called `application` on. -/
def fromLast : List BkPartition → List BkPartition
  | [] => []
  | p :: rows => if ∃ q ∈ rows, q.name = "application".toList then fromLast rows else p :: rows

def bootEnd (decimal : Char → Option (Fin 10)) (rows : List BkPartition) (off : Int) : Int :=
  ((bootRows decimal rows).getLast?.map (·.interval.2)).getD off

def totalSize : List BkPartition → Int
  | [] => 0
  | p :: rows => p.size + totalSize rows

namespace OtaScan

variable {decimal : Char → Option (Fin 10)} {s : OtaScan} {p : BkPartition} {rows : List BkPartition}

variable (decimal s p) in
theorem addNumbered_appa (stem : List Char) :
    (s.addNumbered decimal stem p).appaOffset = s.appaOffset ∧ (s.addNumbered decimal stem p).appTotalSize =
      s.appTotalSize ∧
      s.partTableTemp ⊆ (s.addNumbered decimal stem p).partTableTemp := by
  unfold addNumbered
  split
  · exact ⟨rfl, rfl, List.subset_append_left ..⟩
  · exact ⟨rfl, rfl, List.Subset.refl _⟩

variable (decimal s p) in
theorem addBootloader_appa :
    (s.addBootloader decimal p).appaOffset =
        (if matchesNumbered decimal "bootloader".toList p.name then p.interval.2 else s.appaOffset) ∧
      (s.addBootloader decimal p).appTotalSize = s.appTotalSize ∧
      s.partTableTemp ⊆ (s.addBootloader decimal p).partTableTemp := by
  unfold addBootloader
  split
  · exact ⟨rfl, rfl, List.subset_append_left ..⟩
  · exact ⟨rfl, rfl, List.Subset.refl _⟩

theorem addApplication_appa :
    (s.addApplication p).appaOffset = s.appaOffset ∧
      (s.addApplication p).appTotalSize = (if Py.contains "application".toList p.name then
        if p.name = "application".toList then p.size else s.appTotalSize + p.size else s.appTotalSize) ∧
      s.partTableTemp ⊆ (s.addApplication p).partTableTemp ∧
      (p.name = "application".toList → p ∈ (s.addApplication p).partTableTemp) := by
  unfold addApplication
  split
  · split
    · exact ⟨rfl, rfl, List.subset_append_left .., fun _ => List.mem_append_right _ (List.mem_singleton_self p)⟩
    · exact ⟨rfl, rfl, List.Subset.refl _, fun h => absurd h ‹_›⟩
  · rename_i hc
    refine ⟨rfl, rfl, List.Subset.refl _, fun h => absurd ?_ hc⟩
    rw [h]
    decide

theorem add_appa :
    (s.add decimal p).appaOffset =
        (if matchesNumbered decimal "bootloader".toList p.name then p.interval.2 else s.appaOffset) ∧
      (s.add decimal p).appTotalSize = (if Py.contains "application".toList p.name then
        if p.name = "application".toList then p.size else s.appTotalSize + p.size else s.appTotalSize) ∧
      s.partTableTemp ⊆ (s.add decimal p).partTableTemp ∧
      (p.name = "application".toList → p ∈ (s.add decimal p).partTableTemp) := by
  obtain ⟨hboot, htotal, htemp⟩ := addBootloader_appa decimal s p
  obtain ⟨hboot', htotal', htemp', hmem⟩ := addApplication_appa (s := s.addBootloader decimal p) (p := p)
  unfold add
  dsimp only
  generalize (s.addBootloader decimal p).addApplication p = t at *
  obtain ⟨h₁, h₂, h₃⟩ := addNumbered_appa decimal t p "s_app".toList
  generalize t.addNumbered decimal "s_app".toList p = u at *
  obtain ⟨g₁, g₂, g₃⟩ := addNumbered_appa decimal u p "ota_fina_executive".toList
  refine ⟨?_, ?_, ?_, fun hp => g₃ (h₃ (hmem hp))⟩
  · rw [g₁, h₁, hboot', hboot]
  · rw [g₂, h₂, htotal', htotal]
  · exact fun _ hq => g₃ (h₃ (htemp' (htemp hq)))

variable (decimal rows) in
theorem foldl_appaOffset : ∀ s : OtaScan, (rows.foldl (OtaScan.add decimal) s).appaOffset =
    bootEnd decimal rows s.appaOffset := by
  induction rows with
  | nil => exact fun _ => rfl
  | cons p rows ih =>
    intro s
    rw [List.foldl_cons, ih, add_appa.1]
    unfold bootEnd bootRows
    split
    · rename_i hm
      rw [List.filter_cons, if_pos hm, List.getLast?_cons]
      cases (rows.filter fun p => matchesNumbered decimal "bootloader".toList p.name).getLast? with
      | none | some b => rfl
    · rename_i hm
      rw [List.filter_cons, if_neg hm]

variable (decimal rows) in
theorem foldl_appTotalSize : ∀ s : OtaScan, (rows.foldl (OtaScan.add decimal) s).appTotalSize =
    if ∃ q ∈ applicationRows rows, q.name = "application".toList then totalSize (fromLast (applicationRows rows))
    else s.appTotalSize + totalSize (applicationRows rows) := by
  induction rows with
  | nil =>
    intro s
    rw [if_neg fun ⟨_, hq, _⟩ => absurd hq List.not_mem_nil]
    exact (Int.add_zero _).symm
  | cons p rows ih =>
    intro s
    rw [List.foldl_cons, ih, add_appa.2.1]
    unfold applicationRows
    by_cases hc : Py.contains "application".toList p.name
    · rw [List.filter_cons, if_pos hc, if_pos hc, fromLast]
      split
      · rename_i hex
        obtain ⟨q, hq, hname⟩ := hex
        rw [if_pos ⟨q, List.mem_cons_of_mem p hq, hname⟩]
      · rename_i hno
        by_cases hname : p.name = "application".toList
        · rw [if_pos hname, if_pos ⟨p, List.mem_cons_self .., hname⟩]
          rfl
        · have hnone : ¬∃ q ∈ p :: rows.filter fun p => Py.contains "application".toList p.name,
              q.name = "application".toList :=
            fun h => ((List.exists_mem_cons_iff ..).1 h).elim hname hno
          rw [if_neg hname, if_neg hnone, Int.add_assoc]
          rfl
    · rw [List.filter_cons, if_neg hc, if_neg hc]

variable (decimal) in
theorem foldl_mem {p : BkPartition} (hp : p ∈ rows) (hname : p.name = "application".toList) :
    ∀ s : OtaScan, p ∈ (rows.foldl (OtaScan.add decimal) s).partTableTemp := by
  have hkeep : ∀ (rows : List BkPartition) (s : OtaScan),
      s.partTableTemp ⊆ (rows.foldl (OtaScan.add decimal) s).partTableTemp := by
    intro rows
    induction rows with
    | nil => exact fun s => List.Subset.refl _
    | cons q rows ih => exact fun s => List.Subset.trans add_appa.2.2.1 (ih _)
  induction rows with
  | nil => cases hp
  | cons q rows ih =>
    intro s
    rcases List.mem_cons.1 hp with rfl | hp
    · exact hkeep rows _ (add_appa.2.2.2 hname)
    · exact ih hp _

end OtaScan

/-! ### Whole tables -/

def appsOf (parts : List BkPartition) : List BkPartition := parts.filter (·.isApp)

theorem partAdapter_application {parts : List BkPartition} (h : appsOf parts ≠ []) :
    ∃ p ∈ partAdapter 0 parts, p.name = "application".toList := by
  induction parts with
  | nil => exact absurd rfl h
  | cons item items ih =>
    unfold partAdapter
    unfold appsOf at h
    split
    · rename_i hb
      have happ : ¬item.isApp := by
        unfold BkPartition.isApp
        rw [(Bool.and_eq_true_iff.1 hb).1]
        simp
      rw [List.filter_cons_of_neg happ] at h
      obtain ⟨p, hp, hname⟩ := ih h
      exact ⟨p, List.mem_cons_of_mem _ hp, hname⟩
    · split
      · exact ⟨_, List.mem_cons_self .., rfl⟩
      · rename_i he
        have happ : ¬item.isApp := fun happ => he (Bool.and_eq_true_iff.1 happ).1
        rw [List.filter_cons_of_neg happ] at h
        obtain ⟨p, hp, hname⟩ := ih h
        exact ⟨p, List.mem_cons_of_mem _ hp, hname⟩

/-- The sum of the sizes that the loop takes for those of the applications. -/
def countedSize (parts : List BkPartition) : Int := totalSize (fromLast (applicationRows (partAdapter 0 parts)))

theorem genAbOtaJson_appa (decimal : Char → Option (Fin 10)) {parts : List BkPartition} (happs : appsOf parts ≠ []) :
    (∃ e ∈ genAbOtaJson decimal parts, e.name = "appa".toList) ∧
      ∀ e ∈ genAbOtaJson decimal parts, e.name = "appa".toList →
        e.offset = "0x".toList ++ Py.hex 8 (bootEnd decimal (partAdapter 0 parts) 0) ∧
          e.len = formatSize (countedSize parts) := by
  obtain ⟨app, happ, hname⟩ := partAdapter_application happs
  have hcontains : Py.contains "application".toList app.name := by rw [hname]; decide
  have hoff := OtaScan.foldl_appaOffset decimal (partAdapter 0 parts) {}
  have htotal := OtaScan.foldl_appTotalSize decimal (partAdapter 0 parts) {}
  rw [if_pos ⟨app, List.mem_filter.2 ⟨happ, hcontains⟩, hname⟩] at htotal
  have hmem := OtaScan.foldl_mem decimal happ hname {}
  unfold genAbOtaJson
  dsimp only
  generalize (partAdapter 0 parts).foldl (OtaScan.add decimal) {} = s at *
  constructor
  · refine ⟨_, List.mem_map_of_mem ((List.mem_insertionSort _).2 (List.mem_map_of_mem hmem)), ?_⟩
    show getOtaPartName app.name = "appa".toList
    exact if_pos hcontains
  · intro e he hname
    obtain ⟨p, -, rfl⟩ := List.mem_map.1 he
    have hp : p.name = "appa".toList := hname
    unfold otaPart
    rw [if_pos hp, if_pos hp, hoff, htotal]
    exact ⟨rfl, rfl⟩

/-! ### The area -/

def Lowest (parts : List BkPartition) (off : Int) : Prop :=
  (∃ p ∈ appsOf parts, p.offset = off) ∧ ∀ p ∈ appsOf parts, off ≤ p.offset

def Highest (parts : List BkPartition) (stop : Int) : Prop :=
  (∃ p ∈ appsOf parts, p.offset + p.size = stop) ∧ ∀ p ∈ appsOf parts, p.offset + p.size ≤ stop

/-- The bytes from `off` on, `len` of them, are those of the applications: nothing is missing at either end, and no byte
of another partition is among them. -/
structure AreaOf (parts : List BkPartition) (off len : Int) : Prop where
  covers : ∀ a, (off ≤ a ∧ a < off + len) ↔ ∃ p ∈ appsOf parts, p.offset ≤ a ∧ a < p.offset + p.size
  lowest : Lowest parts off
  highest : Highest parts (off + len)
  others : ∀ q ∈ parts, q ∉ appsOf parts → ∀ a, q.offset ≤ a → a < q.offset + q.size → ¬(off ≤ a ∧ a < off + len)

instance : Std.Symm BkPartition.Apart := ⟨fun _ _ h a h₁ h₂ h₃ h₄ => h a h₃ h₄ h₁ h₂⟩

/-- The applications that have a byte, by their offsets. -/
def sortedApps (parts : List BkPartition) : List BkPartition :=
  ((appsOf parts).filter fun p => 0 < p.size).insertionSort fun p q => p.offset ≤ q.offset

section
variable {parts : List BkPartition} {off len : Int}

theorem mem_sortedApps {p : BkPartition} : p ∈ sortedApps parts ↔ p ∈ appsOf parts ∧ 0 < p.size := by
  rw [sortedApps, List.mem_insertionSort, List.mem_filter, decide_eq_true_iff]

theorem exists_sortedApps {a : Int} : (∃ i ∈ (sortedApps parts).map (·.interval), i.1 ≤ a ∧ a < i.2) ↔
    ∃ p ∈ appsOf parts, p.offset ≤ a ∧ a < p.offset + p.size := by
  constructor
  · rintro ⟨i, hi, ha⟩
    obtain ⟨p, hp, rfl⟩ := List.mem_map.1 hi
    exact ⟨p, (mem_sortedApps.1 hp).1, ha⟩
  · rintro ⟨p, hp, ha⟩
    exact ⟨p.interval, List.mem_map_of_mem (mem_sortedApps.2 ⟨hp, by omega⟩), ha⟩

theorem interval_sortedApps : ∀ i ∈ (sortedApps parts).map (·.interval), i.1 < i.2 := by
  intro i hi
  obtain ⟨p, hp, rfl⟩ := List.mem_map.1 hi
  have := (mem_sortedApps.1 hp).2
  show p.offset < p.offset + p.size
  omega

theorem pairwise_sortedApps (hapart : parts.Pairwise BkPartition.Apart) :
    ((sortedApps parts).map (·.interval)).Pairwise fun i j => i.2 ≤ j.1 := by
  have hsub : ((appsOf parts).filter fun p => 0 < p.size).Pairwise BkPartition.Apart :=
    hapart.sublist (List.filter_sublist.trans List.filter_sublist)
  have hperm := List.perm_insertionSort (fun p q : BkPartition => p.offset ≤ q.offset)
    ((appsOf parts).filter fun p => 0 < p.size)
  have hsorted : (sortedApps parts).Pairwise fun p q => p.offset ≤ q.offset := List.pairwise_insertionSort ..
  refine List.pairwise_map.2 (((hperm.pairwise_iff fun h => Std.Symm.symm _ _ h).2 hsub |>.and hsorted).imp_of_mem ?_)
  intro p q _ hq hpq
  have hsize := (mem_sortedApps.1 hq).2
  exact Intervals.Apart.stop_le (a := p.interval)
    (b := q.interval) hpq.1 (by show q.offset < q.offset + q.size; omega) hpq.2

theorem lowest_highest_of_covers (hpos : ∀ p ∈ appsOf parts, 0 < p.size) (hne : appsOf parts ≠ [])
    (hcov : ∀ a, (off ≤ a ∧ a < off + len) ↔ ∃ p ∈ appsOf parts, p.offset ≤ a ∧ a < p.offset + p.size) :
    Lowest parts off ∧ Highest parts (off + len) := by
  have hlow : ∀ p ∈ appsOf parts, off ≤ p.offset ∧ p.offset < off + len := by
    intro p hp
    have hp' := hpos p hp
    exact (hcov p.offset).2 ⟨p, hp, le_rfl, by omega⟩
  have hhigh : ∀ p ∈ appsOf parts, p.offset + p.size ≤ off + len := by
    intro p hp
    have hp' := hpos p hp
    have hlast := ((hcov (p.offset + p.size - 1)).2 ⟨p, hp, by omega, by omega⟩).2
    omega
  obtain ⟨p₀, hp₀⟩ := List.exists_mem_of_ne_nil _ hne
  have hlen : 0 < len := by
    have := hlow p₀ hp₀
    omega
  refine ⟨⟨?_, fun p hp => (hlow p hp).1⟩, ⟨?_, hhigh⟩⟩
  · obtain ⟨p, hp, hle, -⟩ := (hcov off).1 ⟨le_rfl, by omega⟩
    exact ⟨p, hp, le_antisymm hle (hlow p hp).1⟩
  · obtain ⟨p, hp, -, hlt⟩ := (hcov (off + len - 1)).1 ⟨by omega, by omega⟩
    exact ⟨p, hp, le_antisymm (hhigh p hp) (by omega)⟩

/-- The applications follow each other from `off` to `stop`; one without a byte lies within. -/
def Adjoin (parts : List BkPartition) (off stop : Int) : Prop :=
  Intervals.Tiles off ((sortedApps parts).map (·.interval)) stop ∧
    ((∃ p ∈ appsOf parts, p.size ≤ 0) → Lowest parts off ∧ Highest parts stop)

theorem areaOf_iff (hapart : parts.Pairwise BkPartition.Apart) (hne : appsOf parts ≠ []) :
    0 ≤ len ∧ AreaOf parts off len ↔ Adjoin parts off (off + len) := by
  constructor
  · rintro ⟨hlen, harea⟩
    refine ⟨.of_covers (pairwise_sortedApps hapart) interval_sortedApps (by omega) ?_,
      fun _ => ⟨harea.lowest, harea.highest⟩⟩
    exact fun a => (harea.covers a).trans exists_sortedApps.symm
  · rintro ⟨htiles, hneg⟩
    have hint : ∀ i ∈ (sortedApps parts).map (·.interval), i.1 ≤ i.2 := fun i hi => (interval_sortedApps i hi).le
    have hle := htiles.le hint
    have hcov : ∀ a, (off ≤ a ∧ a < off + len) ↔ ∃ p ∈ appsOf parts, p.offset ≤ a ∧ a < p.offset + p.size :=
      fun a => (htiles.mem_iff hint).trans exists_sortedApps
    obtain ⟨hlow, hhigh⟩ : Lowest parts off ∧ Highest parts (off + len) := by
      by_cases hex : ∃ p ∈ appsOf parts, p.size ≤ 0
      · exact hneg hex
      · exact lowest_highest_of_covers (fun p hp => not_le.1 fun h => hex ⟨p, hp, h⟩) hne hcov
    refine ⟨by omega, hcov, hlow, hhigh, ?_⟩
    intro q hq hnot a hqa hqa' harea
    obtain ⟨p, hp, hpa, hpa'⟩ := (hcov a).1 harea
    have hpq : p ≠ q := fun h => hnot (h ▸ hp)
    exact hapart.forall (List.mem_filter.1 hp).1 hq hpq a hpa hpa' hqa hqa'

end

/-- The applications follow the last row taken for the bootloader and each other without a gap, and the sizes that the
loop adds up are theirs. -/
def AppaFits (decimal : Char → Option (Fin 10)) (parts : List BkPartition) : Prop :=
  0 ≤ bootEnd decimal (partAdapter 0 parts) 0 ∧
    Adjoin parts (bootEnd decimal (partAdapter 0 parts) 0) (bootEnd decimal (partAdapter 0 parts) 0 + countedSize parts)

/-- What the entries `appa` say, read back, is the area of the applications exactly when these adjoin. -/
theorem appa_covers_apps {decimal : Char → Option (Fin 10)} {flashSize csvContents : List Char} {crcEnable : Bool}
    {t : PartTable} (h : bkPartitionsTable decimal flashSize crcEnable csvContents = .ok t)
    (happs : appsOf t.partitions ≠ []) :
    ((∃ e ∈ genAbOtaJson decimal t.partitions, e.name = "appa".toList) ∧
      ∀ e ∈ genAbOtaJson decimal t.partitions, e.name = "appa".toList → ∃ off len : Nat,
        Py.int decimal 16 e.offset = some (off : Int) ∧ parseFormatSize decimal e.len = some (len : Int) ∧
          AreaOf t.partitions off len) ↔ AppaFits decimal t.partitions := by
  obtain ⟨-, -, hapart⟩ := bkPartitionsTable_eq_ok h
  obtain ⟨⟨e, he, hname⟩, htext⟩ := genAbOtaJson_appa decimal happs
  unfold AppaFits
  generalize bootEnd decimal (partAdapter 0 t.partitions) 0 = start at *
  rw [← areaOf_iff hapart happs]
  constructor
  · rintro ⟨-, hall⟩
    obtain ⟨off, len, hoff, hlen, harea⟩ := hall e he hname
    obtain ⟨hoff', hlen'⟩ := htext e he hname
    have hstart : 0 ≤ start := by
      by_contra hneg
      rw [hoff', show "0x".toList ++ Py.hex 8 start = '0' :: 'x' :: Py.hex 8 start from rfl,
        Py.int_hex_of_neg (by omega)] at hoff
      cases hoff
    rw [hoff', show "0x".toList ++ Py.hex 8 start = '0' :: 'x' :: Py.hex 8 start from rfl, Py.int_hex hstart] at hoff
    rw [hlen', parseFormatSize_formatSize] at hlen
    rw [Option.some.inj hoff, Option.some.inj hlen]
    exact ⟨Int.natCast_nonneg off, Int.natCast_nonneg len, harea⟩
  · rintro ⟨hstart, hlen, harea⟩
    refine ⟨⟨e, he, hname⟩, fun e he hname => ?_⟩
    obtain ⟨hoff', hlen'⟩ := htext e he hname
    refine ⟨start.toNat, (countedSize t.partitions).toNat, ?_, ?_, ?_⟩
    · rw [hoff', Int.toNat_of_nonneg hstart]
      exact Py.int_hex hstart 8
    · rw [hlen', Int.toNat_of_nonneg hlen]
      exact parseFormatSize_formatSize _
    · rw [Int.toNat_of_nonneg hstart, Int.toNat_of_nonneg hlen]
      exact harea

def sampleApps : List Char :=
  "bootloader,0x0,68K,code,TRUE,FALSE\ncp,0x22000,68K,code,TRUE,TRUE\n".toList ++
    "ap,0x11000,68K,code,TRUE,TRUE\nenv,0x33000,4K,data,TRUE,TRUE".toList

theorem appa_covers_apps_sample :
    ∃ t, bkPartitionsTable (fun _ => none) "8M".toList true sampleApps = .ok t ∧ appsOf t.partitions ≠ [] ∧
      ∃ e ∈ genAbOtaJson (fun _ => none) t.partitions, e.name = "appa".toList ∧ ∃ off len : Nat,
        Py.int (fun _ => none) 16 e.offset = some (off : Int) ∧ parseFormatSize (fun _ => none) e.len =
          some (len : Int) ∧
          AreaOf t.partitions off len := by
  obtain ⟨t, hok, happs, hstart, htiles, hpos⟩ :
    ∃ t, bkPartitionsTable (fun _ => none) "8M".toList true sampleApps = .ok t ∧ appsOf t.partitions ≠ [] ∧
      0 ≤ bootEnd (fun _ => none) (partAdapter 0 t.partitions) 0 ∧
      Intervals.Tiles (bootEnd (fun _ => none) (partAdapter 0 t.partitions) 0)
        ((sortedApps t.partitions).map (·.interval))
        (bootEnd (fun _ => none) (partAdapter 0 t.partitions) 0 + countedSize t.partitions) ∧
      ¬∃ p ∈ appsOf t.partitions, p.size ≤ 0 := by
    decide +kernel
  obtain ⟨⟨e, he, hname⟩, hall⟩ := (appa_covers_apps hok happs).2 ⟨hstart, htiles, fun h => absurd h hpos⟩
  exact ⟨t, hok, happs, e, he, hname, hall e he hname⟩

/-- A data partition between the bootloader and the application: `appa` begins at the data. -/
theorem appa_covers_data :
    ∃ t e, bkPartitionsTable (fun _ => none) "8M".toList false
        "bootloader,0x0,68K,code,TRUE,FALSE\nenv,,4K,data,TRUE,TRUE\nap,,68K,code,TRUE,TRUE".toList = .ok t ∧
      t.partitions.map (fun p => (p.name, p.interval, p.execute)) =
        [("bootloader".toList, (0, 0x11000), true), ("env".toList, (0x11000, 0x12000), false),
          ("ap".toList, (0x12000, 0x23000), true)] ∧
      (genAbOtaJson (fun _ => none) t.partitions).filter (fun e => e.name = "appa".toList) = [e] ∧
      Py.int (fun _ => none) 16 e.offset = some 0x11000 ∧ parseFormatSize (fun _ => none) e.len = some 0x11000 := by
  exact exists_comm.1 ⟨⟨"0x45503130".toList, "appa".toList, "beken_onchip_crc".toList, "0x00011000".toList,
    "68K".toList⟩,
    by decide +kernel⟩

end Bk7258

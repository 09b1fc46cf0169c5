import Bk7258.Tools.PartTable

/-!
# `bk_ram_region`

The RAM regions of a CSV text: a line is a comment, sets the size of the PSRAM, or is a region with name, type, offset
and size. The header is written after three checks: the default regions are there as they are set, every region is in
the range of its type, and no two regions overlap.
-/

namespace Bk7258
open Raise

structure MemRegion where
  name : List Char
  type : List Char
  offset : Int
  size : Int
deriving DecidableEq, Repr

structure BkRamRegion where
  sramBase : Int := 0
  sramCapacity : Int := 0
  psramBase : Int := 0
  psramCapacity : Int := 0
  totalOffset : Int := 0
  sramRegionsNum : Nat := 0
  psramRegionsNum : Nat := 0
  regions : List MemRegion := []
  defaultSetting : List MemRegion := []
deriving DecidableEq, Repr

namespace BkRamRegion

def new (sramBase sramCapacity psramBase psramCapacity : Int) (defaultSetting : List MemRegion) : BkRamRegion :=
  { sramBase, sramCapacity, psramBase, psramCapacity, defaultSetting }

section
variable (decimal : Char → Option (Fin 10))

def parseLineMemRegion (totalOffset : Int) (lineContent : List Char) : Except PyErr MemRegion :=
  match (lineContent.splitOn ',').map Py.strip with
  | name :: type :: offsetStr :: rest => do
    let offset ← parseOffset decimal totalOffset offsetStr
    let sizeStr ← orRaise .indexError rest.head?
    let size ← orRaise .literal (Py.int decimal 16 sizeStr)
    .ok ⟨name, type, offset, size⟩
  | _ => .error .indexError

def parseLine (r : BkRamRegion) (line : List Char) : Except PyErr BkRamRegion :=
  let lineContent := Py.strip line
  if "#".toList.isPrefixOf lineContent ∨ lineContent = [] then .ok r
  else if Py.contains "PSRAM_CAPCAITY_SIZE=".toList lineContent then do
    let value ← orRaise .indexError (lineContent.splitOn '=')[1]?
    let psramCapacity ← orRaise .literal (parseFormatSize decimal value)
    .ok { r with psramCapacity }
  else if matchesVariable lineContent then
    .error (.runtimeError ("auto partition table format error, line:\n" ++ String.ofList lineContent))
  else do
    let region ← parseLineMemRegion decimal r.totalOffset lineContent
    .ok { r with regions := r.regions ++ [region], totalOffset := region.offset + region.size }

end

def hex0x (width : Nat) (n : Int) : String := String.ofList ('0' :: 'x' :: Py.hex width n)

def checkDefaultSetting (regions : List MemRegion) (defItem : MemRegion) : Except PyErr Unit :=
  match regions.find? fun region => region.name = defItem.name with
  | none => .error (.runtimeError ("default region " ++ String.ofList defItem.name ++ " not found"))
  | some region =>
    let name := String.ofList region.name
    if defItem.type ≠ region.type then
      .error (.runtimeError (name ++ " type is not valid, default type: " ++ String.ofList defItem.type))
    else if defItem.offset ≠ region.offset then
      .error (.runtimeError (name ++ " addr is not valid, default addr: " ++ hex0x 8 defItem.offset))
    else if defItem.size ≠ region.size then
      .error (.runtimeError (name ++ " size is not valid, default size: " ++ hex0x 8 defItem.size))
    else .ok ()

def checkRange (base capacity : Int) (region : MemRegion) : Except PyErr Unit :=
  if region.offset < base then
    .error (.runtimeError (String.ofList region.name ++ " addr is not valid, base  addr: " ++ hex0x 8 base))
  else if region.offset + region.size > base + capacity then
    .error (.runtimeError (String.ofList region.name ++ " is out of range, end addr: " ++ hex0x 8 (base + capacity) ++
      ",offset: " ++ hex0x 8 region.offset ++ ", size: " ++ hex0x 6 region.size ++ ", capacity=" ++
      String.ofList (Py.str capacity)))
  else .ok ()

/-- The body of the loop of `_check_region_valid`, which also counts the regions -/
def checkRegionValid (r : BkRamRegion) (region : MemRegion) : Except PyErr BkRamRegion :=
  if region.type = "SRAM".toList then do
    checkRange r.sramBase r.sramCapacity region
    .ok { r with sramRegionsNum := r.sramRegionsNum + 1 }
  else if region.type = "PSRAM".toList then do
    checkRange r.psramBase r.psramCapacity region
    .ok { r with psramRegionsNum := r.psramRegionsNum + 1 }
  else .error (.runtimeError (String.ofList region.type ++ " is not supported"))

def checkRegionOverlaps (regions : List MemRegion) : Except PyErr Unit :=
  if checkOverlaps (regions.map fun region => (region.offset, region.size)) then
    .error (.runtimeError "RAM regions config overlaps")
  else .ok ()

def hdrDefine (name : List Char) (value : Int) : List Char :=
  "#define ".toList ++ Py.ljust 36 name ++ " 0x".toList ++ Py.upper (Py.hex 8 value) ++ "\n".toList

def getRegionHdrText (r : BkRamRegion) : List Char :=
  "#pragma once\n".toList ++
    (if r.sramRegionsNum ≠ 0 then
      hdrDefine "CONFIG_SRAM_BASE".toList r.sramBase ++ hdrDefine "CONFIG_SRAM_CAPACITY".toList r.sramCapacity
    else []) ++
    (if r.psramRegionsNum ≠ 0 then
      hdrDefine "CONFIG_PSRAM_BASE".toList r.psramBase ++ hdrDefine "CONFIG_PSRAM_CAPACITY".toList r.psramCapacity
    else []) ++
    r.regions.flatMap fun region =>
      hdrDefine ("CONFIG_".toList ++ Py.upper region.name ++ "_ADDR".toList) region.offset ++
        hdrDefine ("CONFIG_".toList ++ Py.upper region.name ++ "_SIZE".toList) region.size

/-- `gen_memory_layout_hdr` with the text of the file `ram_mem_csv`, `none` when there is no such file: the regions and
the text of the header. -/
def genMemoryLayoutHdr (decimal : Char → Option (Fin 10)) (r : BkRamRegion) (ramMemCsv : String)
    (csvContents : Option (List Char)) : Except PyErr (BkRamRegion × List Char) := do
  let csvContents ← orRaise (.runtimeError (ramMemCsv ++ " not exists")) csvContents
  let r ← (Py.splitlines csvContents).foldlM (parseLine decimal) r
  r.defaultSetting.forM (checkDefaultSetting r.regions)
  let r ← r.regions.foldlM checkRegionValid r
  checkRegionOverlaps r.regions
  .ok (r, r.getRegionHdrText)

end BkRamRegion

/-! ### What the checks say -/

def MemRegion.Apart (p q : MemRegion) : Prop :=
  ∀ a : Int, p.offset ≤ a → a < p.offset + p.size → q.offset ≤ a → a < q.offset + q.size → False

def MemRegion.Within (base capacity : Int) (p : MemRegion) : Prop :=
    base ≤ p.offset ∧ p.offset + p.size ≤ base + capacity

def MemRegion.InRange (r : BkRamRegion) (p : MemRegion) : Prop :=
  (p.type = "SRAM".toList ∧ p.Within r.sramBase r.sramCapacity) ∨
    (p.type = "PSRAM".toList ∧ p.Within r.psramBase r.psramCapacity)

namespace BkRamRegion

theorem checkRange_eq_ok {base capacity : Int} {region : MemRegion} {u : Unit}
    (h : checkRange base capacity region = .ok u) : region.Within base capacity := by
  unfold checkRange at h
  split at h
  · cases h
  · rename_i hlow
    split at h
    · cases h
    · rename_i hhigh
      exact ⟨not_lt.1 hlow, not_lt.1 hhigh⟩

def SameRegions (r r' : BkRamRegion) : Prop :=
  r'.sramBase = r.sramBase ∧ r'.sramCapacity = r.sramCapacity ∧ r'.psramBase = r.psramBase ∧
    r'.psramCapacity = r.psramCapacity ∧ r'.regions = r.regions

theorem SameRegions.inRange {r r' : BkRamRegion} {p : MemRegion} (h : r.SameRegions r') (hp : p.InRange r) :
    p.InRange r' := by
  obtain ⟨hsb, hsc, hpb, hpc, -⟩ := h
  unfold MemRegion.InRange
  rw [hsb, hsc, hpb, hpc]
  exact hp

theorem checkRegionValid_eq_ok {r r' : BkRamRegion} {region : MemRegion} (h : r.checkRegionValid region = .ok r') :
    r.SameRegions r' ∧ region.InRange r := by
  unfold checkRegionValid at h
  split at h
  · rename_i htype
    obtain ⟨_, hrange, h⟩ := Raise.bind_eq_ok.1 h
    cases h
    exact ⟨⟨rfl, rfl, rfl, rfl, rfl⟩, .inl ⟨htype, checkRange_eq_ok hrange⟩⟩
  · split at h
    · rename_i htype
      obtain ⟨_, hrange, h⟩ := Raise.bind_eq_ok.1 h
      cases h
      exact ⟨⟨rfl, rfl, rfl, rfl, rfl⟩, .inr ⟨htype, checkRange_eq_ok hrange⟩⟩
    · cases h

theorem checkRegions_eq_ok {l : List MemRegion} : ∀ {r r' : BkRamRegion}, l.foldlM checkRegionValid r = .ok r' →
    r.SameRegions r' ∧ ∀ p ∈ l, p.InRange r' := by
  induction l with
  | nil =>
    intro r r' h
    cases h
    exact ⟨⟨rfl, rfl, rfl, rfl, rfl⟩, nofun⟩
  | cons region l ih =>
    intro r r' h
    rw [List.foldlM_cons] at h
    obtain ⟨r₁, h₁, h⟩ := Raise.bind_eq_ok.1 h
    obtain ⟨hsame₁, hin⟩ := checkRegionValid_eq_ok h₁
    obtain ⟨hsame, hall⟩ := ih h
    have htrans : r.SameRegions r' := by
      obtain ⟨h₁, h₂, h₃, h₄, h₅⟩ := hsame₁
      obtain ⟨g₁, g₂, g₃, g₄, g₅⟩ := hsame
      exact ⟨g₁.trans h₁, g₂.trans h₂, g₃.trans h₃, g₄.trans h₄, g₅.trans h₅⟩
    exact ⟨htrans, List.forall_mem_cons.2 ⟨htrans.inRange hin, hall⟩⟩

theorem checkRegionOverlaps_eq_ok {regions : List MemRegion} {u : Unit} (h : checkRegionOverlaps regions = .ok u) :
    regions.Pairwise MemRegion.Apart := by
  unfold checkRegionOverlaps at h
  split at h
  · cases h
  · rename_i hno
    exact pairwise_of_checkOverlaps hno

end BkRamRegion

/-! ### The sizes -/

section
variable (decimal : Char → Option (Fin 10))

def isRegionRow (lineContent : List Char) : Bool :=
  !("#".toList.isPrefixOf lineContent || lineContent = [] || Py.contains "PSRAM_CAPCAITY_SIZE=".toList lineContent)

def rowSize (lineContent : List Char) : Option Int :=
  ((lineContent.splitOn ',').map Py.strip)[3]?.bind (Py.int decimal 16)

def PositiveSize (line : List Char) : Prop :=
  isRegionRow (Py.strip line) → ∀ n ∈ rowSize decimal (Py.strip line), 0 < n

def PositiveSizes (csvContents : List Char) : Prop := ∀ line ∈ Py.splitlines csvContents, PositiveSize decimal line

instance (csvContents : List Char) : Decidable (PositiveSizes decimal csvContents) :=
  inferInstanceAs (Decidable (∀ line ∈ Py.splitlines csvContents, isRegionRow (Py.strip line) →
    ∀ n ∈ rowSize decimal (Py.strip line), 0 < n))

end

namespace BkRamRegion

variable {decimal : Char → Option (Fin 10)}

theorem rowSize_of_parseLineMemRegion {totalOffset : Int} {lineContent : List Char} {region : MemRegion}
    (h : parseLineMemRegion decimal totalOffset lineContent = .ok region) :
      rowSize decimal lineContent = some region.size := by
  unfold parseLineMemRegion at h
  split at h
  · rename_i name type offsetStr rest hsplit
    obtain ⟨offset, -, h⟩ := Raise.bind_eq_ok.1 h
    obtain ⟨sizeStr, hsize, h⟩ := Raise.bind_eq_ok.1 h
    obtain ⟨size, hint, h⟩ := Raise.bind_eq_ok.1 h
    cases h
    have hfield : ((lineContent.splitOn ',').map Py.strip)[3]? = some sizeStr := by
      rw [hsplit, ← orRaise_eq_ok.1 hsize]
      exact List.head?_eq_getElem?.symm
    rw [rowSize, hfield]
    exact orRaise_eq_ok.1 hint
  · cases h

theorem parseLine_positive_iff {r r' : BkRamRegion} {line : List Char} (h : r.parseLine decimal line = .ok r') :
    (∀ p ∈ r'.regions, 0 < p.size) ↔ (∀ p ∈ r.regions, 0 < p.size) ∧ PositiveSize decimal line := by
  unfold parseLine at h
  dsimp only at h
  split at h
  · rename_i hcom
    cases h
    exact (and_iff_left fun hrow => absurd hrow (not_row_of_skipped (.inl hcom))).symm
  · rename_i hcom
    split at h
    · rename_i hcap
      obtain ⟨value, -, h⟩ := Raise.bind_eq_ok.1 h
      obtain ⟨psramCapacity, -, h⟩ := Raise.bind_eq_ok.1 h
      cases h
      exact (and_iff_left fun hrow => absurd hrow (not_row_of_skipped (.inr hcap))).symm
    · rename_i hcap
      split at h
      · cases h
      · obtain ⟨region, hp, h⟩ := Raise.bind_eq_ok.1 h
        cases h
        have hrow : isRegionRow (Py.strip line) := row_of_not_skipped hcom hcap
        have hsize : PositiveSize decimal line ↔ 0 < region.size := by
          unfold PositiveSize
          rw [rowSize_of_parseLineMemRegion hp]
          exact ⟨fun h => h hrow _ rfl, fun h _ n hn => Option.some.inj hn ▸ h⟩
        rw [List.forall_mem_append, List.forall_mem_singleton, hsize]

end BkRamRegion

/-- When a header is written, the regions are well formed exactly when no row has a size that is not positive. -/
theorem ram_regions_sound {decimal : Char → Option (Fin 10)} {sramBase sramCapacity psramBase psramCapacity : Int}
    {defaultSetting : List MemRegion} {ramMemCsv : String} {csvContents hdrText : List Char} {r : BkRamRegion}
    (h : (BkRamRegion.new sramBase sramCapacity psramBase psramCapacity defaultSetting).genMemoryLayoutHdr decimal
      ramMemCsv (some csvContents) = .ok (r, hdrText)) :
    ((∀ p ∈ r.regions, 0 < p.size ∧ p.InRange r) ∧ r.regions.Pairwise MemRegion.Apart) ↔
      PositiveSizes decimal csvContents := by
  unfold BkRamRegion.genMemoryLayoutHdr at h
  obtain ⟨csv, hcsv, h⟩ := Raise.bind_eq_ok.1 h
  cases hcsv
  obtain ⟨r₁, hread, h⟩ := Raise.bind_eq_ok.1 h
  obtain ⟨_, -, h⟩ := Raise.bind_eq_ok.1 h
  obtain ⟨r₂, hvalid, h⟩ := Raise.bind_eq_ok.1 h
  obtain ⟨_, hover, h⟩ := Raise.bind_eq_ok.1 h
  cases h
  obtain ⟨hsame, hin⟩ := BkRamRegion.checkRegions_eq_ok hvalid
  have hreg : r.regions = r₁.regions := hsame.2.2.2.2
  have hsize : (∀ p ∈ r₁.regions, 0 < p.size) ↔ PositiveSizes decimal csvContents := by
    have hfold := Raise.foldlM_iff (I := fun _ => True)
      (fun _ _ _ _ hstep => ⟨trivial, BkRamRegion.parseLine_positive_iff hstep⟩) trivial hread
    exact hfold.trans (and_iff_right fun _ hp => absurd hp List.not_mem_nil)
  rw [← hsize, hreg]
  constructor
  · exact fun hall p hp => (hall.1 p hp).1
  · intro hpos
    exact ⟨fun p hp => ⟨hpos p hp, hin p hp⟩, hreg ▸ BkRamRegion.checkRegionOverlaps_eq_ok hover⟩

def sampleRam : BkRamRegion :=
  .new 0x28000000 0xA0000 0x60000000 0x800000 [⟨"cp".toList, "SRAM".toList, 0x28000000, 0x40000⟩]

def sampleRegions : List Char := "cp,SRAM,0x28000000,0x40000\nap,SRAM,,60000\nheap,PSRAM,0x60000000,0x700000".toList

theorem ram_regions_sound_sample :
    ∃ r hdrText, sampleRam.genMemoryLayoutHdr (fun _ => none) "ram.csv" (some sampleRegions) = .ok (r, hdrText) ∧
      PositiveSizes (fun _ => none) sampleRegions ∧
      r.regions.map (fun p => (p.offset, p.size)) =
        [(0x28000000, 0x40000), (0x28040000, 0x60000), (0x60000000, 0x700000)] ∧
      (∀ p ∈ r.regions, 0 < p.size ∧ p.InRange r) ∧ r.regions.Pairwise MemRegion.Apart := by
  obtain ⟨r, hdrText, hok, hregions⟩ :
    ∃ r hdrText, sampleRam.genMemoryLayoutHdr (fun _ => none) "ram.csv" (some sampleRegions) = .ok (r, hdrText) ∧
      r.regions.map (fun p => (p.offset, p.size)) =
        [(0x28000000, 0x40000), (0x28040000, 0x60000), (0x60000000, 0x700000)] := by
    decide +kernel
  have hpos : PositiveSizes (fun _ => none) sampleRegions := by decide +kernel
  exact ⟨r, hdrText, hok, hpos, hregions, (ram_regions_sound hok).2 hpos⟩

theorem ram_region_empty :
    ∃ r hdrText, sampleRam.genMemoryLayoutHdr (fun _ => none) "ram.csv"
        (some "cp,SRAM,0x28000000,0x40000\na,SRAM,,0\nb,SRAM,,-10".toList) = .ok (r, hdrText) ∧
      r.regions.map (fun p => (p.offset, p.size)) = [(0x28000000, 0x40000), (0x28040000, 0), (0x28040000, -0x10)] := by
  decide +kernel

end Bk7258

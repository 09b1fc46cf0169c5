import Bk7258.Lib.PyFormat
import Bk7258.Lib.Raise

/-!
# `beken_utils/scripts/common`

The flash carries 32 bytes of code in blocks of 34 bytes, the last two of which are a CRC. A physical address counts the
bytes of the flash, a virtual address the bytes of code. `>>` and `//` round down, also for negative numbers.
-/

namespace Bk7258.BekenUtils
open Raise

/-- How a script ends: `exit(1)` after an error message, or an exception -/
inductive UtilErr
  | exit (msg : String)
  | valueError
  | indexError
  | keyError
  | attributeError
deriving DecidableEq, Repr

def exitIf (c : Prop) [Decidable c] (msg : String) : Except UtilErr Unit := if c then .error (.exit msg) else .ok ()

theorem exitIf_eq_ok {c : Prop} [Decidable c] {msg : String} {u : Unit} : exitIf c msg = .ok u ↔ ¬c := by
  unfold exitIf
  split
  · rename_i hc
    exact ⟨nofun, fun h => absurd hc h⟩
  · rename_i hc
    exact ⟨fun _ => hc, fun _ => rfl⟩

/-! ### Addresses -/

def sz16M : Int := 0x1000000
def flashSectorSz : Int := 0x1000
def crcUnitTotalSz : Int := 34
def hdrSz : Int := 0x1000

def ceilAlign (value alignment : Int) : Int := (value + alignment - 1) / alignment * alignment

def floorAlign (value alignment : Int) : Int := value / alignment * alignment

def crcSize (size : Int) : Int := (size + 31) / 32 * 34

def virtual2phy (addr : Int) : Int := addr % 32 + addr / 32 * 34

def phy2virtual (addr : Int) : Int := addr % 34 + addr / 34 * 32

theorem phy2virtual_virtual2phy (addr : Int) : phy2virtual (virtual2phy addr) = addr := by
  unfold phy2virtual virtual2phy
  omega

/-! ### Numbers in a row of the table -/

section
variable (decimal : Char → Option (Fin 10))

def hex2int (str : List Char) : Except UtilErr Int := do
  let n ← orRaise .valueError (Py.int decimal 16 str)
  .ok (n % 0x100000000)

def decimal2int (str : List Char) : Except UtilErr Int := do
  let n ← orRaise .valueError (Py.int decimal 10 str)
  .ok (n % 0x100000000)

/-- `re.findall(r"[p]+", str)[0]` -/
def firstRun (p : Char → Bool) (str : List Char) : Except UtilErr (List Char) :=
  let run := (str.dropWhile fun c => !p c).takeWhile p
  if run = [] then .error .indexError else .ok run

/-- The `|` between the letters of the pattern is one of its characters. -/
def isUnitChar (c : Char) : Bool := c ∈ "k|KmMgGbB".toList

def unitSize (unit : List Char) : Except UtilErr Int :=
  if unit = ['b'] ∨ unit = ['B'] then .ok 1
  else if unit = ['k'] ∨ unit = ['K'] then .ok 0x400
  else if unit = ['m'] ∨ unit = ['M'] then .ok 0x100000
  else if unit = ['g'] ∨ unit = ['G'] then .ok 0x40000000
  else .error (.exit ("invalid size unit " ++ String.ofList unit ++ ", must be \"b/B/k/K/m/M/g/G\""))

def size2int (str : List Char) : Except UtilErr Int := do
  let sizeStr ← firstRun (fun c => c.isDigit || (decimal c).isSome) str
  let size ← decimal2int decimal sizeStr
  let unit ← firstRun isUnitChar str
  let unitSize ← unitSize unit
  .ok (size * unitSize)

end

section
variable {decimal : Char → Option (Fin 10)} {str : List Char} {n : Int}

theorem decimal2int_nonneg (h : decimal2int decimal str = .ok n) : 0 ≤ n := by
  unfold decimal2int at h
  obtain ⟨k, -, h⟩ := Raise.bind_eq_ok.1 h
  cases h
  omega

theorem unitSize_pos (h : unitSize str = .ok n) : 0 < n := by
  unfold unitSize at h
  repeat' split at h
  all_goals
    cases h
    try decide

theorem size2int_nonneg (h : size2int decimal str = .ok n) : 0 ≤ n := by
  unfold size2int at h
  obtain ⟨sizeStr, -, h⟩ := Raise.bind_eq_ok.1 h
  obtain ⟨size, hsize, h⟩ := Raise.bind_eq_ok.1 h
  obtain ⟨unit, -, h⟩ := Raise.bind_eq_ok.1 h
  obtain ⟨k, hk, h⟩ := Raise.bind_eq_ok.1 h
  cases h
  exact Int.mul_nonneg (decimal2int_nonneg hsize) (unitSize_pos hk).le

end

/-! ### Where the code of a partition is -/

structure CodeOffset where
  phyPartitionOffset : Int
  virPartitionOffset : Int
  virCodeOffset : Int
  phyCodeOffset : Int
deriving DecidableEq, Repr

def cpuVectorAlignBytes : Int := 512

def calculateOffset (dbusEn : Bool) (partitionOffset hdrSize : Int) : CodeOffset :=
  if dbusEn then
    let phyPartitionOffset := ceilAlign partitionOffset crcUnitTotalSz
    let virPartitionOffset := phy2virtual phyPartitionOffset
    let virCodeOffset := ceilAlign (virPartitionOffset + hdrSize) cpuVectorAlignBytes
    ⟨phyPartitionOffset, virPartitionOffset, virCodeOffset, virtual2phy virCodeOffset⟩
  else
    let virCodeOffset := ceilAlign (phy2virtual (partitionOffset + hdrSize)) cpuVectorAlignBytes
    ⟨partitionOffset, phy2virtual partitionOffset, virCodeOffset, virtual2phy virCodeOffset⟩

structure CodeSize where
  partitionHdrPadSize : Int
  partitionTailPadSize : Int
  phyPartitionSize : Int
  virPartitionSize : Int
  phyCodeSize : Int
  virCodeSize : Int
deriving DecidableEq, Repr

def calculateSize (o : CodeOffset) (partitionOffset partitionSize : Int) : CodeSize :=
  let partitionHdrPadSize := o.phyPartitionOffset - partitionOffset
  let partitionTailPadSize :=
    partitionOffset + partitionSize - floorAlign (partitionOffset + partitionSize) 34
  let phyPartitionSize := partitionSize - partitionHdrPadSize - partitionTailPadSize
  let phyCodeSize := phyPartitionSize - (o.phyCodeOffset - o.phyPartitionOffset)
  ⟨partitionHdrPadSize, partitionTailPadSize, phyPartitionSize, phy2virtual phyPartitionSize, phyCodeSize,
    phy2virtual phyCodeSize⟩

section
variable {off hdr size bin : Int}

theorem calculateOffset_code (dbusEn : Bool) (off : Int) (hhdr : 0 ≤ hdr) :
    let o := calculateOffset dbusEn off hdr
    512 ∣ o.virCodeOffset ∧ phy2virtual o.phyCodeOffset = o.virCodeOffset ∧ off ≤ o.phyCodeOffset := by
  cases dbusEn with
  | false =>
    refine ⟨Int.dvd_mul_left .., phy2virtual_virtual2phy _, ?_⟩
    simp only [calculateOffset, ceilAlign, phy2virtual, virtual2phy, cpuVectorAlignBytes, Bool.false_eq_true, if_false]
    omega
  | true =>
    refine ⟨Int.dvd_mul_left .., phy2virtual_virtual2phy _, ?_⟩
    simp only [calculateOffset, ceilAlign, phy2virtual, virtual2phy, cpuVectorAlignBytes, crcUnitTotalSz, if_true]
    omega

theorem calculateOffset_code_lt (dbusEn : Bool) (off : Int) :
    (calculateOffset dbusEn off 0).phyCodeOffset < off + 0x1000 := by
  cases dbusEn with
  | false =>
    simp only [calculateOffset, ceilAlign, phy2virtual, virtual2phy, cpuVectorAlignBytes, Bool.false_eq_true, if_false]
    omega
  | true =>
    simp only [calculateOffset, ceilAlign, phy2virtual, virtual2phy, cpuVectorAlignBytes, crcUnitTotalSz, if_true]
    omega

theorem calculateOffset_hdr_code_lt (off : Int) : (calculateOffset true off hdrSz).phyCodeOffset < off + 0x2000 := by
  simp only [calculateOffset, ceilAlign, phy2virtual, virtual2phy, cpuVectorAlignBytes, crcUnitTotalSz, if_true, hdrSz]
  omega

theorem le_calculateOffset_hdr_code (off : Int) : off + 0x1000 ≤ (calculateOffset true off hdrSz).phyCodeOffset := by
  simp only [calculateOffset, ceilAlign, phy2virtual, virtual2phy, cpuVectorAlignBytes, crcUnitTotalSz, if_true, hdrSz]
  omega

/-- With a partition that starts inside a block and no `Dbus_en` the bound is two bytes too large. -/
theorem calculateSize_fits (dbusEn : Bool) (hcond : dbusEn = true ∨ 34 ∣ off ∨ (bin % 32 ≠ 1 ∧ bin % 32 ≠ 2))
    (hfits : (calculateOffset dbusEn off hdr).virCodeOffset + bin ≤
      (calculateOffset dbusEn off hdr).virPartitionOffset +
      (calculateSize (calculateOffset dbusEn off hdr) off size).virPartitionSize) :
    (calculateOffset dbusEn off hdr).phyCodeOffset + crcSize bin ≤ off + size := by
  cases dbusEn with
  | false =>
    simp only [calculateOffset, calculateSize, floorAlign, ceilAlign, phy2virtual, virtual2phy, cpuVectorAlignBytes,
      crcSize, Bool.false_eq_true, if_false, false_or] at hfits hcond ⊢
    omega
  | true =>
    simp only [calculateOffset, calculateSize, floorAlign, ceilAlign, phy2virtual, virtual2phy, cpuVectorAlignBytes,
      crcSize, crcUnitTotalSz, if_true] at hfits ⊢
    omega

end
end Bk7258.BekenUtils

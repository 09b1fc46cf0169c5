import Bk7258.Tools.BekenUtils.Common

/-!
# `beken_utils/scripts/partition`

`Partitions` reads a table of partitions. The rows are those of `csv.reader`; a row is a dictionary with the keys of the
new or the old format. `exit(1)` and exceptions end everything, so a step that fails leaves nothing behind. The
attributes of the addresses exist for some partitions only: `code` is `none` where they are not set, and reading them
raises `AttributeError`.
-/

namespace Bk7258.BekenUtils
open Raise

/-- The part of `str.replace(old, new)` after `skip` more characters of a match; `old` is not empty. -/
def replaceFrom (old new : List Char) : Nat → List Char → List Char
  | _, [] => []
  | 0, c :: cs =>
    if old.isPrefixOf (c :: cs) then new ++ replaceFrom old new (old.length - 1) cs else c :: replaceFrom old new 0 cs
  | skip + 1, _ :: cs => replaceFrom old new skip cs

def replace (old new s : List Char) : List Char := replaceFrom old new 0 s

/-! ### Rows -/

inductive PdicKey
  | name
  | type
  | subType
  | offset
  | size
  | flags
  | execute
  | read
  | write
deriving DecidableEq, Repr

def PdicKey.text : PdicKey → List Char
  | .name => "Name".toList
  | .type => "Type".toList
  | .subType => "SubType".toList
  | .offset => "Offset".toList
  | .size => "Size".toList
  | .flags => "Flags".toList
  | .execute => "Execute".toList
  | .read => "Read".toList
  | .write => "Write".toList

def partitionKeysV2 : List PdicKey := [.name, .type, .subType, .offset, .size, .flags]

def partitionKeysV1 : List PdicKey := [.name, .offset, .size, .execute, .read, .write]

abbrev Pdic := PdicKey → Option (List Char)

def checkKeys (keys : List (List Char)) (keyList : List PdicKey) : Bool :=
  let upperKeys := keys.map Py.upper
  let upperKeyList := keyList.map fun k => Py.upper k.text
  upperKeys.all (· ∈ upperKeyList) && upperKeyList.all (· ∈ upperKeys)

/-- A cell belongs to the key at its position, whatever the order of the header. -/
def rowDic (activeKeyList : List PdicKey) (row : List (List Char)) : Except UtilErr Pdic :=
  if activeKeyList.length < row.length then .error .indexError
  else .ok fun k => (activeKeyList.zip (row.map Py.strip)).lookup k

def parseCsvList (csvFile : String) : List (List (List Char)) → Except UtilErr (List Pdic)
  | [] => .ok []
  | header :: rows => do
    let keys := header.map Py.strip
    exitIf (¬checkKeys keys partitionKeysV2 ∧ ¬checkKeys keys partitionKeysV1)
      (csvFile ++ " contain unknown or missing fields")
    rows.mapM (rowDic (if checkKeys keys partitionKeysV2 then partitionKeysV2 else partitionKeysV1))

/-! ### Partitions -/

inductive Verifier
  | bl1
  | bl2
deriving DecidableEq, Repr

structure Partition where
  idx : Nat
  partitionName : List Char
  partitionType : List Char
  prePartition : Option (List Char)
  isSecondary : Bool
  isPrimary : Bool
  binName : Option (List Char)
  binVerifier : Option Verifier
  dbusEn : Bool
  binHdrSize : Int
  binTailSize : Int
  partitionOffset : Int
  partitionSize : Int
  code : Option (CodeOffset × CodeSize)
  staticAddr : Option (List Char)
  isAllPartition : Bool
deriving DecidableEq, Repr

structure Partitions where
  bl1SecurebootEn : Bool
  otaType : List Char
  partitionNames : List (List Char)
  tfmExists : Bool
  bl2Exists : Bool
  bl2PartitionIdx : Int
  partitions : List Partition := []
  primaryPartitionsVerifiedByBl2 : List (List Char) := []
  secondaryPartitionsVerifiedByBl2 : List (List Char) := []
deriving DecidableEq, Repr

def flashBaseAddr : Int := 0x02000000

def text (s : List Char) : String := String.ofList s

def hexText (n : Int) : String := String.ofList (Py.hex 1 n)

def Partitions.findPartitionByName (ps : Partitions) (name : List Char) : Option Partition :=
  ps.partitions.find? fun p => name = p.partitionName

structure RawFields where
  partitionName : List Char
  partitionOffset : List Char
  partitionSize : List Char
  partitionType : List Char

namespace RawFields

def isAppPartition (raw : RawFields) : Prop := raw.partitionType = "app".toList

def isDataPartition (raw : RawFields) : Prop := raw.partitionType = "data".toList

instance (raw : RawFields) : Decidable raw.isAppPartition :=
  inferInstanceAs (Decidable (raw.partitionType = "app".toList))

instance (raw : RawFields) : Decidable raw.isDataPartition :=
  inferInstanceAs (Decidable (raw.partitionType = "data".toList))

end RawFields

/-- The type of a row: with the old format it is in `Execute`. -/
def rowType (pdic : Pdic) : Except UtilErr (List Char) :=
  match pdic .type with
  | some type => do
    let _ ← orRaise .keyError (pdic .subType)
    let _ ← orRaise .keyError (pdic .flags)
    .ok type
  | none => do
    let execute ← orRaise .keyError (pdic .execute)
    .ok (if execute = "TRUE".toList then "app".toList else "data".toList)

def parseRawFields (pdic : Pdic) : Except UtilErr RawFields := do
  let name ← orRaise .keyError (pdic .name)
  let offset ← orRaise .keyError (pdic .offset)
  let size ← orRaise .keyError (pdic .size)
  let type ← rowType pdic
  .ok ⟨name, offset, size, type⟩

structure NameInfo where
  prePartition : Option (List Char)
  primaryPartition : Option Partition
  isSecondary : Bool
  isPrimary : Bool

def hasSecondary (name : List Char) : Bool := Py.contains "secondary_".toList name

def hasPrimary (name : List Char) : Bool := Py.contains "primary_".toList name

def findPrimary (ps : Partitions) (name : List Char) : Except UtilErr (Option Partition) :=
  if hasSecondary name then
    match ps.findPartitionByName (replace "secondary_".toList "primary_".toList name) with
    | some p => .ok (some p)
    | none => .error (.exit ("Code partition " ++ text name ++ " has no primary partition"))
  else .ok none

def parseAndValidatePartitionName (ps : Partitions) (idx : Nat) (raw : RawFields) : Except UtilErr NameInfo := do
  let name := raw.partitionName
  exitIf (name ∈ ["primary_all".toList, "secondary_all".toList, "all".toList])
    ("Partition " ++ text name ++ " is reserved")
  exitIf (name ∈ ["bl1_control".toList, "primary_manifest".toList, "secondary_manifest".toList] ∧
      ps.bl1SecurebootEn = false)
    ("partition " ++ text name ++ " is reserved for secureboot")
  let primaryPartition ← findPrimary ps name
  let isSecondary := hasSecondary name
  let isPrimary := !isSecondary && hasPrimary name
  exitIf (¬raw.isAppPartition ∧ (isPrimary ∨ isSecondary) ∧ name ≠ "primary_manifest".toList ∧
      name ≠ "secondary_manifest".toList)
    ("Invalid data partition " ++ text name ++ ", prefix primary_/secondary is only for code partition")
  .ok ⟨if idx ≠ 0 then ps.partitionNames[idx - 1]? else none, primaryPartition, isSecondary, isPrimary⟩

def parseAndValidateBinName (raw : RawFields) : Except UtilErr (Option (List Char)) :=
  let name := raw.partitionName
  if name = "bl1_control".toList then .ok none
  else if name = "primary_manifest".toList then .ok (some "primary_manifest.bin".toList)
  else if name = "secondary_manifest".toList then .ok (some "secondary_manifest.bin".toList)
  else if name = "bl2".toList then .ok (some "bl2.bin".toList)
  else if name = "ota".toList then .ok none
  else if raw.isDataPartition then .ok none
  else if hasPrimary name = false ∧ hasSecondary name = false then
    .error (.exit ("code partition " ++ text name ++ " should started with primary_ or secondary_"))
  else .ok (some (replace "primary_".toList [] (replace "secondary_".toList [] name) ++ ".bin".toList))

structure VerifierInfo where
  binVerifier : Option Verifier := none
  dbusEn : Bool := false
  binHdrSize : Int := 0
  binTailSize : Int := 0

/-- The partitions that `bl2` verifies are also noted in the table (`verifiedByBl2`). -/
def parseAndValidateVerifier (ps : Partitions) (idx : Nat) (raw : RawFields) : VerifierInfo :=
  if raw.isDataPartition then {}
  else if raw.partitionName = "bl2".toList then
    if ps.bl1SecurebootEn then { binVerifier := some .bl1 } else {}
  else if ps.bl2Exists ∧ (idx : Int) > ps.bl2PartitionIdx then
    { binVerifier := some .bl2, dbusEn := true, binHdrSize := crcSize hdrSz, binTailSize := 0x1000 }
  else {}

def Partitions.verifiedByBl2 (ps : Partitions) (name : List Char) (info : NameInfo) (v : VerifierInfo) : Partitions :=
  if v.binVerifier = some .bl2 then
    { ps with
      primaryPartitionsVerifiedByBl2 := ps.primaryPartitionsVerifiedByBl2 ++ if info.isPrimary then [name] else []
      secondaryPartitionsVerifiedByBl2 :=
        ps.secondaryPartitionsVerifiedByBl2 ++ if info.isSecondary then [name] else [] }
  else ps

section
variable (decimal : Char → Option (Fin 10))

def rowOffset (raw : RawFields) (deducedMin : Int) : Except UtilErr Int :=
  if raw.partitionOffset = [] then .ok deducedMin else hex2int decimal raw.partitionOffset

/-- The message for an unaligned offset reads an attribute that is not there yet. -/
def parseAndValidatePartitionOffset (idx : Nat) (raw : RawFields) (info : NameInfo) (deducedMin : Int) :
    Except UtilErr Int := do
  let name := text raw.partitionName
  let offset ← rowOffset decimal raw deducedMin
  exitIf (idx = 0 ∧ offset > 0) ("first " ++ name ++ " offset should be 0")
  exitIf (offset < deducedMin) ("partition" ++ toString idx ++ " partition " ++ name ++ " offset=" ++ hexText offset ++
    " overlapped with " ++ (info.prePartition.map text).getD "None")
  exitIf (offset ≥ sz16M) ("partition" ++ toString idx ++ " partition " ++ name ++ " offset=" ++ hexText offset ++
    " is out of range")
  if raw.isAppPartition ∧ offset % flashSectorSz ≠ 0 then .error .attributeError else .ok offset

def checkPrimarySize (raw : RawFields) (info : NameInfo) (size : Int) : Except UtilErr Unit :=
  match info.primaryPartition with
  | some primary =>
    exitIf (size ≠ primary.partitionSize)
      ("Size of " ++ text raw.partitionName ++ " and " ++ text primary.partitionName ++ " not equal")
  | none => .ok ()

def parseAndValidatePartitionSize (idx : Nat) (raw : RawFields) (info : NameInfo) : Except UtilErr Int := do
  let name := text raw.partitionName
  exitIf (raw.partitionSize = []) ("Size of partition " ++ name ++ " is not configured")
  let size ← size2int decimal raw.partitionSize
  exitIf (size ≥ sz16M) ("partition" ++ toString idx ++ " partition " ++ name ++ " size=" ++ hexText size ++
    " out of range")
  exitIf (size % flashSectorSz ≠ 0) ("partition" ++ toString idx ++ " partition " ++ name ++ " size=" ++ hexText size ++
    " not FLASH sector aligned")
  checkPrimarySize raw info size
  .ok size

end

/-- The header size for which `calculate_offset` is called, if it is -/
def calculateOffsetArg (ps : Partitions) (info : NameInfo) (v : VerifierInfo) : Option Int :=
  if info.isSecondary ∧ v.binVerifier = some .bl2 then
    if ps.otaType = "XIP".toList then some (if ps.secondaryPartitionsVerifiedByBl2.length = 1 then
      hdrSz else 0) else none
  else if v.binVerifier = some .bl2 then some (if ps.primaryPartitionsVerifiedByBl2.length = 1 then hdrSz else 0)
  else some 0

/-- The end of the secure part; for `ota` it is the end of the partition before. -/
def boundary68K (ps : Partitions) (name : List Char) (info : NameInfo) (offset size : Int) :
    Except UtilErr (List Char × Int) :=
  if name = "primary_tfm_s".toList then .ok (name, offset + size)
  else do
    let p ← orRaise .attributeError (info.prePartition.bind ps.findPartitionByName)
    .ok (p.partitionName, p.partitionOffset + p.partitionSize)

def check68KBoundary (ps : Partitions) (name : List Char) (info : NameInfo) (offset size : Int) : Except UtilErr Unit :=
  if ps.tfmExists ∧ (name = "primary_tfm_s".toList ∨ name = "ota".toList) then do
    let (pname, boundary) ← boundary68K ps name info offset size
    exitIf (boundary % 0x11000 ≠ 0)
      ("The offset of partition next to " ++ text pname ++ " is " ++ hexText boundary ++ ", NOT in 68K boundary!")
  else .ok ()

def parseAndValidateAddress (ps : Partitions) (idx : Nat) (raw : RawFields) (info : NameInfo) (v : VerifierInfo)
    (offset size : Int) : Except UtilErr (Option (CodeOffset × CodeSize)) := do
  exitIf (offset + size - 1 ≥ sz16M) ("partition" ++ toString idx ++ " " ++ text raw.partitionName ++ " start=" ++
    hexText offset ++ " size=" ++ hexText size ++ " is out of range")
  if raw.isAppPartition then do
    check68KBoundary ps raw.partitionName info offset size
    let hdrSize ← orRaise .attributeError (calculateOffsetArg ps info v)
    let o := calculateOffset v.dbusEn offset hdrSize
    .ok (some (o, calculateSize o offset size))
  else .ok none

def staticAddrText (code : Option (CodeOffset × CodeSize)) : Option (List Char) :=
  code.map fun c => "0x".toList ++ Py.hex 8 (flashBaseAddr + phy2virtual c.1.phyCodeOffset)

section
variable (decimal : Char → Option (Fin 10))

def Partition.init (ps : Partitions) (idx : Nat) (pdic : Pdic) (deducedMin : Int) :
    Except UtilErr (Partitions × Partition) := do
  let raw ← parseRawFields pdic
  let info ← parseAndValidatePartitionName ps idx raw
  let binName ← parseAndValidateBinName raw
  let v := parseAndValidateVerifier ps idx raw
  let ps := ps.verifiedByBl2 raw.partitionName info v
  let offset ← parseAndValidatePartitionOffset decimal idx raw info deducedMin
  let size ← parseAndValidatePartitionSize decimal idx raw info
  let code ← parseAndValidateAddress ps idx raw info v offset size
  .ok (ps,
    { idx, partitionName := raw.partitionName, partitionType := raw.partitionType, prePartition := info.prePartition,
      isSecondary := info.isSecondary, isPrimary := info.isPrimary, binName, binVerifier := v.binVerifier,
      dbusEn := v.dbusEn, binHdrSize := v.binHdrSize, binTailSize := v.binTailSize, partitionOffset := offset,
      partitionSize := size, code, staticAddr := staticAddrText code, isAllPartition := false })

/-- The body of the loop of `create_normal_partitions`, with `deduced_next_partition_offset` -/
def createStep (st : Partitions × Int) (row : Pdic × Nat) : Except UtilErr (Partitions × Int) := do
  let (ps, p) ← Partition.init decimal st.1 row.2 row.1 st.2
  .ok ({ ps with partitions := ps.partitions ++ [p] }, p.partitionOffset + p.partitionSize)

def createNormalPartitions (ps : Partitions) (dicList : List Pdic) : Except UtilErr Partitions := do
  let (ps, _) ← dicList.zipIdx.foldlM (createStep decimal) (ps, 0)
  .ok ps

end

/-- `list.insert(idx + 1, p)` behind the partition of the given name -/
def insertAfter (partitions : List Partition) (name : List Char) (p : Partition) : List Partition :=
  let idx := partitions.findIdx fun q => name = q.partitionName
  partitions.take (idx + 1) ++ p :: partitions.drop (idx + 1)

def allCodeSize (o : CodeOffset) (partitionOffset partitionSize : Int) : CodeSize :=
  let s := calculateSize o partitionOffset partitionSize
  let virSignSize := floorAlign s.virPartitionSize 4096 - 0x1000
  let virCodeSize := virSignSize - (o.virCodeOffset - o.virPartitionOffset) - hdrSz
  { s with virCodeSize, phyCodeSize := virtual2phy virCodeSize }

/-- The sizes of the virtual partition; `secondary_all` takes those of its code from `primary_all`. -/
def allPartitionCode (ps : Partitions) (partitionName : List Char) (first : Partition) (size : Int) :
    Except UtilErr (CodeOffset × CodeSize) := do
  let (o, s) ← orRaise .attributeError first.code
  if partitionName = "primary_all".toList then .ok (o, allCodeSize o first.partitionOffset size)
  else do
    let primary ← orRaise .attributeError ((ps.findPartitionByName "primary_all".toList).bind (·.code))
    .ok (o, { s with phyCodeSize := primary.2.phyCodeSize, virCodeSize := primary.2.virCodeSize })

def createAllPartition (ps : Partitions) (partitionName : List Char) (childPartitionNames : List (List Char)) :
    Except UtilErr Partitions :=
  match childPartitionNames.head?, childPartitionNames.getLast? with
  | some firstName, some lastName => do
    let first ← orRaise .attributeError (ps.findPartitionByName firstName)
    let last ← orRaise .attributeError (ps.findPartitionByName lastName)
    let size := last.partitionOffset - first.partitionOffset + last.partitionSize
    let code ← allPartitionCode ps partitionName first size
    let all := { first with
      partitionName
      partitionSize := size
      dbusEn := true
      isAllPartition := true
      code := some code }
    .ok { ps with partitions := insertAfter ps.partitions lastName all }
  | _, _ => .ok ps

def createAllPartitions (ps : Partitions) : Except UtilErr Partitions := do
  let ps ← createAllPartition ps "primary_all".toList ps.primaryPartitionsVerifiedByBl2
  createAllPartition ps "secondary_all".toList ps.secondaryPartitionsVerifiedByBl2

def initGlobals (otaType : List Char) (bl1SecurebootEn : Bool) (dicList : List Pdic) : Except UtilErr Partitions := do
  let partitionNames ← dicList.mapM fun pdic => orRaise .keyError (pdic .name)
  let bl2Exists := decide ("bl2".toList ∈ partitionNames)
  .ok {
    bl1SecurebootEn, otaType, partitionNames, bl2Exists
    tfmExists := "primary_tfm_s".toList ∈ partitionNames
    bl2PartitionIdx := if bl2Exists then partitionNames.idxOf "bl2".toList else -1 }

def parseAndValidatePartitionsBeforeCreate (partitionCsv : String) (ps : Partitions) : Except UtilErr Unit := do
  let names := ps.partitionNames
  exitIf (names = []) (partitionCsv ++ " has no partition")
  exitIf (¬names.Nodup) (partitionCsv ++ " contains duplicated partitions!")
  exitIf (ps.bl1SecurebootEn ∧ names.length < 2) "secureboot should contains \"bl1_control\", \"primary_manifest\""
  exitIf (ps.bl1SecurebootEn ∧ ("bl1_control".toList ∉ names ∨ "primary_manifest".toList ∉ names))
    "secureboot missing \"bl1_control\" or \"primary_manifest\""
  exitIf (ps.tfmExists ∧ ("sys_ps".toList ∉ names ∨ "sys_its".toList ∉ names))
    "TFM need partition \"sys_ps\", \"sys_its\""
  exitIf ("primary_cpu0_app".toList ∈ names ∧ ("sys_net".toList ∉ names ∨ "sys_rf".toList ∉ names))
    "partition primary_cpu0_app need partition \"sys_net\", \"sys_rf\""

def Partitions.init (decimal : Char → Option (Fin 10)) (partitionCsv : String) (otaType : List Char)
    (bl1SecurebootEn : Bool) (rows : List (List (List Char))) : Except UtilErr Partitions := do
  let dicList ← parseCsvList partitionCsv rows
  let ps ← initGlobals otaType bl1SecurebootEn dicList
  parseAndValidatePartitionsBeforeCreate partitionCsv ps
  let ps ← createNormalPartitions decimal ps dicList
  createAllPartitions ps

namespace Partition

def isAppPartition (p : Partition) : Prop := p.partitionType = "app".toList

instance (p : Partition) : Decidable p.isAppPartition := inferInstanceAs (Decidable (p.partitionType = "app".toList))

/-- The bound for code is one for virtual addresses. -/
def checkBinSize (p : Partition) (binSize : Int) : Except UtilErr Unit :=
  let tooLarge := fun size : Int => "partition" ++ toString p.idx ++ " " ++ text p.partitionName ++ " bin size " ++
    hexText binSize ++ " > partition size " ++ hexText size
  if p.isAppPartition then do
    let (o, s) ← orRaise .attributeError p.code
    exitIf (o.virCodeOffset + binSize > o.virPartitionOffset + s.virPartitionSize) (tooLarge s.virPartitionSize)
  else exitIf (binSize > p.partitionSize) (tooLarge p.partitionSize)

/-- `parse_and_validate_bin` of the size of the file `bin_name`, `none` when there is no such file: `bin_size` -/
def parseAndValidateBin (p : Partition) (fileSize : Option Nat) : Except UtilErr Int :=
  match p.binName with
  | none => .ok 0
  | some binName => do
    let fileSize ← orRaise (.exit ("bin " ++ text binName ++ " for partition" ++ toString p.idx ++ " " ++
      text p.partitionName ++ " not exists")) fileSize
    p.checkBinSize fileSize
    .ok fileSize

end Partition
end Bk7258.BekenUtils

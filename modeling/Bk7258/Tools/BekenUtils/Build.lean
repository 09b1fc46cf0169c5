import Bk7258.Tools.BekenUtils.Partition
import Bk7258.Tools.Container
import Bk7258.Tools.CrcExpand

/-!
# Partitions with their binaries

After the build a partition has a binary and the bytes that are to be written to the flash. `bin_size` is set by
`parse_and_validate_partitions_after_build`, both it and `partition_buf` by `process_aes_crc`. The encryption tool is
another program; what it writes is a parameter.
-/

namespace Bk7258.BekenUtils

inductive PackErr
  | util (e : UtilErr)
  | crc (e : CrcErr)
  | py (e : PyErr)
  | fileNotFound
  | typeError
deriving DecidableEq, Repr

structure Built where
  part : Partition
  binName : Option (List Char)
  binSize : Int
  partitionBuf : List UInt8
deriving DecidableEq, Repr

def Built.name (b : Built) : List Char := b.part.partitionName

abbrev Dir := Files.Store (List Char)

/-- `aes_type`; everything but `FIXED` and `RANDOM` is no encryption. -/
inductive AesType
  | none
  | fixed
  | random
deriving DecidableEq, Repr

structure AesCfg where
  aesType : AesType
  aesKey : List Char
  /-- What `beken_aes encrypt` writes for a key, a start address and a file; `none` if it writes no file -/
  encrypt : List Char → Int → List UInt8 → Option (List UInt8)

def readFile (fs : Dir) (file : List Char) : Except PackErr (List UInt8) := Raise.orRaise .fileNotFound (fs file)

/-- `run_cmd_not_check_ret` of the tool: the next step finds out whether there is an output file. -/
def AesCfg.run (cfg : AesCfg) (fs : Dir) (infile outfile : List Char) (startAddress : Int) : Dir :=
  match (fs infile).bind (cfg.encrypt cfg.aesKey startAddress) with
  | some out => Files.write fs outfile out
  | none => fs

theorem AesCfg.run_of_ne {cfg : AesCfg} {fs : Dir} {file infile outfile : List Char} {startAddress : Int}
    (h : file ≠ outfile) : cfg.run fs infile outfile startAddress file = fs file := by
  unfold run
  cases (fs infile).bind (cfg.encrypt cfg.aesKey startAddress) with
  | none => rfl
  | some out => exact Files.write_of_ne h

namespace Partition

def isDataPartition (p : Partition) : Prop := p.partitionType = "data".toList

instance (p : Partition) : Decidable p.isDataPartition := inferInstanceAs (Decidable (p.partitionType = "data".toList))

def unbuilt (p : Partition) : Built := ⟨p, p.binName, 0, []⟩

def parseAndValidateAfterBuild (fs : Dir) (p : Partition) : Except PackErr Built := do
  let binSize ← (p.parseAndValidateBin ((p.binName.bind fs).map List.length)).mapError .util
  .ok { p.unbuilt with binSize }

end Partition

/-! ### The partitions of a list -/

section
variable (built : List Built)

def findBuilt (name : List Char) : Option Built := built.find? fun b => name = b.name

def partitionNameToIdx (name : List Char) : Int :=
  match built.findIdx? fun b => name = b.name with
  | some idx => idx
  | none => -1

def partitionAt (idx : Int) : Except PackErr Built :=
  Raise.orRaise (.py .indexError)
    (if 0 ≤ idx then built[idx.toNat]? else if -idx ≤ built.length then built[(built.length + idx).toNat]? else none)

def updateBuilt (name : List Char) (f : Built → Built) : List Built :=
    built.modify (built.findIdx fun b => name = b.name) f

/-- The dictionary of the JSON file: for each file to be packed the names of its partitions -/
abbrev PackJson := List (List Char × List (List Char))

def parseAndValidatePackJson (packJson : String) (json : PackJson) : Except PackErr Unit :=
  json.forM fun entry => entry.2.forM fun name =>
    (exitIf ((findBuilt built name).isNone = true) (packJson ++ " has nonexist partition " ++ text name)).mapError .util

def getPackIdxList (json : PackJson) (packName : List Char) : List Int :=
  ((json.lookup packName).getD []).map (partitionNameToIdx built)

end

end Bk7258.BekenUtils

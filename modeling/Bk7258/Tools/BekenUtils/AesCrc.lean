import Bk7258.Tools.BekenUtils.Binary
import Bk7258.Tools.BekenUtils.Table

/-!
# `process_aes_crc`

The binaries are encrypted, get a magic number and CRCs, and the state of a partition that is executed in place.
`process_aes_crc` leaves out the partitions that `bl2` verifies, and `secondary_all`: they keep the size of their binary
and have no bytes.
-/

namespace Bk7258.BekenUtils
open Raise Files

/-- The first bytes of `bl1_control.bin` are those of the binary that is started. -/
def processBl1Control (ps : Partitions) (cfg : AesCfg) (built : List Built) (fs : Dir) :
    Except PackErr (List Built × Dir) :=
  if ps.bl1SecurebootEn = false then .ok (built, fs)
  else do
    let _ ← orRaise (.util .attributeError) (findBuilt built "bl1_control".toList)
    let src ← readFile fs (if cfg.aesType = .random then "provision.bin".toList else "bl2.bin".toList)
    let control := writeAt (List.replicate 0x1000 0xFF) 0 (src.take 64)
    .ok (updateBuilt built "bl1_control".toList fun b => { b with binName := some "bl1_control.bin".toList },
      write fs "bl1_control.bin".toList control)

def addMagicCode (fs : Dir) (virCodeOffset : Int) (binFile : List Char) : Except PackErr Dir :=
  if virCodeOffset = 0 then do
    let bin ← readFile fs binFile
    .ok (write fs binFile (writeAt bin 0x100 [0x42, 0x4B, 0x37, 0x32, 0x33, 0x36, 0x00]))
  else .ok fs

def xipMagic : List UInt8 := [0xEF, 0xBE, 0xAD, 0xDE]

/-- The state at the end of a primary partition, if it is executed in place: the magic number twice -/
def addXipStatus (otaType : List Char) (fs : Dir) (p : Partition) (o : CodeOffset) (crcBinName : List Char) :
    Except PackErr Dir :=
  if otaType = "XIP".toList ∧ p.isPrimary then do
    let bin ← readFile fs crcBinName
    let phyBinOffset := ceilAlign (p.partitionOffset + p.partitionSize - 4096) 34 - o.phyPartitionOffset
    let offset := phyBinOffset - bin.length
    if offset < 0 then
      .error (.py (.runtimeError ("file " ++ text p.partitionName ++ " don't have enough space.")))
    else
      .ok (write fs crcBinName
        (writeAt (bin ++ List.replicate offset.toNat 0xFF ++ xipMagic) (phyBinOffset + 32).toNat xipMagic))
  else .ok fs

def Partition.isPlain (p : Partition) (aesType : AesType) : Prop :=
  p.isDataPartition ∨ (aesType = .random ∧ p.partitionName ≠ "bl2".toList ∧ p.partitionName ≠ "bl1_control".toList) ∨
    ¬p.isAppPartition

instance (p : Partition) (aesType : AesType) : Decidable (p.isPlain aesType) :=
  inferInstanceAs (Decidable (_ ∨ _ ∨ _))

def Built.load (b : Built) (fs : Dir) (binName crcBinName : List Char) (padSize : Int) :
    Except PackErr (Built × Dir) := do
  let bin ← readFile fs crcBinName
  .ok ({ b with
    binName := some binName
    binSize := bin.length + padSize
    partitionBuf := List.replicate padSize.toNat 0xFF ++ bin }, fs)

def processPartitionAesCrc (otaType : List Char) (cfg : AesCfg) (b : Built) (fs : Dir) : Except PackErr (Built × Dir) :=
  match b.binName with
  | none => .ok (b, fs)
  | some binName => do
    let binName := if b.part.isAllPartition then b.name ++ "_code_signed.bin".toList else binName
    if b.part.isPlain cfg.aesType then b.load fs binName binName 0
    else do
      let (o, s) ← orRaise (.util .attributeError) b.part.code
      let fixed := cfg.aesType = .fixed
      let aesBinName := if fixed then b.name ++ "_code_aes.bin".toList else binName
      let startAddress := if b.part.isAllPartition then phy2virtual o.phyPartitionOffset else o.virCodeOffset
      let fs := if fixed then cfg.run fs binName aesBinName startAddress else fs
      let fs ← addMagicCode fs o.virCodeOffset aesBinName
      let crcBinName := b.name ++ "_code_crc.bin".toList
      let fs ← (crc fs aesBinName crcBinName).mapError .crc
      let fs ← addXipStatus otaType fs b.part o crcBinName
      b.load fs binName crcBinName s.partitionHdrPadSize

def Partitions.Skipped (ps : Partitions) (name : List Char) : Prop :=
  name ∈ ps.primaryPartitionsVerifiedByBl2 ∨ name ∈ ps.secondaryPartitionsVerifiedByBl2 ∨ name = "secondary_all".toList

instance (ps : Partitions) (name : List Char) : Decidable (ps.Skipped name) := inferInstanceAs (Decidable (_ ∨ _ ∨ _))

def processOne (ps : Partitions) (cfg : AesCfg) (b : Built) (fs : Dir) : Except PackErr (Built × Dir) :=
  if ps.Skipped b.name then .ok (b, fs) else processPartitionAesCrc ps.otaType cfg b fs

def processAesCrc (ps : Partitions) (cfg : AesCfg) : List Built → Dir → Except PackErr (List Built × Dir)
  | [], fs => .ok ([], fs)
  | b :: built, fs => do
    let (b, fs) ← processOne ps cfg b fs
    let (built, fs) ← processAesCrc ps cfg built fs
    .ok (b :: built, fs)

def prepare (ps : Partitions) (cfg : AesCfg) (packJson : String) (json : PackJson) (fs : Dir) :
    Except PackErr (List Built × Dir) := do
  let built ← ps.partitions.mapM (Partition.parseAndValidateAfterBuild fs)
  parseAndValidatePackJson built packJson json
  let (built, fs) ← processBl1Control ps cfg built fs
  let (built, fs) ← createPartitionPartition cfg built fs
  processAesCrc ps cfg built fs

end Bk7258.BekenUtils

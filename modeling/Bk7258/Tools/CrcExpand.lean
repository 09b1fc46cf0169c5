import Bk7258.Lib.Blocks
import Bk7258.Lib.Codec
import Bk7258.Lib.Crc16
import Bk7258.Lib.Files
import Bk7258.Lib.PyFloat
import Bk7258.Lib.Raise

/-!
# A CRC after every 32 bytes

The flash controller reads 34 bytes for 32 bytes of code; the last two are a CRC. `bk_crc16` (from memory and from a
file), `crc` of `beken_utils` and `add_crc16` of `ota_packager_python` write files in that form. The last two compute
the number of whole blocks by a division of floats.
-/

namespace Bk7258

inductive CrcErr
  | fileNotFound
  | indexError
  | overflowError
  | exit (msg : String)
deriving DecidableEq, Repr

/-! ### What is to be written -/

def withCrc (block : List UInt8) : List UInt8 := block ++ Codec.encode 2 (Crc16.crc block)

def padded (data : List UInt8) : List UInt8 := Blocks.pad 32 0xFF data

def expand (data : List UInt8) : List UInt8 := ((Blocks.split 32 (padded data)).map withCrc).flatten

/-! ### `bk_crc16` -/

namespace BkCrc16

def crc16 (data : List UInt8) (offset : Int) (length : Nat) : Nat :=
  if offset < 0 ∨ offset + length > data.length then 0 else Crc16.crc ((data.drop offset.toNat).take length)

def computeCrcedSize (rawSize : Nat) : Nat := (rawSize + 32 - 1) / 32 * (32 + 2)

def dataAlignHandle (rawData : List UInt8) : List UInt8 :=
  if rawData.length % 32 = 0 then rawData else rawData ++ List.replicate (32 - rawData.length % 32) 0xFF

/-- `raw_data[i : i + 32]` for `i` in `range(0, len(raw_data), 32)` are the blocks of the data. -/
def crc16Data (rawData : List UInt8) : List UInt8 :=
  ((Blocks.split 32 (dataAlignHandle rawData)).map fun chunk => chunk ++ Codec.encode 2 (crc16 chunk 0 32)).flatten

abbrev Path := List (List Char)

/-- The path of the copy that `_backup_file` makes: it is called after the directory. -/
def operateFile (rawFile : Path) : Path :=
  rawFile.dropLast ++ ["bk_crc_".toList ++ (rawFile.dropLast.getLast?).getD []]

def read (fs : Files.Store Path) (file : Path) : Except CrcErr (List UInt8) := Raise.orRaise .fileNotFound (fs file)

/-- `_backup_file`. An older copy is deleted first. -/
def backupFile (fs : Files.Store Path) (rawFile : Path) : Except CrcErr (Files.Store Path) := do
  let fs := if (fs (operateFile rawFile)).isSome then Files.unlink fs (operateFile rawFile) else fs
  let data ← read fs rawFile
  .ok (Files.write fs (operateFile rawFile) data)

def fileAlignHandle (fs : Files.Store Path) (file : Path) : Except CrcErr (Files.Store Path) := do
  let data ← read fs file
  .ok (if data.length % 32 = 0 then fs else Files.write fs file (data ++ List.replicate (32 - data.length % 32) 0xFF))

def crc16Chunks (file : List UInt8) : List UInt8 :=
  if file.take 4096 = [] then [] else crc16Data (file.take 4096) ++ crc16Chunks (file.drop 4096)
termination_by file.length
decreasing_by
  rename_i hne
  have hpos : 0 < file.length := List.length_pos_iff.2 fun h => hne (by rw [h, List.take_nil])
  rw [List.length_drop]
  omega

def crc16Handle (fs : Files.Store Path) (file outputFile : Path) : Except CrcErr (Files.Store Path) := do
  let data ← read fs file
  let fs := if (fs outputFile).isSome then Files.unlink fs outputFile else fs
  .ok (Files.write fs outputFile (crc16Chunks data))

def crcFile (fs : Files.Store Path) (rawFile outputFile : Path) : Except CrcErr (Files.Store Path) := do
  let fs ← backupFile fs rawFile
  let fs ← fileAlignHandle fs (operateFile rawFile)
  let fs ← crc16Handle fs (operateFile rawFile) outputFile
  let _ ← read fs (operateFile rawFile)
  .ok (Files.unlink fs (operateFile rawFile))

end BkCrc16

/-! ### `crc` and `add_crc16` -/

/-- `crc16` of `beken_utils` and of `ota_packager_python`: too few bytes are an error unless there are none at
`offset`. -/
def guardedCrc16 (data : List UInt8) (offset : Int) (length : Nat) : Except CrcErr Nat :=
  if offset < 0 ∨ (offset > (data.length : Int) - 1 ∧ offset + length > data.length) then .ok 0
  else if offset + length ≤ data.length then .ok (Crc16.crc ((data.drop offset.toNat).take length))
  else .error .indexError

/-- The loop over the whole blocks: what it writes, and what is left to read -/
def crcBlocks : Nat → List UInt8 → Except CrcErr (List UInt8 × List UInt8)
  | 0, f => .ok ([], f)
  | numOfCrc + 1, f => do
    let raw := f.take 32
    let crc ← guardedCrc16 raw 0 32
    let (out, f) ← crcBlocks numOfCrc (f.drop 32)
    .ok (raw ++ Codec.encode 2 crc ++ out, f)

def crcWrite (inFileSize : Nat) (f : List UInt8) : Except CrcErr (List UInt8) := do
  let numOfCrc ← Raise.orRaise .overflowError (Py.truncDivPow inFileSize 5)
  let lastBlockLen := inFileSize % 32
  let (out, f) ← crcBlocks numOfCrc f
  if lastBlockLen ≠ 0 then
    let padBuf := f.take lastBlockLen ++ List.replicate (32 - lastBlockLen) 0xFF
    let crc ← guardedCrc16 padBuf 0 32
    .ok (out ++ padBuf ++ Codec.encode 2 crc)
  else .ok out

/-- The size is taken first; the output file is empty when the input file is read. -/
def crcFiles (fs : Files.Store (List Char)) (infile outfile : List Char) : Except CrcErr (Files.Store (List Char)) := do
  let data ← Raise.orRaise .fileNotFound (fs infile)
  let fs := Files.write fs outfile []
  let f ← Raise.orRaise .fileNotFound (fs infile)
  let out ← crcWrite data.length f
  .ok (Files.write fs outfile out)

namespace BekenUtils

def crc16 (data : List UInt8) (offset : Int) (length : Nat) : Except CrcErr Nat := guardedCrc16 data offset length

def crc (fs : Files.Store (List Char)) (infile outfile : List Char) : Except CrcErr (Files.Store (List Char)) :=
  crcFiles fs infile outfile

end BekenUtils

namespace OtaPackager

def crcSize (size : Nat) : Nat := (size >>> 5) * 34

def crcAddr (addr : Nat) : Nat := crcSize addr

def crc16 (data : List UInt8) (offset : Int) (length : Nat) : Except CrcErr Nat := guardedCrc16 data offset length

def addCrc16 (fs : Files.Store (List Char)) (infile outfile : List Char) : Except CrcErr (Files.Store (List Char)) :=
  if infile = [] ∨ outfile = [] then .error (.exit "usage: image.py -i infile -o outfile")
  else if (fs infile).isNone then .error (.exit ("infile " ++ String.ofList infile ++ " not exists"))
  else crcFiles fs infile outfile

end OtaPackager

/-! ### The checksum -/

theorem BkCrc16.crc16_append (pre data post : List UInt8) :
    crc16 (pre ++ data ++ post) pre.length data.length = Crc16.crc data := by
  rw [crc16, if_neg (by simp only [List.length_append]; omega), Int.toNat_natCast, List.append_assoc, List.drop_left,
    List.take_left]

theorem guardedCrc16_append (pre data post : List UInt8) :
    guardedCrc16 (pre ++ data ++ post) pre.length data.length = .ok (Crc16.crc data) := by
  rw [guardedCrc16, if_neg (by simp only [List.length_append]; omega),
    if_pos (by simp only [List.length_append]; omega),
    Int.toNat_natCast, List.append_assoc, List.drop_left, List.take_left]

theorem crc16_eq_bitwise (pre data post : List UInt8) :
    BkCrc16.crc16 (pre ++ data ++ post) pre.length data.length =
      (Crc.crc 0x8005#16 0xFFFF#16 (data.map UInt8.toBitVec)).toNat ∧
    BekenUtils.crc16 (pre ++ data ++ post) pre.length data.length =
      .ok (Crc.crc 0x8005#16 0xFFFF#16 (data.map UInt8.toBitVec)).toNat := by
  rw [BkCrc16.crc16_append, BekenUtils.crc16, guardedCrc16_append, Crc16.crc_eq]
  exact ⟨rfl, rfl⟩

/-! ### The expansion -/

section
variable {data a b f block : List UInt8}

theorem length_withCrc (block : List UInt8) : (withCrc block).length = block.length + 2 := by
  rw [withCrc, List.length_append, Codec.length_encode]

theorem dvd_length_padded (data : List UInt8) : 32 ∣ (padded data).length := Blocks.dvd_length_pad (by decide) _ _

theorem padded_of_dvd (h : 32 ∣ data.length) : padded data = data := Blocks.pad_of_dvd _ h

theorem padded_append (ha : 32 ∣ a.length) : padded (a ++ b) = a ++ padded b := by
  have hmod : (a ++ b).length % 32 = b.length % 32 := by
    rw [List.length_append]
    omega
  rw [padded, padded, Blocks.pad, Blocks.pad, hmod, List.append_assoc]

theorem expand_nil : expand [] = [] := by decide

theorem expand_append (ha : 32 ∣ a.length) : expand (a ++ b) = expand a ++ expand b := by
  rw [expand, expand, expand, padded_append ha, padded_of_dvd ha, Blocks.split_append (by decide) ha, List.map_append,
    List.flatten_append]

theorem expand_block (h : block.length = 32) : expand block = withCrc block := by
  have hsplit : Blocks.split 32 block = [block] := by
    have hone : ∀ b ∈ [block], b.length = 32 := List.forall_mem_singleton.2 h
    rw [← List.flatten_singleton (l := block), Blocks.split_flatten (by decide) hone, List.flatten_singleton]
  rw [expand, padded_of_dvd (by omega), hsplit, List.map_singleton, List.flatten_singleton]

theorem expand_padded (data : List UInt8) : expand (padded data) = expand data := by
  rw [expand, expand, padded_of_dvd (dvd_length_padded data)]

theorem split_expand (data : List UInt8) :
    Blocks.split 34 (expand data) = (Blocks.split 32 (padded data)).map withCrc :=
  Blocks.split_map_flatten (by decide) (by decide) (dvd_length_padded data) fun b hb => by rw [length_withCrc, hb]

theorem length_expand (data : List UInt8) : (expand data).length = BkCrc16.computeCrcedSize data.length := by
  have hlen : ∀ c ∈ (Blocks.split 32 (padded data)).map withCrc, c.length = 34 := by
    intro c hc
    obtain ⟨b, hb, rfl⟩ := List.mem_map.1 hc
    rw [length_withCrc, Blocks.length_of_mem_split (by decide) (dvd_length_padded data) b hb]
  have hpad := Blocks.length_pad (n := 32) (by decide) (0xFF : UInt8) data
  rw [expand, Codec.length_flatten_of_forall hlen, List.length_map, Blocks.length_split, padded, hpad,
    BkCrc16.computeCrcedSize]
  omega

theorem flatten_take_expand (data : List UInt8) :
    ((Blocks.split 34 (expand data)).map (·.take 32)).flatten = padded data := by
  have htake : (Blocks.split 32 (padded data)).map ((·.take 32) ∘ withCrc) = Blocks.split 32 (padded data) := by
    refine (List.map_congr_left fun b hb => ?_).trans (List.map_id _)
    have hlen := Blocks.length_of_mem_split (by decide) (dvd_length_padded data) b hb
    rw [Function.comp_apply, withCrc, List.take_left' hlen]
    rfl
  rw [split_expand, List.map_map, htake, Blocks.flatten_split (by decide)]

theorem crc_of_mem_split_expand (h : block ∈ Blocks.split 34 (expand data)) :
    block.length = 34 ∧ block.drop 32 = Codec.encode 2 (Crc16.crc (block.take 32)) := by
  rw [split_expand] at h
  obtain ⟨b, hb, rfl⟩ := List.mem_map.1 h
  have hlen := Blocks.length_of_mem_split (by decide) (dvd_length_padded data) b hb
  refine ⟨by rw [length_withCrc, hlen], ?_⟩
  rw [withCrc, List.drop_left' hlen, List.take_left' hlen]

/-! ### The scripts write it -/

namespace BkCrc16

theorem crc16_block (h : block.length = 32) : crc16 block 0 32 = Crc16.crc block := by
  have hcrc := crc16_append [] block []
  rwa [List.nil_append, List.append_nil, h] at hcrc

theorem dataAlignHandle_eq (data : List UInt8) : dataAlignHandle data = padded data := by
  unfold dataAlignHandle padded Blocks.pad
  split
  · rename_i h
    rw [h, Nat.sub_zero, Nat.mod_self, List.replicate_zero, List.append_nil]
  · rename_i h
    rw [Nat.mod_eq_of_lt (by omega : 32 - data.length % 32 < 32)]

theorem crc16Data_eq (data : List UInt8) : crc16Data data = expand data := by
  rw [crc16Data, expand, dataAlignHandle_eq]
  refine congrArg _ (List.map_congr_left fun b hb => ?_)
  rw [crc16_block (Blocks.length_of_mem_split (by decide) (dvd_length_padded data) b hb), withCrc]

/-- 4096 is a multiple of 32, and the file has been padded before. -/
theorem crc16Chunks_eq (file : List UInt8) : crc16Chunks file = expand file := by
  induction file using Blocks.induction (n := 4096) (by decide) with
  | nil =>
    rw [crc16Chunks, List.take_nil, if_pos rfl, expand_nil]
  | step file hne ih =>
    have htake : file.take 4096 ≠ [] := fun h => hne ((List.take_eq_nil_iff.1 h).resolve_left (by decide))
    rw [crc16Chunks, if_neg htake, ih, crc16Data_eq]
    by_cases hlen : 4096 ≤ file.length
    · rw [← expand_append (by rw [List.length_take_of_le hlen]; decide), List.take_append_drop]
    · rw [List.drop_eq_nil_of_le (by omega), List.take_of_length_le (by omega), expand_nil, List.append_nil]

variable {fs : Files.Store Path} {file : Path}

theorem read_eq_ok (h : fs file = some data) : read fs file = .ok data :=
  Raise.orRaise_eq_ok.2 h

theorem fileAlignHandle_write (fs : Files.Store Path) (file : Path) (data : List UInt8) :
    fileAlignHandle (Files.write fs file data) file = .ok (Files.write fs file (padded data)) := by
  unfold fileAlignHandle
  rw [read_eq_ok Files.write_self, Raise.ok_bind, ← dataAlignHandle_eq, dataAlignHandle]
  split
  · rfl
  · rw [Files.write_write]

variable {outputFile : Path}

theorem crc16Handle_eq (h : fs file = some data) :
    crc16Handle fs file outputFile = .ok (Files.write (Files.unlink fs outputFile) outputFile (expand data)) := by
  unfold crc16Handle
  rw [read_eq_ok h, Raise.ok_bind]
  dsimp only
  rw [Files.ite_unlink, crc16Chunks_eq]

theorem crcFile_eq_ok {rawFile : Path} (hraw : fs rawFile = some data)
    (hcopy : rawFile ≠ operateFile rawFile) (hout : outputFile ≠ operateFile rawFile) :
    ∃ fs', crcFile fs rawFile outputFile = .ok fs' ∧ fs' outputFile = some (expand data) ∧
      fs' (operateFile rawFile) = none ∧ ∀ file, file ≠ outputFile → file ≠ operateFile rawFile →
        fs' file = fs file := by
  have hread : read (Files.unlink fs (operateFile rawFile)) rawFile = .ok data :=
    read_eq_ok ((Files.unlink_of_ne hcopy).trans hraw)
  have hbackup : backupFile fs rawFile =
      .ok (Files.write (Files.unlink fs (operateFile rawFile)) (operateFile rawFile) data) := by
    unfold backupFile
    dsimp only
    rw [Files.ite_unlink, hread, Raise.ok_bind]
  unfold crcFile
  rw [hbackup, Raise.ok_bind, fileAlignHandle_write, Raise.ok_bind, crc16Handle_eq Files.write_self, Raise.ok_bind]
  rw [read_eq_ok ((Files.write_of_ne hout.symm).trans ((Files.unlink_of_ne hout.symm).trans Files.write_self)),
    Raise.ok_bind]
  refine ⟨_, rfl, ?_, Files.unlink_self, fun file hfile hfile' => ?_⟩
  · rw [Files.unlink_of_ne hout, Files.write_self, expand_padded]
  · rw [Files.unlink_of_ne hfile', Files.write_of_ne hfile, Files.unlink_of_ne hfile, Files.write_of_ne hfile',
      Files.unlink_of_ne hfile']

end BkCrc16

theorem guardedCrc16_block (h : block.length = 32) : guardedCrc16 block 0 32 = .ok (Crc16.crc block) := by
  have hcrc := guardedCrc16_append [] block []
  rwa [List.nil_append, List.append_nil, h] at hcrc

theorem crcBlocks_eq : ∀ {k : Nat} {f : List UInt8}, 32 * k ≤ f.length →
    crcBlocks k f = .ok (expand (f.take (32 * k)), f.drop (32 * k))
  | 0, f, _ => by rw [Nat.mul_zero, List.take_zero, List.drop_zero, expand_nil]; rfl
  | k + 1, f, h => by
    have hblock : (f.take 32).length = 32 := List.length_take_of_le (by omega)
    have hrest : 32 * k ≤ (f.drop 32).length := by
      rw [List.length_drop]
      omega
    have htake : f.take (32 * (k + 1)) = f.take 32 ++ (f.drop 32).take (32 * k) := by
      rw [Nat.mul_succ, Nat.add_comm, List.take_add]
    have hdrop : f.drop (32 * (k + 1)) = (f.drop 32).drop (32 * k) := by
      rw [Nat.mul_succ, Nat.add_comm, List.drop_drop]
    rw [crcBlocks, guardedCrc16_block hblock, Raise.ok_bind, crcBlocks_eq hrest, Raise.ok_bind, htake, hdrop,
      expand_append ⟨1, hblock⟩, expand_block hblock, withCrc]

theorem crcWrite_eq (h : data.length < 2 ^ 53) : crcWrite data.length data = .ok (expand data) := by
  have hdiv : Py.truncDivPow data.length 5 = some (data.length / 32) := Py.truncDivPow_of_lt h 5
  have hwhole : 32 * (data.length / 32) ≤ data.length := by omega
  have hdvd : 32 ∣ (data.take (32 * (data.length / 32))).length := by
    rw [List.length_take_of_le hwhole]
    exact Nat.dvd_mul_right ..
  unfold crcWrite
  rw [hdiv, Raise.orRaise, Raise.ok_bind, crcBlocks_eq hwhole, Raise.ok_bind]
  dsimp only
  have hlen : (data.drop (32 * (data.length / 32))).length = data.length % 32 := by
    rw [List.length_drop]
    omega
  have hall : expand data =
      expand (data.take (32 * (data.length / 32))) ++ expand (data.drop (32 * (data.length / 32))) := by
    rw [← expand_append hdvd, List.take_append_drop]
  rw [hall]
  split
  · rename_i hlast
    have hpad : (data.drop (32 * (data.length / 32))).take (data.length % 32) ++
        List.replicate (32 - data.length % 32) 0xFF = padded (data.drop (32 * (data.length / 32))) := by
      rw [List.take_of_length_le hlen.le, padded, Blocks.pad, hlen, Nat.mod_mod,
        Nat.mod_eq_of_lt (by omega : 32 - data.length % 32 < 32)]
    have hblock : (padded (data.drop (32 * (data.length / 32)))).length = 32 := by
      rw [← hpad, List.length_append, List.length_replicate, List.take_of_length_le hlen.le, hlen]
      omega
    rw [hpad, guardedCrc16_block hblock, Raise.ok_bind, ← expand_padded (data.drop _), expand_block hblock, withCrc,
      List.append_assoc]
  · rename_i hlast
    have hnil : data.drop (32 * (data.length / 32)) = [] := List.eq_nil_of_length_eq_zero (by omega)
    rw [hnil, expand_nil, List.append_nil]

variable {fs : Files.Store (List Char)} {infile outfile : List Char}

theorem crcFiles_eq (hin : fs infile = some data) (hne : infile ≠ outfile) (h : data.length < 2 ^ 53) :
    crcFiles fs infile outfile = .ok (Files.write fs outfile (expand data)) := by
  have hin' : Files.write fs outfile [] infile = some data := (Files.write_of_ne hne).trans hin
  unfold crcFiles
  rw [Raise.orRaise_eq_ok.2 hin, Raise.ok_bind]
  dsimp only
  rw [Raise.orRaise_eq_ok.2 hin', Raise.ok_bind, crcWrite_eq h, Raise.ok_bind, Files.write_write]

theorem crcFiles_eq_ok {fs' : Files.Store (List Char)}
    (h : crcFiles fs infile outfile = .ok fs') : ∃ out, fs' = Files.write fs outfile out := by
  unfold crcFiles at h
  obtain ⟨data, -, h⟩ := Raise.bind_eq_ok.1 h
  obtain ⟨f, -, h⟩ := Raise.bind_eq_ok.1 h
  obtain ⟨out, -, h⟩ := Raise.bind_eq_ok.1 h
  cases h
  exact ⟨out, Files.write_write⟩

theorem OtaPackager.addCrc16_eq (hin : fs infile = some data)
    (hnames : infile ≠ [] ∧ outfile ≠ []) : addCrc16 fs infile outfile = crcFiles fs infile outfile := by
  have hexists : ¬(fs infile).isNone := by
    rw [hin]
    exact Bool.false_ne_true
  rw [addCrc16, if_neg (not_or.2 hnames), if_neg hexists]

theorem crcBlocks_short : ∀ {k : Nat} {f : List UInt8}, 32 * k < f.length → f.length < 32 * (k + 1) →
    crcBlocks (k + 1) f = .error .indexError
  | 0, f, hpos, hlt => by
    have hguard : guardedCrc16 f 0 32 = .error .indexError := by
      rw [guardedCrc16, if_neg (by omega), if_neg (by omega)]
    rw [crcBlocks, List.take_of_length_le (by omega), hguard, Raise.error_bind]
  | k + 1, f, hpos, hlt => by
    have hblock : (f.take 32).length = 32 := List.length_take_of_le (by omega)
    have hrest : crcBlocks (k + 1) (f.drop 32) = .error .indexError :=
      crcBlocks_short (by rw [List.length_drop]; omega) (by rw [List.length_drop]; omega)
    rw [crcBlocks, guardedCrc16_block hblock, Raise.ok_bind, hrest, Raise.error_bind]

theorem crcFiles_above (h : data.length = 2 ^ 53 + 31)
    (hin : fs infile = some data) (hne : infile ≠ outfile) : crcFiles fs infile outfile = .error .indexError := by
  have hin' : Files.write fs outfile [] infile = some data := (Files.write_of_ne hne).trans hin
  have hdiv : Py.truncDivPow (2 ^ 53 + 31) 5 = some (2 ^ 48 + 1) := by decide +kernel
  have hwrite : crcWrite data.length data = .error .indexError := by
    unfold crcWrite
    rw [h, hdiv, Raise.orRaise, Raise.ok_bind, crcBlocks_short (by omega) (by omega), Raise.error_bind]
  unfold crcFiles
  rw [Raise.orRaise_eq_ok.2 hin, Raise.ok_bind]
  dsimp only
  rw [Raise.orRaise_eq_ok.2 hin', Raise.ok_bind, hwrite, Raise.error_bind]

end

theorem crc_expansions_agree {data : List UInt8} (h : data.length < 2 ^ 53) {fs : Files.Store BkCrc16.Path}
    {rawFile outputFile : BkCrc16.Path} (hraw : fs rawFile = some data) (hcopy : rawFile ≠ BkCrc16.operateFile rawFile)
    (hout : outputFile ≠ BkCrc16.operateFile rawFile) {us : Files.Store (List Char)} {infile outfile : List Char}
    (hin : us infile = some data) (hne : infile ≠ outfile) (hnames : infile ≠ [] ∧ outfile ≠ []) :
    (∃ fs', BkCrc16.crcFile fs rawFile outputFile = .ok fs' ∧ fs' outputFile = some (BkCrc16.crc16Data data)) ∧
    (∃ us', BekenUtils.crc us infile outfile = .ok us' ∧ us' outfile = some (BkCrc16.crc16Data data)) ∧
    (∃ us', OtaPackager.addCrc16 us infile outfile = .ok us' ∧ us' outfile = some (BkCrc16.crc16Data data)) ∧
    (BkCrc16.crc16Data data).length = BkCrc16.computeCrcedSize data.length ∧
    ((Blocks.split 34 (BkCrc16.crc16Data data)).map (·.take 32)).flatten = Blocks.pad 32 0xFF data ∧
    ∀ block ∈ Blocks.split 34 (BkCrc16.crc16Data data), block.length = 34 ∧
      block.drop 32 = Codec.encode 2 (BkCrc16.crc16 (block.take 32) 0 32) := by
  rw [BkCrc16.crc16Data_eq]
  have hfiles := crcFiles_eq hin hne h
  have hadd : OtaPackager.addCrc16 us infile outfile = .ok (Files.write us outfile (expand data)) := by
    rw [OtaPackager.addCrc16_eq hin hnames, hfiles]
  refine ⟨?_, ⟨_, hfiles, Files.write_self⟩, ⟨_, hadd, Files.write_self⟩, length_expand data,
    flatten_take_expand data, ?_⟩
  · obtain ⟨fs', hfs', hexp, -⟩ := BkCrc16.crcFile_eq_ok hraw hcopy hout
    exact ⟨fs', hfs', hexp⟩
  · intro block hblock
    obtain ⟨hlen, hcrc⟩ := crc_of_mem_split_expand hblock
    rw [BkCrc16.crc16_block (by rw [List.length_take]; omega)]
    exact ⟨hlen, hcrc⟩

theorem crc_expansions_agree_forty :
    (∃ us', BekenUtils.crc (fun _ => some (List.replicate 40 0)) ['a'] ['b'] = .ok us' ∧
      us' ['b'] = some (BkCrc16.crc16Data (List.replicate 40 0))) ∧
    (BkCrc16.crc16Data (List.replicate 40 0)).length = 68 := by
  have hagree := @crc_expansions_agree (List.replicate 40 0) (by decide)
    (fun _ => some (List.replicate 40 0)) [['a']] [['b']]
    rfl (by decide) (by decide) (fun _ => some (List.replicate 40 0)) ['a'] ['b'] rfl (by decide) (by decide)
  exact ⟨hagree.2.1, hagree.2.2.2.1⟩

/-- A file of `2 ^ 53 + 31` bytes, which the first two scripts expand and the other two do not -/
theorem crc_expansions_differ :
    ∃ data : List UInt8, data.length = 2 ^ 53 + 31 ∧
      (BkCrc16.crc16Data data).length = BkCrc16.computeCrcedSize (2 ^ 53 + 31) ∧
      BekenUtils.crc (fun _ => some data) ['a'] ['b'] = .error .indexError ∧
      OtaPackager.addCrc16 (fun _ => some data) ['a'] ['b'] = .error .indexError := by
  have hlen : (List.replicate (2 ^ 53 + 31) (0 : UInt8)).length = 2 ^ 53 + 31 := List.length_replicate
  refine ⟨List.replicate (2 ^ 53 + 31) 0, hlen, ?_, crcFiles_above hlen rfl (by decide), ?_⟩
  · rw [BkCrc16.crc16Data_eq, length_expand, hlen]
  · rw [OtaPackager.addCrc16_eq rfl (by decide), crcFiles_above hlen rfl (by decide)]

end Bk7258

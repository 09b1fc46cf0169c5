import Bk7258.Lib.Codec
import Bk7258.Lib.Crc32
import Bk7258.Lib.Raise
import Bk7258.Tools.Misc

/-!
# The `BKDLV10.` container

A global header of 32 bytes, an image header of 32 bytes for each image, and the images. All numbers are big-endian. An
image header has the place of its image and its checksum. `decode` says what the format is for; the scripts only write
it.
-/

namespace Bk7258

/-- `struct.pack` of an unsigned number of `w` bytes -/
def structPack (w : Nat) (v : Int) : Except PyErr (List UInt8) :=
  if 0 ≤ v ∧ v < (256 ^ w : Nat) then .ok (Codec.encode w v.toNat) else .error .structError

/-- `struct.pack` of one field after the other -/
def structPacks (fields : List (Nat × Int)) : Except PyErr (List UInt8) := do
  let bss ← fields.mapM fun f => structPack f.1 f.2
  .ok bss.flatten

theorem structPack_eq_ok {w : Nat} {v : Int} {bs : List UInt8} :
    structPack w v = .ok bs ↔ (0 ≤ v ∧ v.toNat < 256 ^ w) ∧ bs = Codec.encode w v.toNat := by
  have hlt : ∀ h : 0 ≤ v, v.toNat < 256 ^ w ↔ v < (256 ^ w : Nat) := fun h => Int.toNat_lt h
  unfold structPack
  constructor
  · intro h
    split at h
    · rename_i hv
      exact ⟨⟨hv.1, (hlt hv.1).2 hv.2⟩, (Except.ok.inj h).symm⟩
    · cases h
  · rintro ⟨⟨hnn, hv⟩, rfl⟩
    exact if_pos ⟨hnn, (hlt hnn).1 hv⟩

theorem structPacks_append {l l' : List (Nat × Int)} :
    structPacks (l ++ l') = (do let bs ← structPacks l; let bs' ← structPacks l'; .ok (bs ++ bs')) := by
  unfold structPacks
  rw [List.mapM_append]
  cases l.mapM fun f => structPack f.1 f.2 with
  | error e => rfl
  | ok bss =>
    cases l'.mapM fun f => structPack f.1 f.2 with
    | error e => rfl
    | ok bss' => exact congrArg Except.ok List.flatten_append

theorem structPacks_eq_ok {fields : List (Nat × Int)} {bs : List UInt8} :
    structPacks fields = .ok bs ↔ (∀ f ∈ fields, 0 ≤ f.2 ∧ f.2.toNat < 256 ^ f.1) ∧
      bs = (fields.map fun f => Codec.encode f.1 f.2.toNat).flatten := by
  unfold structPacks
  rw [Raise.bind_eq_ok]
  constructor
  · rintro ⟨bss, h, hbs⟩
    obtain ⟨hfit, rfl⟩ := (Raise.mapM_iff fun _ _ => structPack_eq_ok).1 h
    exact ⟨hfit, (Except.ok.inj hbs).symm⟩
  · rintro ⟨hfit, rfl⟩
    exact ⟨_, (Raise.mapM_iff fun _ _ => structPack_eq_ok).2 ⟨hfit, rfl⟩, rfl⟩

/-- `bk_crc32.crc_data`; `crc32_table` is the table of `Crc32.entry`. -/
def crcData (bs : List UInt8) : UInt32 := Crc32.crc 0xFFFFFFFF bs

def containerMagic : List UInt8 := [0x42, 0x4B, 0x44, 0x4C, 0x56, 0x31, 0x30, 0x2E]

structure ImgHeader where
  partitionOffset : Nat
  partitionSize : Nat
  flashStartAddr : Nat
  imgOffset : Nat
  imgLen : Nat
  checksum : Nat
  version : Nat
  type : Nat
  reserved : Nat
deriving DecidableEq, Repr

namespace ImgHeader

/-- Width and value of each field -/
def fields (h : ImgHeader) : List (Nat × Nat) :=
  [(4, h.partitionOffset), (4, h.partitionSize), (4, h.flashStartAddr), (4, h.imgOffset), (4, h.imgLen),
    (4, h.checksum),
    (4, h.version), (2, h.type), (2, h.reserved)]

def encode (h : ImgHeader) : List UInt8 := (h.fields.map fun f => Codec.encode f.1 f.2).flatten

def Fits (h : ImgHeader) : Prop := ∀ f ∈ h.fields, f.2 < 256 ^ f.1

def read (bs : List UInt8) : Option (ImgHeader × List UInt8) := do
  let (partitionOffset, bs) ← Codec.read 4 bs
  let (partitionSize, bs) ← Codec.read 4 bs
  let (flashStartAddr, bs) ← Codec.read 4 bs
  let (imgOffset, bs) ← Codec.read 4 bs
  let (imgLen, bs) ← Codec.read 4 bs
  let (checksum, bs) ← Codec.read 4 bs
  let (version, bs) ← Codec.read 4 bs
  let (type, bs) ← Codec.read 2 bs
  let (reserved, bs) ← Codec.read 2 bs
  some (⟨partitionOffset, partitionSize, flashStartAddr, imgOffset, imgLen, checksum, version, type, reserved⟩, bs)

theorem length_encode (h : ImgHeader) : h.encode.length = 32 := by
  simp [encode, fields]

theorem read_encode {h : ImgHeader} (hf : h.Fits) (rest : List UInt8) : read (h.encode ++ rest) = some (h, rest) := by
  simp only [Fits, fields, List.forall_mem_cons] at hf
  obtain ⟨h₁, h₂, h₃, h₄, h₅, h₆, h₇, h₈, h₉, -⟩ := hf
  simp only [encode, fields, List.map_cons, List.map_nil, List.flatten_cons, List.flatten_nil, List.append_assoc]
  unfold read
  exact (Codec.bind_read_encode h₁).trans <| (Codec.bind_read_encode h₂).trans <| (Codec.bind_read_encode h₃).trans <|
    (Codec.bind_read_encode h₄).trans <| (Codec.bind_read_encode h₅).trans <| (Codec.bind_read_encode h₆).trans <|
    (Codec.bind_read_encode h₇).trans <| (Codec.bind_read_encode h₈).trans <| Codec.bind_read_encode h₉

theorem structPacks_eq_ok {h : ImgHeader} {fields : List (Nat × Int)} {bs : List UInt8}
    (hh : h.fields = fields.map fun f => (f.1, f.2.toNat)) :
    structPacks fields = .ok bs ↔ ((∀ f ∈ fields, 0 ≤ f.2) ∧ h.Fits) ∧ bs = h.encode := by
  unfold Fits encode
  rw [Bk7258.structPacks_eq_ok, hh, List.forall_mem_map, List.map_map]
  refine and_congr_left fun _ => ?_
  exact ⟨fun hf => ⟨fun f hm => (hf f hm).1, fun f hm => (hf f hm).2⟩, fun hf f hm => ⟨hf.1 f hm, hf.2 f hm⟩⟩

end ImgHeader

/-- The global header from its version on: version, header length, number of images, flags and two reserved words -/
def headerInfo (imgNum : Nat) : List UInt8 :=
  Codec.encode 4 1 ++ Codec.encode 2 32 ++ Codec.encode 2 imgNum ++ Codec.encode 4 0 ++ Codec.encode 4 0 ++
    Codec.encode 4 0

theorem length_headerInfo (imgNum : Nat) : (headerInfo imgNum).length = 20 := by
  simp only [headerInfo, List.length_append, Codec.length_encode]

def globalHeader (crc : UInt32) (imgNum : Nat) : List UInt8 :=
  containerMagic ++ Codec.encode 4 crc.toNat ++ headerInfo imgNum

/-- The global header of both encoders; `crc` is what they take for its checksum, given the header information. -/
theorem packGlobalHeader_eq_ok {imgNum : Nat} {crc : List UInt8 → UInt32} {bs : List UInt8} :
    (do
      let info ← structPacks [(4, 1), (2, 32), (2, imgNum), (4, 0), (4, 0), (4, 0)]
      let crcBytes ← structPack 4 (crc info).toNat
      .ok (containerMagic ++ crcBytes ++ info)) = Except.ok bs ↔
    imgNum < 256 ^ 2 ∧ bs = globalHeader (crc (headerInfo imgNum)) imgNum := by
  have hinfo : ∀ info, structPacks [(4, 1), (2, 32), (2, imgNum), (4, 0), (4, 0), (4, 0)] = .ok info ↔
      imgNum < 256 ^ 2 ∧ info = headerInfo imgNum := by
    intro info
    rw [structPacks_eq_ok]
    simp [headerInfo]
  have hcrc : ∀ (c : UInt32) cs, structPack 4 c.toNat = .ok cs ↔ cs = Codec.encode 4 c.toNat := by
    intro c cs
    rw [structPack_eq_ok]
    simp [c.toNat_lt]
  simp only [Raise.bind_eq_ok, hinfo, hcrc]
  constructor
  · rintro ⟨_, ⟨hn, rfl⟩, _, rfl, h⟩
    exact ⟨hn, (Except.ok.inj h).symm⟩
  · rintro ⟨hn, rfl⟩
    exact ⟨_, ⟨hn, rfl⟩, _, rfl, rfl⟩

theorem length_globalHeader (crc : UInt32) (imgNum : Nat) : (globalHeader crc imgNum).length = 32 := by
  simp only [globalHeader, List.length_append, Codec.length_encode, length_headerInfo]
  rfl

def readGlobalHeader (bs : List UInt8) : Option (Nat × List UInt8) := do
  if bs.take 8 = containerMagic then
    let (crc, info) ← Codec.read 4 (bs.drop 8)
    if crc = (crcData (info.take 20)).toNat then
      let (_, bs) ← Codec.read 4 info
      let (_, bs) ← Codec.read 2 bs
      let (imgNum, bs) ← Codec.read 2 bs
      some (imgNum, bs.drop 12)
    else none
  else none

theorem readGlobalHeader_encode {imgNum : Nat} (h : imgNum < 256 ^ 2) (rest : List UInt8) :
    readGlobalHeader (globalHeader (crcData (headerInfo imgNum)) imgNum ++ rest) = some (imgNum, rest) := by
  have hmagic : containerMagic.length = 8 := rfl
  have hcrc : (crcData (headerInfo imgNum)).toNat < 256 ^ 4 := UInt32.toNat_lt _
  unfold readGlobalHeader globalHeader
  rw [List.append_assoc, List.append_assoc, List.take_left' hmagic, if_pos rfl, List.drop_left' hmagic,
    Codec.bind_read_encode hcrc]
  dsimp only
  rw [List.take_left' (length_headerInfo imgNum), if_pos rfl]
  have h1 : (1 : Nat) < 256 ^ 4 := by decide
  have h32 : (32 : Nat) < 256 ^ 2 := by decide
  simp only [headerInfo, List.append_assoc]
  exact (Codec.bind_read_encode h1).trans <| (Codec.bind_read_encode h32).trans <| (Codec.bind_read_encode h).trans rfl

structure Image where
  addr : Int
  size : Int
  data : List UInt8
deriving DecidableEq, Repr

def ImgHeader.image (bs : List UInt8) (h : ImgHeader) : Option Image :=
  let data := (bs.drop h.imgOffset).take h.imgLen
  if data.length = h.imgLen ∧ (crcData data).toNat = h.checksum then some ⟨h.partitionOffset, h.partitionSize, data⟩
  else none

def decode (bs : List UInt8) : Option (List Image) := do
  let (imgNum, table) ← readGlobalHeader bs
  let (headers, _) ← Codec.readN ImgHeader.read imgNum table
  headers.mapM (ImgHeader.image bs)

/-! ### The container of some headers -/

def container (crc : UInt32) (headers : List ImgHeader) (data : List UInt8) : List UInt8 :=
  globalHeader crc headers.length ++ (headers.map ImgHeader.encode).flatten ++ data

theorem length_of_mem_encode {headers : List ImgHeader} {bs : List UInt8} (h : bs ∈ headers.map ImgHeader.encode) :
    bs.length = 32 := by
  obtain ⟨hd, -, rfl⟩ := List.mem_map.1 h
  exact hd.length_encode

theorem length_front (crc : UInt32) (headers : List ImgHeader) :
    (globalHeader crc headers.length ++ (headers.map ImgHeader.encode).flatten).length = 32 + 32 * headers.length := by
  rw [List.length_append, length_globalHeader, Codec.length_flatten_of_forall fun _ => length_of_mem_encode,
    List.length_map]

theorem decode_container {headers : List ImgHeader} {data : List UInt8} (hnum : headers.length < 256 ^ 2)
    (hfit : ∀ h ∈ headers, h.Fits) : decode (container (crcData (headerInfo headers.length)) headers data) =
      headers.mapM (ImgHeader.image (container (crcData (headerInfo headers.length)) headers data)) := by
  have hread : Codec.readN ImgHeader.read headers.length ((headers.map ImgHeader.encode).flatten ++ data) =
      some (headers, data) :=
    Codec.readN_encode (fun h hm rest => ImgHeader.read_encode (hfit h hm) rest) data
  have hglobal : readGlobalHeader (container (crcData (headerInfo headers.length)) headers data) =
      some (headers.length, (headers.map ImgHeader.encode).flatten ++ data) := by
    rw [container, List.append_assoc]
    exact readGlobalHeader_encode hnum _
  unfold decode
  rw [hglobal, Option.bind_eq_bind, Option.bind_some]
  dsimp only
  rw [hread]
  rfl

end Bk7258

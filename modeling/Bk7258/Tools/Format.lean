import Bk7258.Lib.Segment
import Bk7258.Tools.Container
import Bk7258.Tools.PackJson

/-!
# `bk_packager_format_linker`

The linker first notes where each image will be, in a dictionary keyed by the partition name, and then writes the image
headers from it. Two partitions of one name share an entry, the one of the last of them. Nothing before the linker
checks the names.
-/

namespace Bk7258
open Function Raise

/-- `part_offset` after the loop of `_read_all_part_bin_content`. The first image of the list is at `offset`. -/
def partOffset : Nat → List PartitionInfo → (List Char → Option Nat) → List Char → Option Nat
  | _, [], d => d
  | offset, p :: ps, d => partOffset (offset + p.data.length) ps (update d p.name (some offset))

def allData (parts : List PartitionInfo) : List UInt8 := (parts.map (·.data)).flatten

def genImgHeader (offsets : List Char → Option Nat) (p : PartitionInfo) (partType : Nat) :
    Except PyErr (List UInt8) := do
  let place ← structPacks [(4, p.addr), (4, p.size), (4, p.addr)]
  let imgOffset ← orRaise .keyError (offsets p.name)
  let rest ← structPacks
    [(4, imgOffset), (4, p.data.length), (4, (crcData p.data).toNat), (4, 0), (2, partType), (2, 0)]
  .ok (place ++ rest)

def genGlobalHeader (imgNum : Nat) : Except PyErr (List UInt8) := do
  let headerInfo ← structPacks [(4, 1), (2, 32), (2, imgNum), (4, 0), (4, 0), (4, 0)]
  let crc ← structPack 4 (crcData headerInfo).toNat
  .ok (containerMagic ++ crc ++ headerInfo)

def formatLink (parts : List PartitionInfo) : Except PyErr (List UInt8) := do
  let offsets := partOffset (32 + 32 * parts.length) parts fun _ => none
  let global ← genGlobalHeader parts.length
  let imgTable ← parts.mapM fun p => genImgHeader offsets p 0
  .ok (global ++ imgTable.flatten ++ allData parts)

def formatPack (decimal : Char → Option (Fin 10)) (w : Workdir) (sections : List PackSection) :
    Except PyErr (List UInt8) := do
  let parts ← bkPackagerJson decimal w sections
  formatLink parts

/-! ### The headers that are written -/

def PartitionInfo.header (p : PartitionInfo) (imgOffset : Nat) : ImgHeader :=
  ⟨p.addr.toNat, p.size.toNat, p.addr.toNat, imgOffset, p.data.length, (crcData p.data).toNat, 0, 0, 0⟩

/-- What `struct.pack` asks of the values of a header -/
def PartitionInfo.HeaderFits (p : PartitionInfo) (imgOffset : Nat) : Prop :=
  (0 ≤ p.addr ∧ p.addr < 256 ^ 4) ∧ (0 ≤ p.size ∧ p.size < 256 ^ 4) ∧ p.data.length < 256 ^ 4 ∧ imgOffset < 256 ^ 4

variable {offsets : List Char → Option Nat} {p : PartitionInfo} {off : Nat} {bs : List UInt8}

theorem PartitionInfo.HeaderFits.fits (h : p.HeaderFits off) : (p.header off).Fits := by
  have hcrc : (crcData p.data).toNat < 256 ^ 4 := UInt32.toNat_lt _
  obtain ⟨haddr, hsize, hlen, hoff⟩ := h
  simp only [ImgHeader.Fits, ImgHeader.fields, PartitionInfo.header, List.forall_mem_cons]
  exact ⟨by omega, by omega, by omega, hoff, hlen, hcrc, by decide, by decide, by decide, List.forall_mem_nil _⟩

theorem packHeader_eq_ok : structPacks ([(4, p.addr), (4, p.size), (4, p.addr)] ++ [(4, (off : Int)),
      (4, (p.data.length : Int)), (4, ((crcData p.data).toNat : Int)), (4, 0), (2, (0 : Nat)), (2, 0)]) = .ok bs ↔
    p.HeaderFits off ∧ bs = (p.header off).encode := by
  rw [(p.header off).structPacks_eq_ok rfl]
  refine and_congr_left fun _ => ⟨?_, ?_⟩
  · rintro ⟨hnn, hfits⟩
    simp only [List.cons_append, List.forall_mem_cons] at hnn
    simp only [ImgHeader.Fits, ImgHeader.fields, PartitionInfo.header, List.forall_mem_cons] at hfits
    obtain ⟨haddr, hsize, -, hoff, hlen, -⟩ := hfits
    exact ⟨by omega, by omega, hlen, hoff⟩
  · intro h
    refine ⟨?_, h.fits⟩
    obtain ⟨haddr, hsize, -, -⟩ := h
    simp only [List.cons_append, List.nil_append, List.forall_mem_cons]
    exact ⟨haddr.1, hsize.1, haddr.1, by omega, by omega, by omega, le_rfl, le_rfl, le_rfl, List.forall_mem_nil _⟩

theorem genImgHeader_of_some (ho : offsets p.name = some off) :
    genImgHeader offsets p 0 = .ok bs ↔ p.HeaderFits off ∧ bs = (p.header off).encode := by
  refine Iff.trans ?_ packHeader_eq_ok
  have hbind : ∀ f : Nat → Except PyErr (List UInt8), (orRaise .keyError (some off) >>= f) = f off := fun _ => rfl
  rw [structPacks_append, genImgHeader, ho]
  simp only [hbind]

theorem genImgHeader_eq_ok : genImgHeader offsets p 0 = .ok bs ↔
    (∃ off, offsets p.name = some off ∧ p.HeaderFits off) ∧ bs = (p.header ((offsets p.name).getD 0)).encode := by
  cases ho : offsets p.name with
  | none =>
    simp [genImgHeader, Raise.bind_eq_ok, orRaise, ho]
  | some off =>
    rw [genImgHeader_of_some ho]
    simp

/-! ### Where the images are -/

/-- The images from the last one of the name on -/
def lastNamed (name : List Char) : List PartitionInfo → List PartitionInfo
  | [] => []
  | p :: ps => if name ∈ ps.map (·.name) then lastNamed name ps else if p.name = name then p :: ps else []

theorem lastNamed_cons (name : List Char) (p : PartitionInfo) (ps : List PartitionInfo) : lastNamed name (p :: ps) =
    if name ∈ ps.map (·.name) then lastNamed name ps else if p.name = name then p :: ps else [] := rfl

theorem partOffset_of_notMem {name : List Char} : ∀ {parts : List PartitionInfo} {offset : Nat}
    {d : List Char → Option Nat}, name ∉ parts.map (·.name) → partOffset offset parts d name = d name
  | [], _, _, _ => rfl
  | p :: ps, offset, d, h => by
    obtain ⟨hne, hps⟩ := not_or.1 (fun hor => h (List.mem_cons.2 hor))
    rw [partOffset, partOffset_of_notMem hps, update_of_ne hne]

/-- The dictionary has the place of the last image of a name. -/
theorem partOffset_lastNamed {name : List Char} : ∀ {parts : List PartitionInfo} (offset : Nat)
    (d : List Char → Option Nat), name ∈ parts.map (·.name) → ∃ front, allData parts = front ++
      allData (lastNamed name parts) ∧ partOffset offset parts d name = some (offset + front.length)
  | [], _, _, h => absurd h List.not_mem_nil
  | p :: ps, offset, d, h => by
    rw [partOffset, lastNamed_cons]
    by_cases hps : name ∈ ps.map (·.name)
    · obtain ⟨front, hdata, hoff⟩ :=
        partOffset_lastNamed (offset + p.data.length) (update d p.name (some offset)) hps
      refine ⟨p.data ++ front, ?_, ?_⟩
      · rw [if_pos hps, List.append_assoc, ← hdata]
        rfl
      · rw [hoff, List.length_append, Nat.add_assoc]
    · obtain rfl : name = p.name := (List.mem_cons.1 h).resolve_right hps
      refine ⟨[], ?_, ?_⟩
      · rw [if_neg hps, if_pos rfl]
        rfl
      · rw [partOffset_of_notMem hps, update_self]
        rfl

variable {parts : List PartitionInfo}

def formatOffset (parts : List PartitionInfo) (p : PartitionInfo) : Nat :=
  (partOffset (32 + 32 * parts.length) parts (fun _ => none) p.name).getD 0

theorem formatOffset_spec (hp : p ∈ parts) : ∃ front, allData parts = front ++ allData (lastNamed p.name parts) ∧
    partOffset (32 + 32 * parts.length) parts (fun _ => none) p.name = some (formatOffset parts p) ∧
      formatOffset parts p = 32 + 32 * parts.length + front.length := by
  have hname : p.name ∈ parts.map (·.name) := List.mem_map_of_mem hp
  obtain ⟨front, hdata, hoff⟩ := partOffset_lastNamed (32 + 32 * parts.length) (fun _ => none) hname
  have hval : formatOffset parts p = 32 + 32 * parts.length + front.length := by
    rw [formatOffset, hoff]
    rfl
  exact ⟨front, hdata, by rw [hoff, hval], hval⟩

def formatHeaders (parts : List PartitionInfo) : List ImgHeader := parts.map fun p => p.header (formatOffset parts p)

/-- Every number of the container fits its field, the places of the images included. -/
structure Packable (parts : List PartitionInfo) : Prop where
  count : parts.length < 256 ^ 2
  addr : ∀ p ∈ parts, 0 ≤ p.addr ∧ p.addr < 256 ^ 4
  size : ∀ p ∈ parts, 0 ≤ p.size ∧ p.size < 256 ^ 4
  data : ∀ p ∈ parts, p.data.length < 256 ^ 4
  place : ∀ p ∈ parts,
    32 + 32 * parts.length + (allData parts).length < 256 ^ 4 + (allData (lastNamed p.name parts)).length

theorem packable_iff :
    Packable parts ↔ parts.length < 256 ^ 2 ∧ ∀ p ∈ parts, p.HeaderFits (formatOffset parts p) := by
  have hplace : ∀ p ∈ parts, formatOffset parts p < 256 ^ 4 ↔
      32 + 32 * parts.length + (allData parts).length < 256 ^ 4 + (allData (lastNamed p.name parts)).length := by
    intro p hp
    obtain ⟨front, hdata, -, hval⟩ := formatOffset_spec hp
    rw [hval, hdata, List.length_append]
    omega
  constructor
  · rintro ⟨hcount, haddr, hsize, hdata, hpl⟩
    exact ⟨hcount, fun p hp => ⟨haddr p hp, hsize p hp, hdata p hp, (hplace p hp).2 (hpl p hp)⟩⟩
  · rintro ⟨hcount, h⟩
    exact ⟨hcount, fun p hp => (h p hp).1, fun p hp => (h p hp).2.1, fun p hp => (h p hp).2.2.1,
      fun p hp => (hplace p hp).1 (h p hp).2.2.2⟩

theorem formatHeaders_fit (h : Packable parts) : ∀ hd ∈ formatHeaders parts, hd.Fits := by
  intro hd hmem
  obtain ⟨p, hp, rfl⟩ := List.mem_map.1 hmem
  exact ((packable_iff.1 h).2 p hp).fits

variable {out : List UInt8}

theorem formatLink_eq_ok : formatLink parts = .ok out ↔
    Packable parts ∧ out = container (crcData (headerInfo parts.length)) (formatHeaders parts) (allData parts) := by
  have htable : ∀ bss, (parts.mapM fun p => genImgHeader
    (partOffset (32 + 32 * parts.length) parts fun _ => none) p 0) =
      .ok bss ↔ (∀ p ∈ parts, p.HeaderFits (formatOffset parts p)) ∧
        bss = (formatHeaders parts).map ImgHeader.encode := by
    intro bss
    rw [Raise.mapM_iff fun _ _ => genImgHeader_eq_ok, formatHeaders, List.map_map]
    refine and_congr_left fun _ => forall₂_congr fun p hp => ?_
    obtain ⟨_, -, hsome, -⟩ := formatOffset_spec hp
    rw [hsome]
    simp
  have hcont : ∀ global bss, global = globalHeader (crcData (headerInfo parts.length)) parts.length →
      bss = (formatHeaders parts).map ImgHeader.encode → global ++ bss.flatten ++ allData parts =
        container (crcData (headerInfo parts.length)) (formatHeaders parts) (allData parts) := by
    rintro _ _ rfl rfl
    rw [container, formatHeaders, List.length_map]
  unfold formatLink
  rw [packable_iff]
  constructor
  · intro h
    obtain ⟨global, hg, h⟩ := Raise.bind_eq_ok.1 h
    obtain ⟨bss, ht, h⟩ := Raise.bind_eq_ok.1 h
    obtain ⟨hnum, hglobal⟩ := packGlobalHeader_eq_ok.1 hg
    obtain ⟨hfit, hbss⟩ := (htable bss).1 ht
    exact ⟨⟨hnum, hfit⟩, (Except.ok.inj h).symm.trans (hcont _ _ hglobal hbss)⟩
  · rintro ⟨⟨hnum, hfit⟩, rfl⟩
    refine Raise.bind_eq_ok.2 ⟨_, packGlobalHeader_eq_ok.2 ⟨hnum, rfl⟩, ?_⟩
    exact Raise.bind_eq_ok.2 ⟨_, (htable _).2 ⟨hfit, rfl⟩, congrArg Except.ok (hcont _ _ rfl rfl)⟩

/-! ### Decoding -/

def PartitionInfo.image (p : PartitionInfo) : Image := ⟨p.addr, p.size, p.data⟩

theorem header_image (h : p.HeaderFits off) : (p.header off).image out = some p.image ↔ p.data <+: out.drop off := by
  obtain ⟨haddr, hsize, -, -⟩ := h
  unfold ImgHeader.image PartitionInfo.header PartitionInfo.image
  rw [List.prefix_iff_eq_take]
  dsimp only
  constructor
  · intro h
    split at h
    · exact (Image.mk.inj (Option.some.inj h)).2.2.symm
    · cases h
  · intro h
    rw [← h, if_pos ⟨rfl, rfl⟩, Int.toNat_of_nonneg haddr.1, Int.toNat_of_nonneg hsize.1]

/-- The container gives the images back, in order, exactly when each of them is found where the last of its name is. -/
theorem format_pack_decode {decimal : Char → Option (Fin 10)} {w : Workdir} {sections : List PackSection}
    {parts : List PartitionInfo} (h : bkPackagerJson decimal w sections = .ok parts) :
    (∃ out, formatPack decimal w sections = .ok out ∧ decode out = some (parts.map PartitionInfo.image)) ↔
      Packable parts ∧ ∀ p ∈ parts, p.data <+: allData (lastNamed p.name parts) := by
  have hlink : ∀ out, formatPack decimal w sections = .ok out ↔ formatLink parts = .ok out := by
    intro out
    unfold formatPack
    rw [h, Raise.ok_bind]
  simp only [hlink, formatLink_eq_ok, and_assoc, exists_and_left, exists_eq_left]
  refine and_congr_right fun hpack => ?_
  have hlen : (formatHeaders parts).length = parts.length := List.length_map ..
  have hdrop : ∀ p ∈ parts, (container (crcData (headerInfo (formatHeaders parts).length)) (formatHeaders parts)
      (allData parts)).drop (formatOffset parts p) = allData (lastNamed p.name parts) := by
    intro p hp
    obtain ⟨front, hdata, -, hval⟩ := formatOffset_spec hp
    rw [container, hdata, ← List.append_assoc, List.drop_left']
    rw [List.length_append, length_front, hval, hlen]
  rw [← hlen, decode_container (hlen ▸ hpack.count) ?_]
  · generalize container (crcData (headerInfo (formatHeaders parts).length)) (formatHeaders parts) (allData parts) = out
      at hdrop ⊢
    rw [formatHeaders, Codec.mapM_map_eq_some]
    exact forall₂_congr fun p hp => by rw [header_image ((packable_iff.1 hpack).2 p hp), hdrop p hp]
  · exact formatHeaders_fit hpack

def sampleWorkdir : Workdir where
  path name := "/work/" ++ String.ofList name
  file name := if name = "a.bin".toList then some [1] else if name = "b.bin".toList then some [2, 3] else none

def sampleSections (a b : String) : List PackSection :=
  [⟨"b.bin".toList, b.toList, "0x1000".toList, "1K".toList⟩, ⟨"a.bin".toList, a.toList, "0x0".toList, "4K".toList⟩]

theorem format_pack_decode_sample :
    ∃ out, formatPack (fun _ => none) sampleWorkdir (sampleSections "boot" "app") = .ok out ∧
      decode out = some [⟨0, 4096, [1]⟩, ⟨4096, 1024, [2, 3]⟩] := by
  have hjson : bkPackagerJson (fun _ => none) sampleWorkdir (sampleSections "boot" "app") =
      .ok [⟨0, 4096, "boot".toList, [1]⟩, ⟨4096, 1024, "app".toList, [2, 3]⟩] := by
    decide +kernel
  exact (format_pack_decode hjson).2 ⟨⟨by decide, by decide, by decide, by decide, by decide⟩, by decide⟩

theorem format_duplicate_name :
    ∃ out, formatPack (fun _ => none) sampleWorkdir (sampleSections "app" "app") = .ok out ∧ decode out = none ∧
      bkPackagerJson (fun _ => none) sampleWorkdir (sampleSections "app" "app") =
        .ok [⟨0, 4096, "app".toList, [1]⟩, ⟨4096, 1024, "app".toList, [2, 3]⟩] := by
  decide +kernel

end Bk7258

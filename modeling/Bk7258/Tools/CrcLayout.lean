import Mathlib.Data.Int.ConditionallyCompleteOrder
import Bk7258.Flash.Cbus
import Bk7258.Lib.Segment
import Bk7258.Tools.BekenUtils.Common
import Bk7258.Tools.CrcExpand

/-!
# Sizes and addresses with CRC

Three scripts say beforehand how long a file gets by its CRCs; `crc_size` of `ota_packager_python` does not count the
last block. `virtual2phy` says where a byte of the input is in the expanded file. The firmware converts addresses by
macros on `uint32_t`.
-/

namespace Bk7258
open Files

/-! ### Predicted sizes -/

inductive CrcTool
  | otaPackager
  | bekenUtils
  | bkCrc16
deriving DecidableEq, Repr

namespace CrcTool

def crcSize : CrcTool → Nat → Nat
  | otaPackager, n => OtaPackager.crcSize n
  | bekenUtils, n => (BekenUtils.crcSize n).toNat
  | bkCrc16, n => BkCrc16.computeCrcedSize n

def expansion : CrcTool → List UInt8 → Except CrcErr (List UInt8)
  | otaPackager, data => crcWrite data.length data
  | bekenUtils, data => crcWrite data.length data
  | bkCrc16, data => .ok (BkCrc16.crc16Data data)

end CrcTool

/-- The loop of `merge_image` over pairs of `crc_start_addr` and `crc_buf` -/
def mergeImage (imgs : List (Nat × List UInt8)) : List UInt8 :=
  imgs.foldl (fun f img => writeAt f img.1 img.2) []

/-- Expanded files, each placed after the one before by the size that is said of it -/
def placed (t : CrcTool) : Nat → List (List UInt8) → List (Nat × List UInt8)
  | _, [] => []
  | addr, data :: rest => (addr, expand data) :: placed t (addr + t.crcSize data.length) rest

section
variable {t : CrcTool} {data : List UInt8}

theorem CrcTool.expansion_eq (h : t = .bkCrc16 ∨ data.length < 2 ^ 53) : t.expansion data = .ok (expand data) := by
  cases t with
  | otaPackager | bekenUtils => exact crcWrite_eq (h.resolve_left (by decide))
  | bkCrc16 => exact congrArg _ (BkCrc16.crc16Data_eq data)

theorem otaPackager_crcSize_eq_iff : OtaPackager.crcSize data.length = (expand data).length ↔ 32 ∣ data.length := by
  rw [length_expand, OtaPackager.crcSize, BkCrc16.computeCrcedSize, Nat.shiftRight_eq_div_pow]
  omega

theorem CrcTool.crcSize_eq (h : t = .otaPackager → 32 ∣ data.length) :
    t.crcSize data.length = (expand data).length := by
  cases t with
  | otaPackager => exact otaPackager_crcSize_eq_iff.2 (h rfl)
  | bekenUtils =>
    rw [length_expand, CrcTool.crcSize, BekenUtils.crcSize, BkCrc16.computeCrcedSize]
    omega
  | bkCrc16 => exact (length_expand data).symm

/-! ### Images one after another -/

theorem writeAt_of_le {file bs : List UInt8} {offset : Nat} (h : file.length ≤ offset) :
    writeAt file offset bs = file ++ List.replicate (offset - file.length) 0 ++ bs := by
  rw [writeAt, List.take_of_length_le h, List.drop_eq_nil_of_le (by omega), List.append_nil]

theorem foldl_writeAt {imgs : List (Nat × List UInt8)} (hapart : imgs.Pairwise fun p q => p.1 + p.2.length ≤ q.1) :
    ∀ {file : List UInt8}, (∀ p ∈ imgs, file.length ≤ p.1) →
      ∃ rest, imgs.foldl (fun f img => writeAt f img.1 img.2) file = file ++ rest ∧
        ∀ p ∈ imgs, Segment.At (file ++ rest) p.1 p.2 := by
  induction imgs with
  | nil => exact fun {file} _ => ⟨[], (List.append_nil file).symm, fun _ hp => absurd hp List.not_mem_nil⟩
  | cons img imgs ih =>
    intro file hfile
    obtain ⟨himg, hrest⟩ := List.pairwise_cons.1 hapart
    have hstart : file.length ≤ img.1 := hfile img (List.mem_cons_self ..)
    have hpre : (file ++ List.replicate (img.1 - file.length) 0).length = img.1 := by
      rw [List.length_append, List.length_replicate]
      omega
    have hlen : (file ++ List.replicate (img.1 - file.length) 0 ++ img.2).length = img.1 + img.2.length := by
      rw [List.length_append, hpre]
    obtain ⟨rest, hfold, hat⟩ := ih hrest fun p hp => hlen.le.trans (himg p hp)
    refine ⟨List.replicate (img.1 - file.length) 0 ++ img.2 ++ rest, ?_, ?_⟩
    · rw [List.foldl_cons, writeAt_of_le hstart, hfold]
      simp only [List.append_assoc]
    · rw [← List.append_assoc, ← List.append_assoc]
      refine List.forall_mem_cons.2 ⟨?_, hat⟩
      exact ⟨file ++ List.replicate (img.1 - file.length) 0, rest, hpre, rfl⟩

theorem addr_le_of_mem_placed : ∀ {datas : List (List UInt8)} {addr : Nat}, ∀ p ∈ placed t addr datas, addr ≤ p.1
  | [], _, _, hp => absurd hp List.not_mem_nil
  | _ :: _, addr, p, hp => by
    rcases List.mem_cons.1 hp with rfl | hp
    · exact le_rfl
    · exact (Nat.le_add_right ..).trans (addr_le_of_mem_placed p hp)

theorem placed_apart : ∀ {datas : List (List UInt8)}, (∀ d ∈ datas, t.crcSize d.length = (expand d).length) →
    ∀ addr, (placed t addr datas).Pairwise fun p q => p.1 + p.2.length ≤ q.1
  | [], _, _ => .nil
  | d :: datas, h, addr => by
    obtain ⟨hd, hdatas⟩ := List.forall_mem_cons.1 h
    refine List.pairwise_cons.2 ⟨fun q hq => ?_, placed_apart hdatas _⟩
    rw [← hd]
    exact addr_le_of_mem_placed q hq

end

/-- The sizes said beforehand are those of the expanded files, and files placed by them are all in the image; for
`crc_size` if the sizes are multiples of 32. -/
theorem crc_size_exact (t : CrcTool) {datas : List (List UInt8)} (h32 : t = .otaPackager → ∀ d ∈ datas, 32 ∣ d.length)
    (addr : Nat) :
    (∀ d ∈ datas, ∀ t' : CrcTool, (t' = .bkCrc16 ∨ d.length < 2 ^ 53) →
      ∃ out, t'.expansion d = .ok out ∧ out.length = t.crcSize d.length) ∧
    (∀ p ∈ placed t addr datas, Segment.At (mergeImage (placed t addr datas)) p.1 p.2) ∧
    ∀ d : List UInt8, (CrcTool.crcSize .otaPackager d.length = (expand d).length ↔ 32 ∣ d.length) := by
  have hsize : ∀ d ∈ datas, t.crcSize d.length = (expand d).length :=
    fun d hd => CrcTool.crcSize_eq fun ht => h32 ht d hd
  refine ⟨fun d hd t' ht' => ⟨_, CrcTool.expansion_eq ht', (hsize d hd).symm⟩, ?_, fun _ => otaPackager_crcSize_eq_iff⟩
  have hempty : ∀ p ∈ placed t addr datas, ([] : List UInt8).length ≤ p.1 := fun _ _ => Nat.zero_le _
  obtain ⟨rest, hfold, hat⟩ := foldl_writeAt (placed_apart hsize addr) hempty
  rw [mergeImage, hfold]
  exact hat

theorem crc_size_exact_forty :
    ((placed .bekenUtils 4 [[1], List.replicate 40 7, [2]]).map (·.1) = [4, 38, 106] ∧
      ∀ p ∈ placed .bekenUtils 4 [[1], List.replicate 40 7, [2]],
        Segment.At (mergeImage (placed .bekenUtils 4 [[1], List.replicate 40 7, [2]])) p.1 p.2) ∧
    (placed .otaPackager 4 [List.replicate 32 1, List.replicate 64 7]).map (·.1) = [4, 38] ∧
      ∀ p ∈ placed .otaPackager 4 [List.replicate 32 1, List.replicate 64 7],
        Segment.At (mergeImage (placed .otaPackager 4 [List.replicate 32 1, List.replicate 64 7])) p.1 p.2 :=
  ⟨⟨by decide +kernel, (crc_size_exact .bekenUtils (fun h => absurd h (by decide)) 4).2.1⟩, by decide +kernel,
    (crc_size_exact .otaPackager (fun _ => by decide) 4).2.1⟩

theorem crc_size_too_small :
    CrcTool.crcSize .otaPackager 1 = 0 ∧
      (∃ out, CrcTool.expansion .otaPackager [1] = .ok out ∧ out.length = 34) ∧
      placed .otaPackager 0 [[1], [2]] = [(0, expand [1]), (0, expand [2])] ∧
      mergeImage (placed .otaPackager 0 [[1], [2]]) = expand [2] ∧ expand [1] ≠ expand [2] := by
  have hone : ([1] : List UInt8).length < 2 ^ 53 := by decide
  refine ⟨rfl, ⟨_, CrcTool.expansion_eq (.inr hone), by decide +kernel⟩, rfl, by decide +kernel, by decide +kernel⟩

/-! ### Addresses -/

namespace BekenUtils

theorem virtual2phy_strictMono : StrictMono virtual2phy := by
  intro a b h
  unfold virtual2phy
  omega

theorem virtual2phy_phy2virtual_iff (p : Int) : virtual2phy (phy2virtual p) = p ↔ p % 34 < 32 := by
  unfold virtual2phy phy2virtual
  omega

theorem virtual2phy_natCast (a : Nat) : virtual2phy a = (a / 32 * 34 + a % 32 : Nat) := by
  unfold virtual2phy
  omega

theorem phy2virtual_natCast (p : Nat) : phy2virtual p = (p / 34 * 32 + p % 34 : Nat) := by
  unfold phy2virtual
  omega

end BekenUtils

/-- The conversions undo each other where they can, and the macros of the firmware are the functions of the scripts. -/
theorem flash_addresses_converted :
    (∀ a : Int, BekenUtils.phy2virtual (BekenUtils.virtual2phy a) = a) ∧ StrictMono BekenUtils.virtual2phy ∧
    (∀ p : Int, BekenUtils.virtual2phy (BekenUtils.phy2virtual p) = p ↔ p % 34 < 32) ∧
    ∀ x : UInt32, x.toNat < 2 ^ 24 →
      ((phyToLogical x).toNat : Int) = BekenUtils.phy2virtual x.toNat ∧
      ((PartitionCfg.logicalToPhy x).toNat : Int) = BekenUtils.virtual2phy x.toNat ∧
      x.toNat / 34 * 32 + x.toNat % 34 < 2 ^ 32 ∧ x.toNat / 32 * 34 + x.toNat % 32 < 2 ^ 32 := by
  refine ⟨BekenUtils.phy2virtual_virtual2phy, BekenUtils.virtual2phy_strictMono, BekenUtils.virtual2phy_phy2virtual_iff,
    fun x hx => ?_⟩
  have hphy : x.toNat / 32 * 34 + x.toNat % 32 < 2 ^ 32 := by omega
  refine ⟨?_, ?_, by omega, hphy⟩
  · rw [toNat_phyToLogical, BekenUtils.phy2virtual_natCast]
  · rw [toNat_logicalToPhy, toPhy, Nat.mod_eq_of_lt (show _ < 0x100000000 from hphy), BekenUtils.virtual2phy_natCast]

end Bk7258

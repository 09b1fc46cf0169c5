import Mathlib.Data.Nat.Bitwise
import Bk7258.Lib.Crc

/-!
# A CRC-16 of `0x8005` in a register that grows

The register is a number without a width: nothing is cut off before the end, where its lowest 16 bits are the result.
Bits above them are never read, so they go through the steps of a register of 16 bits (`ofNat_shift`, `crc_eq`).
-/

namespace Crc16

def shift (crc : Nat) : Nat := if crc &&& 0x8000 ≠ 0 then (crc <<< 1) ^^^ 0x8005 else crc <<< 1

def update (crc : Nat) (b : UInt8) : Nat := shift^[8] (crc ^^^ (b.toNat <<< 8))

def crc (bs : List UInt8) : Nat := bs.foldl update 0xFFFFFFFF &&& 0xFFFF

theorem ofNat_xor (m n : Nat) : BitVec.ofNat 16 (m ^^^ n) = BitVec.ofNat 16 m ^^^ BitVec.ofNat 16 n := by
  apply BitVec.eq_of_getLsbD_eq
  intro i hi
  simp [hi]

theorem ofNat_shift (n : Nat) : BitVec.ofNat 16 (shift n) = Crc.shift 0x8005#16 (BitVec.ofNat 16 n) := by
  have hleft : BitVec.ofNat 16 (n <<< 1) = BitVec.ofNat 16 n <<< 1 := by
    apply BitVec.eq_of_toNat_eq
    simp [Nat.shiftLeft_eq]
  have htop : n &&& 0x8000 ≠ 0 ↔ (BitVec.ofNat 16 n).msb = true := by
    rw [BitVec.msb_eq_getLsbD_last, BitVec.getLsbD_ofNat, show 0x8000 = 2 ^ 15 from rfl, Nat.and_two_pow]
    cases n.testBit 15 <;> decide
  unfold shift Crc.shift Crc.bit
  rw [Bool.xor_false]
  by_cases h : n &&& 0x8000 ≠ 0
  · rw [if_pos h, if_pos (htop.1 h), ofNat_xor, hleft]
  · rw [if_neg h, if_neg (mt htop.2 h), hleft]

theorem ofNat_update (n : Nat) (b : UInt8) :
    BitVec.ofNat 16 (update n b) = (Crc.msbFirst b.toBitVec).foldl (Crc.bit 0x8005#16) (BitVec.ofNat 16 n) := by
  have hbyte : ∀ b : BitVec 8, (Crc.msbFirst b).foldl (Crc.bit 0x8005#16) 0#16 =
      (Crc.shift 0x8005#16)^[8] (BitVec.ofNat 16 (b.toNat <<< 8)) := by decide +kernel
  rw [Crc.foldl_msbFirst (hbyte _), ← ofNat_xor]
  exact (Function.Semiconj.iterate_right ofNat_shift 8) _

theorem crc_eq (bs : List UInt8) : crc bs = (Crc.crc 0x8005#16 0xFFFF#16 (bs.map UInt8.toBitVec)).toNat := by
  have hfold : ∀ n, BitVec.ofNat 16 (bs.foldl update n) = Crc.crc 0x8005#16 (BitVec.ofNat 16 n)
      (bs.map UInt8.toBitVec) := by
    induction bs with
    | nil => exact fun _ => rfl
    | cons b bs ih =>
      intro n
      rw [List.foldl_cons, ih, ofNat_update, List.map_cons, Crc.crc_cons]
  have hinit : 0xFFFF#16 = BitVec.ofNat 16 0xFFFFFFFF := by decide
  rw [hinit, ← hfold, BitVec.toNat_ofNat]
  exact Nat.and_two_pow_sub_one_eq_mod _ 16

end Crc16

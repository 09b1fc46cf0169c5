import Mathlib.Data.BitVec
import Mathlib.Logic.Function.Iterate

/-!
# CRC, bit by bit

The bit that leaves the register at its top and the next bit of the message are added; if the sum is set, the polynomial
is added to the shifted register. Everything is linear in exclusive or, so the register can be shifted on its own and
the message added later (`foldl_bit`): a loop over bytes, or a table, is the same function.
-/

namespace Crc
variable {w : Nat} (poly : BitVec w)

def bit (crc : BitVec w) (b : Bool) : BitVec w := if crc.msb ^^ b then crc <<< 1 ^^^ poly else crc <<< 1

def msbFirst (b : BitVec 8) : List Bool := (List.range 8).map b.getMsbD

def crc (init : BitVec w) (bytes : List (BitVec 8)) : BitVec w := (bytes.flatMap msbFirst).foldl (bit poly) init

def shift (crc : BitVec w) : BitVec w := bit poly crc false

variable {poly} {c d : BitVec w}

theorem bit_xor (c d : BitVec w) (a b : Bool) : bit poly (c ^^^ d) (a ^^ b) = bit poly c a ^^^ bit poly d b := by
  have hout : ((c ^^^ d).msb ^^ (a ^^ b)) = ((c.msb ^^ a) ^^ (d.msb ^^ b)) := by
    rw [BitVec.msb_xor, Bool.xor_assoc, Bool.xor_assoc, Bool.xor_left_comm d.msb]
  unfold bit
  rw [hout, BitVec.shiftLeft_xor_distrib]
  cases c.msb ^^ a <;> cases d.msb ^^ b
  · rfl
  · exact BitVec.xor_assoc ..
  · show c <<< 1 ^^^ d <<< 1 ^^^ poly = c <<< 1 ^^^ poly ^^^ d <<< 1
    rw [BitVec.xor_assoc, BitVec.xor_comm _ poly, BitVec.xor_assoc]
  · show c <<< 1 ^^^ d <<< 1 = c <<< 1 ^^^ poly ^^^ (d <<< 1 ^^^ poly)
    rw [BitVec.xor_assoc, BitVec.xor_comm _ poly, ← BitVec.xor_assoc poly, BitVec.xor_self, BitVec.zero_xor]

theorem iterate_shift_xor (n : Nat) (c d : BitVec w) :
    (shift poly)^[n] (c ^^^ d) = (shift poly)^[n] c ^^^ (shift poly)^[n] d := by
  induction n generalizing c d with
  | zero => rfl
  | succ n ih =>
    have hxor : shift poly (c ^^^ d) = shift poly c ^^^ shift poly d := bit_xor c d false false
    rw [Function.iterate_succ_apply, hxor, ih]
    rfl

theorem foldl_bit (bits : List Bool) (c : BitVec w) :
    bits.foldl (bit poly) c = (shift poly)^[bits.length] c ^^^ bits.foldl (bit poly) 0#w := by
  induction bits generalizing c with
  | nil => exact (BitVec.xor_zero ..).symm
  | cons b bits ih =>
    have hbit : bit poly c b = shift poly c ^^^ bit poly 0#w b := by
      have h : bit poly (c ^^^ 0#w) (false ^^ b) = _ := bit_xor c 0#w false b
      rwa [BitVec.xor_zero, Bool.false_xor] at h
    rw [List.foldl_cons, List.foldl_cons, ih, ih (bit poly 0#w b), hbit, iterate_shift_xor, BitVec.xor_assoc]
    rfl

theorem foldl_msbFirst {top : BitVec w} {b : BitVec 8} (htop : (msbFirst b).foldl (bit poly) 0#w = (shift poly)^[8] top)
    (c : BitVec w) : (msbFirst b).foldl (bit poly) c = (shift poly)^[8] (c ^^^ top) := by
  rw [foldl_bit, htop, iterate_shift_xor]
  rfl

theorem crc_cons (init : BitVec w) (b : BitVec 8) (bytes : List (BitVec 8)) :
    crc poly init (b :: bytes) = crc poly ((msbFirst b).foldl (bit poly) init) bytes := by
  rw [crc, List.flatMap_cons, List.foldl_append]
  rfl

end Crc

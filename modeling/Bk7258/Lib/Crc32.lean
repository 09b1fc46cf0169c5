import Mathlib.Logic.Function.Iterate

/-!
# The reflected CRC-32 of `0xEDB88320`

One table entry is eight steps of the bit loop; a byte of the message looks up the entry of the low byte of the
register. No final complement: the register itself is the result.
-/

namespace Crc32

def shift (c : UInt32) : UInt32 :=
  if c &&& 1 = 1 then (0xEDB88320 : UInt32) ^^^ (c >>> 1) else c >>> 1

def entry (i : UInt32) : UInt32 := shift^[8] i

def update (crc : UInt32) (b : UInt8) : UInt32 :=
  (crc >>> 8) ^^^ entry ((crc ^^^ b.toUInt32) &&& 0xFF)

def crc (init : UInt32) (bs : List UInt8) : UInt32 := bs.foldl update init

end Crc32

import Mathlib.Logic.Function.Basic

/-!
# Files

A directory as the contents of its files by name. Names are of any type; a name without a file has no contents.
-/

namespace Files
open Function

abbrev Store (ι : Type) := ι → Option (List UInt8)

variable {ι : Type} [DecidableEq ι] {fs : Store ι} {a b : ι} {bs : List UInt8}

def write (fs : Store ι) (name : ι) (bs : List UInt8) : Store ι := update fs name (some bs)

def unlink (fs : Store ι) (name : ι) : Store ι := update fs name none

@[simp] theorem write_self : write fs a bs a = some bs := update_self ..

theorem write_of_ne (h : b ≠ a) : write fs a bs b = fs b := update_of_ne h ..

@[simp] theorem unlink_self : unlink fs a a = none := update_self ..

theorem unlink_of_ne (h : b ≠ a) : unlink fs a b = fs b := update_of_ne h ..

theorem ite_unlink : (if (fs a).isSome then unlink fs a else fs) = unlink fs a := by
  split
  · rfl
  · rename_i h
    exact (update_eq_self_iff.2 (Option.not_isSome_iff_eq_none.1 h).symm).symm

@[simp] theorem write_write {bs' : List UInt8} : write (write fs a bs) a bs' = write fs a bs' := update_idem ..

/-- The contents after a seek and a write; a gap is filled with zeros. -/
def writeAt (file : List UInt8) (offset : Nat) (bs : List UInt8) : List UInt8 :=
  file.take offset ++ List.replicate (offset - file.length) 0 ++ bs ++ file.drop (offset + bs.length)

end Files

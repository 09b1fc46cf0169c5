import Mathlib.Data.Char
import Mathlib.Data.List.Lex
import Bk7258.Lib.Raise
import Bk7258.Tools.Misc

/-!
# The packaging JSON

`bk_packager_json` reads the sections of a packaging configuration: the image file of a partition, its address, its size
and its name. An image must fit its partition and the partitions must not overlap; then they are sorted, field by field.
The names are not looked at.
-/

namespace Bk7258
open Raise

structure PartitionInfo where
  addr : Int
  size : Int
  name : List Char
  data : List UInt8
deriving DecidableEq, Repr

structure PackSection where
  firmware : List Char
  partition : List Char
  startAddr : List Char
  size : List Char
deriving DecidableEq, Repr

/-- The work directory: the path of an image file as text, and its contents if there is such a file -/
structure Workdir where
  path : List Char → String
  file : List Char → Option (List UInt8)

def PartitionInfo.key (p : PartitionInfo) : Int ×ₗ Int ×ₗ List Char ×ₗ List Nat :=
  toLex (p.addr, toLex (p.size, toLex (p.name, p.data.map UInt8.toNat)))

section
variable (decimal : Char → Option (Fin 10)) (w : Workdir)

def checkBinarySizeValid (binName : List Char) (binSize : Nat) (partSize : Int) : Except PyErr Unit :=
  if binSize > partSize then .error (.runtimeError (w.path binName ++ " size is over partitions size.")) else .ok ()

def parsePackSection (part : PackSection) : Except PyErr PartitionInfo := do
  let partAddr ← orRaise .literal (Py.int decimal 16 part.startAddr)
  let partSize ← orRaise .literal (parseFormatSize decimal part.size)
  let binContent ← orRaise (.runtimeError (w.path part.firmware ++ " not exist!")) (w.file part.firmware)
  checkBinarySizeValid w part.firmware binContent.length partSize
  .ok ⟨partAddr, partSize, part.partition, binContent⟩

def checkPackOverlaps (partitions : List PartitionInfo) : Except PyErr Unit :=
  if checkOverlaps (partitions.map fun p => (p.addr, p.size)) then .error (.runtimeError "partition exist overlaps!")
  else .ok ()

def bkPackagerJson (sections : List PackSection) : Except PyErr (List PartitionInfo) := do
  let partitions ← sections.mapM (parsePackSection decimal w)
  checkPackOverlaps partitions
  .ok (partitions.insertionSort fun p q => p.key ≤ q.key)

end

structure Laid (parts : List PartitionInfo) : Prop where
  slots : parts.Pairwise fun p q => p.addr + p.size ≤ q.addr
  fits : ∀ p ∈ parts, p.data.length ≤ p.size

instance : Std.Total fun p q : PartitionInfo => p.key ≤ q.key := ⟨fun _ _ => le_total ..⟩

instance : IsTrans PartitionInfo fun p q => p.key ≤ q.key := ⟨fun _ _ _ => le_trans⟩

section
variable {decimal : Char → Option (Fin 10)} {w : Workdir} {p : PartitionInfo}

/-- The partition is the one of the section, with the file of its firmware. -/
structure PackSection.Gives (decimal : Char → Option (Fin 10)) (w : Workdir) (part : PackSection) (p : PartitionInfo) :
    Prop where
  addr : Py.int decimal 16 part.startAddr = some p.addr
  size : parseFormatSize decimal part.size = some p.size
  name : part.partition = p.name
  data : w.file part.firmware = some p.data
  fits : p.data.length ≤ p.size

theorem parsePackSection_eq_ok {part : PackSection} (h : parsePackSection decimal w part = .ok p) :
    part.Gives decimal w p := by
  unfold parsePackSection at h
  obtain ⟨partAddr, haddr, h⟩ := Raise.bind_eq_ok.1 h
  obtain ⟨partSize, hsize, h⟩ := Raise.bind_eq_ok.1 h
  obtain ⟨binContent, hfile, h⟩ := Raise.bind_eq_ok.1 h
  obtain ⟨_, hvalid, h⟩ := Raise.bind_eq_ok.1 h
  cases h
  refine ⟨orRaise_eq_ok.1 haddr, orRaise_eq_ok.1 hsize, rfl, orRaise_eq_ok.1 hfile, ?_⟩
  unfold checkBinarySizeValid at hvalid
  split at hvalid
  · cases hvalid
  · exact not_lt.1 ‹_›

variable {sections : List PackSection}

variable {parts : List PartitionInfo}

theorem bkPackagerJson_eq_ok (h : bkPackagerJson decimal w sections = .ok parts) :
    ∃ ps, List.Forall₂ (PackSection.Gives decimal w) sections ps ∧
      checkOverlaps (ps.map fun p => (p.addr, p.size)) = false ∧ parts = ps.insertionSort fun p q => p.key ≤ q.key := by
  unfold bkPackagerJson at h
  obtain ⟨ps, hps, h⟩ := Raise.bind_eq_ok.1 h
  obtain ⟨_, hov, h⟩ := Raise.bind_eq_ok.1 h
  cases h
  refine ⟨ps, (Raise.mapM_eq_ok hps).imp fun _ _ => parsePackSection_eq_ok, ?_, rfl⟩
  unfold checkPackOverlaps at hov
  split at hov
  · cases hov
  · exact Bool.eq_false_iff.2 ‹_›

theorem bkPackagerJson_gives (h : bkPackagerJson decimal w sections = .ok parts) :
    ∃ ps, List.Forall₂ (PackSection.Gives decimal w) sections ps ∧ parts.Perm ps := by
  obtain ⟨ps, hps, -, rfl⟩ := bkPackagerJson_eq_ok h
  exact ⟨ps, hps, List.perm_insertionSort _ ps⟩

theorem PartitionInfo.slot_le_of_key_le {q : PartitionInfo} (h : p.key ≤ q.key) :
    toLex (p.addr, p.addr + p.size) ≤ toLex (q.addr, q.addr + q.size) := by
  rw [Prod.Lex.toLex_le_toLex]
  rcases Prod.Lex.toLex_le_toLex.1 h with h | ⟨ha, h⟩
  · exact .inl h
  · refine .inr ⟨ha, ?_⟩
    exact Int.add_le_add (le_of_eq ha) (Prod.Lex.monotone_fst _ _ h)

theorem bkPackagerJson_laid (h : bkPackagerJson decimal w sections = .ok parts) : Laid parts := by
  obtain ⟨ps, hps, hov, rfl⟩ := bkPackagerJson_eq_ok h
  have hperm := List.perm_insertionSort (fun p q : PartitionInfo => p.key ≤ q.key) ps
  have hsorted := List.pairwise_insertionSort (fun p q : PartitionInfo => p.key ≤ q.key) ps
  constructor
  · rw [checkOverlaps, List.map_map] at hov
    have hslots := Intervals.pairwise_stop_le_start_of_sorted hov
      (hperm.map fun p : PartitionInfo => (p.addr, p.addr + p.size))
      (List.pairwise_map.2 (hsorted.imp PartitionInfo.slot_le_of_key_le))
    exact List.pairwise_map.1 hslots
  · intro p hp
    obtain ⟨_, hp⟩ := Raise.exists_of_forall₂ hps p (hperm.mem_iff.1 hp)
    exact hp.fits

end
end Bk7258

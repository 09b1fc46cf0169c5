import Bk7258.Lib.Raise
import Bk7258.Tools.Misc

/-!
# The partition table

`bk_partitions_table` reads a CSV text: a line is a comment, sets the flash size (`FLASH_CAPACITY=...`), or is a
partition with name, offset, size, type and two flags. After that come three checks: alignment, overlap, and the end of
the flash. No check looks for a sign: `int` and `parse_format_size` accept `-4K`.
-/

namespace Bk7258
open Raise

structure BkPartition where
  id : Nat
  name : List Char
  offset : Int
  size : Int
  execute : Bool
  read : Bool
  write : Bool
deriving DecidableEq, Repr

def bkPartition (id : Nat) (name : List Char) (offset size : Int) (execute read write : Bool) :
    Except PyErr BkPartition :=
  if size = 0 ∨ size % 1024 ≠ 0 then
    .error (.valueError ("Partitons " ++ String.ofList name ++ " size vale " ++ toString size ++ " is not valid."))
  else .ok ⟨id, name, offset, size, execute, read, write⟩

structure PartTable where
  partitions : List BkPartition := []
  cumulativeOffset : Int := 0
  flashSize : Int
deriving DecidableEq, Repr

section
variable (decimal : Char → Option (Fin 10))

def parseOffset (cumulativeOffset : Int) (offsetStr : List Char) : Except PyErr Int :=
  if offsetStr = [] then .ok cumulativeOffset else orRaise .literal (Py.int decimal 16 offsetStr)

def parseMode (mode : List Char) : Except PyErr Bool :=
  if Py.lower mode = "code".toList then .ok true
  else if Py.lower mode = "data".toList then .ok false
  else .error (.runtimeError ("not support type: " ++ String.ofList mode))

def parsePartitionLine (cumulativeOffset : Int) (index : Nat) (partLine : List Char) : Except PyErr BkPartition :=
  match (partLine.splitOn ',').map Py.strip with
  | name :: offsetStr :: sizeStr :: mode :: readStr :: writeStr :: _ => do
    let offset ← parseOffset decimal cumulativeOffset offsetStr
    let size ← orRaise .literal (parseFormatSize decimal sizeStr)
    let execute ← parseMode mode
    bkPartition index name offset size execute (Py.lower readStr = "true".toList) (Py.lower writeStr = "true".toList)
  | _ => .error (.runtimeError ("auto partition config table invalid, line:\n" ++ String.ofList partLine))

/-- `re.match(r"(?<!\\)\$([A-Za-z_][A-Za-z0-9_]*)", part_line)`: nothing stands before the start of the line. -/
def matchesVariable : List Char → Bool
  | '$' :: c :: _ => c.isAlpha || c = '_'
  | _ => false

def PartTable.parseLine (t : PartTable) (line : List Char) : Except PyErr PartTable :=
  let lineContent := Py.strip line
  if "#".toList.isPrefixOf lineContent ∨ lineContent = [] then .ok t
  else if Py.contains "FLASH_CAPACITY".toList lineContent then do
    let value ← orRaise .indexError (lineContent.splitOn '=')[1]?
    let flashSize ← orRaise .literal (parseFormatSize decimal value)
    .ok { t with flashSize }
  else if matchesVariable lineContent then
    .error (.runtimeError ("auto partition table format error, line:\n" ++ String.ofList lineContent))
  else do
    let part ← parsePartitionLine decimal t.cumulativeOffset t.partitions.length lineContent
    .ok { t with partitions := t.partitions ++ [part], cumulativeOffset := part.offset + part.size }

def checkAlign (name : List Char) (num alignNum : Int) : Except PyErr Unit :=
  if num % alignNum ≠ 0 then .error (.runtimeError (String.ofList name ++ " partition align error")) else .ok ()

def checkOffsetAndSizeValid (crcEnable : Bool) (part : BkPartition) : Except PyErr Unit := do
  checkAlign part.name part.offset 0x1000
  checkAlign part.name part.size 0x1000
  if crcEnable && part.execute then
    checkAlign part.name part.offset (1024 * 34)
    checkAlign part.name part.size (1024 * 34)

def checkPartitionOverlaps (partitions : List BkPartition) : Except PyErr Unit :=
  if checkOverlaps (partitions.map fun part => (part.offset, part.size)) then
    .error (.runtimeError "partition table config overlaps")
  else .ok ()

def checkPartitionsBound (flashSize : Int) (part : BkPartition) : Except PyErr Unit :=
  if part.offset + part.size > flashSize then
    .error (.runtimeError (String.ofList part.name ++ " partition out of flash size"))
  else .ok ()

def bkPartitionsTable (flashSize : List Char) (crcEnable : Bool) (csvContents : List Char) :
    Except PyErr PartTable := do
  let flashSize ← orRaise .literal (parseFormatSize decimal flashSize)
  let t ← (Py.splitlines csvContents).foldlM (PartTable.parseLine decimal) { flashSize }
  t.partitions.forM (checkOffsetAndSizeValid crcEnable)
  checkPartitionOverlaps t.partitions
  t.partitions.forM (checkPartitionsBound t.flashSize)
  .ok t

end

/-! ### What each check says -/

theorem checkAlign_eq_ok {name : List Char} {num alignNum : Int} (h : checkAlign name num alignNum = .ok ()) :
    alignNum ∣ num := by
  unfold checkAlign at h
  split at h
  · cases h
  · exact Int.dvd_of_emod_eq_zero (not_not.1 ‹_›)

def BkPartition.Aligned (crcEnable : Bool) (part : BkPartition) : Prop :=
  0x1000 ∣ part.offset ∧ 0x1000 ∣ part.size ∧
    (crcEnable = true → part.execute = true → 1024 * 34 ∣ part.offset ∧ 1024 * 34 ∣ part.size)

theorem checkOffsetAndSizeValid_eq_ok {crcEnable : Bool} {part : BkPartition}
    (h : checkOffsetAndSizeValid crcEnable part = .ok ()) : part.Aligned crcEnable := by
  unfold checkOffsetAndSizeValid at h
  obtain ⟨_, hoff, h⟩ := Raise.bind_eq_ok.1 h
  obtain ⟨_, hsize, h⟩ := Raise.bind_eq_ok.1 h
  refine ⟨checkAlign_eq_ok hoff, checkAlign_eq_ok hsize, ?_⟩
  intro hc he
  rw [hc, he, Bool.and_self, if_pos rfl] at h
  obtain ⟨_, hoff, h⟩ := Raise.bind_eq_ok.1 h
  exact ⟨checkAlign_eq_ok hoff, checkAlign_eq_ok h⟩

theorem checkPartitionsBound_eq_ok {flashSize : Int} {part : BkPartition}
    (h : checkPartitionsBound flashSize part = .ok ()) : part.offset + part.size ≤ flashSize := by
  unfold checkPartitionsBound at h
  split at h
  · cases h
  · exact not_lt.1 ‹_›

def BkPartition.Apart (p q : BkPartition) : Prop :=
  ∀ a : Int, p.offset ≤ a → a < p.offset + p.size → q.offset ≤ a → a < q.offset + q.size → False

theorem checkPartitionOverlaps_eq_ok {parts : List BkPartition} (h : checkPartitionOverlaps parts = .ok ()) :
    parts.Pairwise BkPartition.Apart := by
  unfold checkPartitionOverlaps at h
  split at h
  · cases h
  · rename_i hno
    exact pairwise_of_checkOverlaps hno

/-! ### Signs -/

def isRow (lineContent : List Char) : Bool :=
  !("#".toList.isPrefixOf lineContent || lineContent = [] || Py.contains "FLASH_CAPACITY".toList lineContent)

section
variable (decimal : Char → Option (Fin 10))

/-- The offset a row gives; an empty field gives none. -/
def PartTable.rowOffset (lineContent : List Char) : Option Int :=
  ((lineContent.splitOn ',').map Py.strip)[1]?.bind fun offsetStr =>
    if offsetStr = [] then none else Py.int decimal 16 offsetStr

def PartTable.rowSize (lineContent : List Char) : Option Int :=
  ((lineContent.splitOn ',').map Py.strip)[2]?.bind (parseFormatSize decimal)

def NonnegRow (line : List Char) : Prop :=
  isRow (Py.strip line) →
    (∀ n ∈ PartTable.rowOffset decimal (Py.strip line), 0 ≤ n) ∧ ∀ n ∈ PartTable.rowSize decimal (Py.strip line), 0 ≤ n

def NonnegRows (csvContents : List Char) : Prop := ∀ line ∈ Py.splitlines csvContents, NonnegRow decimal line

instance (csvContents : List Char) : Decidable (NonnegRows decimal csvContents) :=
  inferInstanceAs (Decidable (∀ line ∈ Py.splitlines csvContents, isRow (Py.strip line) →
    (∀ n ∈ PartTable.rowOffset decimal (Py.strip line), 0 ≤ n) ∧
      ∀ n ∈ PartTable.rowSize decimal (Py.strip line), 0 ≤ n))

end

section
variable {decimal : Char → Option (Fin 10)} {line : List Char}

theorem parsePartitionLine_eq_ok {cumulativeOffset : Int} {index : Nat} {part : BkPartition}
    (h : parsePartitionLine decimal cumulativeOffset index line = .ok part) :
    part.offset = (PartTable.rowOffset decimal line).getD cumulativeOffset ∧
      PartTable.rowSize decimal line = some part.size ∧ part.size ≠ 0 ∧ part.id = index := by
  unfold parsePartitionLine at h
  split at h
  · rename_i name offsetStr sizeStr mode readStr writeStr rest hsplit
    obtain ⟨offset, hoff, h⟩ := Raise.bind_eq_ok.1 h
    obtain ⟨size, hsize, h⟩ := Raise.bind_eq_ok.1 h
    obtain ⟨execute, -, h⟩ := Raise.bind_eq_ok.1 h
    have hrow : PartTable.rowOffset decimal line = if offsetStr = [] then none else Py.int decimal 16 offsetStr := by
      rw [PartTable.rowOffset, hsplit]
      rfl
    have hrow' : PartTable.rowSize decimal line = parseFormatSize decimal sizeStr := by
      rw [PartTable.rowSize, hsplit]
      rfl
    have hoff' : offset = (PartTable.rowOffset decimal line).getD cumulativeOffset := by
      rw [hrow]
      unfold parseOffset at hoff
      split at hoff
      · rw [if_pos ‹_›]
        exact (Except.ok.inj hoff).symm
      · rw [if_neg ‹_›, orRaise_eq_ok.1 hoff]
        rfl
    unfold bkPartition at h
    split at h
    · cases h
    · rename_i hpost
      cases h
      exact ⟨hoff', hrow'.trans (orRaise_eq_ok.1 hsize), fun h0 => hpost (.inl h0), rfl⟩
  · cases h

variable {t : PartTable}

theorem PartTable.parseLine_eq_ok {t' : PartTable} (h : t.parseLine decimal line = .ok t') :
    (¬isRow (Py.strip line) ∧ ∃ flashSize, t' = { t with flashSize }) ∨ isRow (Py.strip line) ∧
      ∃ part, parsePartitionLine decimal t.cumulativeOffset t.partitions.length (Py.strip line) = .ok part ∧
        t' = { t with partitions := t.partitions ++ [part], cumulativeOffset := part.offset + part.size } := by
  unfold PartTable.parseLine at h
  dsimp only at h
  split at h
  · rename_i hcom
    exact .inl ⟨not_row_of_skipped (.inl hcom), t.flashSize, (Except.ok.inj h).symm⟩
  · rename_i hcom
    split at h
    · rename_i hcap
      obtain ⟨value, -, h⟩ := Raise.bind_eq_ok.1 h
      obtain ⟨flashSize, -, h⟩ := Raise.bind_eq_ok.1 h
      exact .inl ⟨not_row_of_skipped (.inr hcap), flashSize, (Except.ok.inj h).symm⟩
    · rename_i hcap
      split at h
      · cases h
      · obtain ⟨part, hp, h⟩ := Raise.bind_eq_ok.1 h
        exact .inr ⟨row_of_not_skipped hcom hcap, part, hp, (Except.ok.inj h).symm⟩

def PartTable.Nonneg (t : PartTable) : Prop := ∀ part ∈ t.partitions, 0 ≤ part.offset ∧ 0 < part.size

-- the offset of a row without one is the end of the row before it
theorem PartTable.parseLine_nonneg_iff {t' : PartTable} (hc : t.Nonneg → 0 ≤ t.cumulativeOffset)
    (h : t.parseLine decimal line = .ok t') :
    (t'.Nonneg → 0 ≤ t'.cumulativeOffset) ∧ (t'.Nonneg ↔ t.Nonneg ∧ NonnegRow decimal line) := by
  rcases PartTable.parseLine_eq_ok h with ⟨hrow, _, rfl⟩ | ⟨hrow, part, hp, rfl⟩
  · exact ⟨hc, fun ht => ⟨ht, fun h => absurd h hrow⟩, And.left⟩
  · obtain ⟨hoff, hsize, hne, -⟩ := parsePartitionLine_eq_ok hp
    have hsplit : PartTable.Nonneg { t with
          partitions := t.partitions ++ [part]
          cumulativeOffset := part.offset + part.size } ↔ t.Nonneg ∧ 0 ≤ part.offset ∧ 0 < part.size := by
      unfold PartTable.Nonneg
      rw [List.forall_mem_append, List.forall_mem_singleton]
    refine ⟨fun ht => ?_, hsplit.trans (and_congr_right fun ht => ?_)⟩
    · obtain ⟨-, hoff', hsize'⟩ := hsplit.1 ht
      show 0 ≤ part.offset + part.size
      omega
    · unfold NonnegRow
      rw [hsize]
      have hc' := hc ht
      cases hrow' : PartTable.rowOffset decimal (Py.strip line) with
      | none =>
        rw [hrow', Option.getD_none] at hoff
        constructor
        · rintro ⟨-, hpos⟩ -
          exact ⟨nofun, fun n hn => Option.some.inj hn ▸ hpos.le⟩
        · intro hall
          have := (hall hrow).2 _ rfl
          omega
      | some n =>
        rw [hrow', Option.getD_some] at hoff
        constructor
        · rintro ⟨hoff', hpos⟩ -
          exact ⟨fun m hm => by cases hm; omega, fun n hn => Option.some.inj hn ▸ hpos.le⟩
        · intro hall
          have h₁ := (hall hrow).1 _ rfl
          have h₂ := (hall hrow).2 _ rfl
          omega

variable {flashSize csvContents : List Char} {crcEnable : Bool}

theorem bkPartitionsTable_eq_ok (h : bkPartitionsTable decimal flashSize crcEnable csvContents = .ok t) :
    (∃ size, (Py.splitlines csvContents).foldlM (PartTable.parseLine decimal) { flashSize := size } = .ok t) ∧
      (∀ part ∈ t.partitions, part.Aligned crcEnable ∧ part.offset + part.size ≤ t.flashSize) ∧
      t.partitions.Pairwise BkPartition.Apart := by
  unfold bkPartitionsTable at h
  obtain ⟨size, -, h⟩ := Raise.bind_eq_ok.1 h
  obtain ⟨t', hread, h⟩ := Raise.bind_eq_ok.1 h
  obtain ⟨_, halign, h⟩ := Raise.bind_eq_ok.1 h
  obtain ⟨_, hover, h⟩ := Raise.bind_eq_ok.1 h
  obtain ⟨_, hbound, h⟩ := Raise.bind_eq_ok.1 h
  cases h
  refine ⟨⟨size, hread⟩, ?_, checkPartitionOverlaps_eq_ok hover⟩
  intro part hp
  exact ⟨checkOffsetAndSizeValid_eq_ok (Raise.forM_eq_ok.1 halign part hp),
    checkPartitionsBound_eq_ok (Raise.forM_eq_ok.1 hbound part hp)⟩

theorem bkPartitionsTable_nonneg_iff (h : bkPartitionsTable decimal flashSize crcEnable csvContents = .ok t) :
    t.Nonneg ↔ NonnegRows decimal csvContents := by
  obtain ⟨⟨size, hread⟩, -, -⟩ := bkPartitionsTable_eq_ok h
  have hfold := Raise.foldlM_iff (fun _ _ _ hs hstep => PartTable.parseLine_nonneg_iff hs hstep) (fun _ => le_rfl) hread
  exact hfold.trans (and_iff_right fun _ hp => absurd hp List.not_mem_nil)

theorem bkPartitionsTable_ids (h : bkPartitionsTable decimal flashSize crcEnable csvContents = .ok t) :
    t.partitions.map (·.id) = List.range t.partitions.length := by
  obtain ⟨⟨size, hread⟩, -, -⟩ := bkPartitionsTable_eq_ok h
  refine Raise.foldlM_invariant (P := fun t => t.partitions.map (·.id) = List.range t.partitions.length) ?_ rfl hread
  intro s line s' _ hs hstep
  rcases PartTable.parseLine_eq_ok hstep with ⟨-, _, rfl⟩ | ⟨-, part, hp, rfl⟩
  · exact hs
  · rw [List.map_append, hs, List.map_singleton, (parsePartitionLine_eq_ok hp).2.2.2, List.length_append,
      List.length_singleton,
      List.range_succ]

end

theorem partitions_table_sound {decimal : Char → Option (Fin 10)} {flashSize csvContents : List Char} {crcEnable : Bool}
    {t : PartTable} (h : bkPartitionsTable decimal flashSize crcEnable csvContents = .ok t) :
    ((∀ part ∈ t.partitions, 0 ≤ part.offset ∧ 0 < part.size ∧ part.Aligned crcEnable ∧
      part.offset + part.size ≤ t.flashSize) ∧ t.partitions.Pairwise BkPartition.Apart) ↔
      NonnegRows decimal csvContents := by
  obtain ⟨-, hchk, hapart⟩ := bkPartitionsTable_eq_ok h
  rw [← bkPartitionsTable_nonneg_iff h]
  constructor
  · rintro ⟨hall, -⟩ part hp
    exact ⟨(hall part hp).1, (hall part hp).2.1⟩
  · intro hnn
    refine ⟨?_, hapart⟩
    intro part hp
    exact ⟨(hnn part hp).1, (hnn part hp).2, hchk part hp⟩

def sampleTable : List Char :=
  "#Name,Offset,Size,Type,Read,Write\nFLASH_CAPACITY=1M\nbootloader,0x0,68K,code,TRUE,FALSE\nenv, ,4K,data,TRUE,TRUE".toList

theorem partitions_table_sound_sample :
    ∃ t, bkPartitionsTable (fun _ => none) "8M".toList true sampleTable = .ok t ∧
      NonnegRows (fun _ => none) sampleTable ∧
      t.partitions.map (fun p => (p.offset, p.size)) = [(0, 69632), (69632, 4096)] ∧
      (∀ part ∈ t.partitions, 0 ≤ part.offset ∧ 0 < part.size ∧ part.Aligned true ∧
        part.offset + part.size ≤ t.flashSize) ∧ t.partitions.Pairwise BkPartition.Apart := by
  have hok : bkPartitionsTable (fun _ => none) "8M".toList true sampleTable =
      .ok ⟨[⟨0, "bootloader".toList, 0, 69632, true, true, false⟩,
        ⟨1, "env".toList, 69632, 4096, false, true, true⟩], 73728,
        1048576⟩ := by
    decide +kernel
  have hu : NonnegRows (fun _ => none) sampleTable := by decide +kernel
  obtain ⟨hall, hapart⟩ := (partitions_table_sound hok).2 hu
  exact ⟨_, hok, hu, rfl, hall, hapart⟩

theorem partitions_table_negative_size :
    bkPartitionsTable (fun _ => none) "8M".toList false "a,,-4K,data,TRUE,TRUE".toList =
      .ok ⟨[⟨0, "a".toList, 0, -4096, false, true, true⟩], -4096, 8388608⟩ := by
  decide +kernel

end Bk7258

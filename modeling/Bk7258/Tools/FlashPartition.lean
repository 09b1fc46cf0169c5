import Mathlib.Logic.Function.Iterate
import Bk7258.Tools.BekenUtils.Partition
import Bk7258.Tools.OtaPartition
import Bk7258.Tools.PackJson
import Bk7258.Tools.SortPartitions

/-!
# `bk_flash_partition`

The C header with the addresses, sizes and ids of the partitions, and the packaging JSON of those that are executable.
The list of the rows stands for the JSON file between (`gen_partition_json`). `upper` says what `Name.upper()` makes of
a character.
-/

namespace Bk7258
open Raise

def parsePartitionsInfo (partInfoJson : List BkPartition) : List BkPartition :=
  (partAdapter 0 partInfoJson).insertionSort fun p q => p.id ≤ q.id

/-! ### The header -/

structure HdrMacro where
  name : List Char
  value : List Char
deriving DecidableEq, Repr

structure HdrEntry where
  id : Nat
  name : List Char
  macroOffset : List Char
  macroSize : List Char
  execute : Bool
  read : Bool
  write : Bool
deriving DecidableEq, Repr

def parOpt (mode : String) (enabled : Bool) : List Char :=
  mode.toList ++ (if enabled then "EN" else "DIS").toList

namespace HdrEntry

def partitionsOptions (e : HdrEntry) : List Char :=
  parOpt "PAR_OPT_EXECUTE_" e.execute ++ " | ".toList ++ parOpt "PAR_OPT_READ_" e.read ++ " | ".toList ++
    parOpt "PAR_OPT_WRITE_" e.write

def line (e : HdrEntry) : List Char :=
  "    [".toList ++ Py.str e.id ++ "] = \x7bBK_FLASH_EMBEDDED, \"".toList ++ e.name ++ "\", ".toList ++ e.macroOffset ++
    ", ".toList ++ e.macroSize ++ ", ".toList ++ e.partitionsOptions ++ "\x7d, \\\n".toList

end HdrEntry

structure LayoutHdr where
  config : List HdrMacro
  tableSize : Nat
  ids : List HdrMacro
  entries : List HdrEntry
deriving DecidableEq, Repr

section
variable (upper : Char → List Char)

/-- `part.Name.upper().replace(" ", "_") if part.Name else ""` -/
def hdrName (name : List Char) : List Char := (name.flatMap upper).map fun c => if c = ' ' then '_' else c

def macroId (name : List Char) : List Char := "BK_PARTITION_".toList ++ hdrName upper name

def macroOffset (name : List Char) : List Char := "CONFIG_".toList ++ hdrName upper name ++ "_PARTITION_OFFSET".toList

def macroSize (name : List Char) : List Char := "CONFIG_".toList ++ hdrName upper name ++ "_PARTITION_SIZE".toList

def hdrEntry (part : BkPartition) : HdrEntry :=
  ⟨part.id, part.name, macroOffset upper part.name, macroSize upper part.name, part.execute, part.read, part.write⟩

def hdrConfig (part : BkPartition) : List HdrMacro :=
  [⟨macroOffset upper part.name, "0x".toList ++ Py.hex 8 part.offset⟩,
    ⟨macroSize upper part.name, "0x".toList ++ Py.hex 8 part.size⟩]

/-- The contents of the header. `part_info[-1]` of an empty list is an `IndexError`. -/
def layoutHdr (partInfo : List BkPartition) (flashCrcEnable : Bool) : Except PyErr LayoutHdr := do
  let last ← orRaise .indexError partInfo.getLast?
  .ok
    { config := ⟨"CONFIG_FLASH_CRC_ENABLE".toList, Py.str (if flashCrcEnable then 1 else 0)⟩ ::
        ⟨"CONFIG_PARTITIONS_NUM".toList, Py.str partInfo.length⟩ :: partInfo.flatMap (hdrConfig upper)
      tableSize := last.id + 1
      ids := partInfo.map fun part => ⟨macroId upper part.name, Py.str part.id⟩
      entries := partInfo.map (hdrEntry upper) }

end

/-! ### The packaging JSON -/

def getPackName (appName : List Char) : List Char :=
  if Py.contains "application".toList appName then BekenUtils.replace "application".toList "app".toList appName
  else appName

def packSection (p : BkPartition) : PackSection where
  firmware := getPackName p.name ++ ".bin".toList
  partition := getPackName p.name
  startAddr := "0x".toList ++ Py.hex 8 p.offset
  size := formatSize p.size

structure PackConfig where
  magic : List Char
  crcEnable : Bool
  count : Nat
  sections : List PackSection
deriving DecidableEq, Repr

def executePartitions (partInfo : List BkPartition) : List BkPartition :=
  (partInfo.filter (·.execute)).insertionSort fun p q => p.offset ≤ q.offset

def genPackJson (partInfo : List BkPartition) (crcEnable : Bool) : PackConfig where
  magic := "beken".toList
  crcEnable := crcEnable
  count := (partInfo.filter (·.execute)).length
  sections := (executePartitions partInfo).map packSection

/-! ### Ids -/

instance : Std.Total fun p q : BkPartition => p.id ≤ q.id := ⟨fun _ _ => le_total ..⟩

instance : IsTrans BkPartition fun p q => p.id ≤ q.id := ⟨fun _ _ _ => le_trans⟩

section
variable {reserved : List (List Char)} {parts : List BkPartition}

theorem layoutHdr_eq_ok (upper : Char → List Char) (flashCrcEnable : Bool) (hne : parts ≠ []) :
    ∃ h, layoutHdr upper parts flashCrcEnable = .ok h ∧ h.tableSize = (parts.getLast hne).id + 1 ∧
      h.entries = parts.map (hdrEntry upper) := by
  unfold layoutHdr
  rw [List.getLast?_eq_some_getLast hne]
  exact ⟨_, rfl, rfl, rfl⟩

theorem map_partAdapter {β : Type} {f : BkPartition → β} (hf : ∀ (p : BkPartition) name, f { p with name } = f p) :
    ∀ (parts : List BkPartition) (n : Nat), (partAdapter n parts).map f = parts.map f
  | [], _ => rfl
  | p :: parts, n => by
    rw [partAdapter]
    split
    · rw [List.map_cons, List.map_cons, map_partAdapter hf, hf]
    · split
      · rw [List.map_cons, List.map_cons, map_partAdapter hf, hf]
      · rw [List.map_cons, List.map_cons, map_partAdapter hf]

theorem parsePartitionsInfo_perm {β : Type} {f : BkPartition → β}
    (hf : ∀ (p : BkPartition) name, f { p with name } = f p)
    (parts : List BkPartition) : ((parsePartitionsInfo parts).map f).Perm (parts.map f) := by
  rw [← map_partAdapter hf parts 0]
  exact (List.perm_insertionSort (fun p q : BkPartition => p.id ≤ q.id) _).map f

theorem lt_tableSize (upper : Char → List Char) (flashCrcEnable : Bool) (hne : parts ≠ []) :
    ∃ h, layoutHdr upper (parsePartitionsInfo parts) flashCrcEnable = .ok h ∧
      (h.entries.map (·.id)).Perm (parts.map (·.id)) ∧ ∀ e ∈ h.entries, e.id < h.tableSize := by
  have hperm := parsePartitionsInfo_perm (f := (·.id)) (fun _ _ => rfl) parts
  have hne' : parsePartitionsInfo parts ≠ [] := by
    intro h
    rw [h] at hperm
    exact hne (List.map_eq_nil_iff.1 hperm.symm.eq_nil)
  obtain ⟨h, hok, hsize, hentries⟩ := layoutHdr_eq_ok upper flashCrcEnable hne'
  refine ⟨h, hok, ?_, fun e he => ?_⟩
  · rw [hentries, List.map_map]
    exact hperm
  · rw [hentries] at he
    obtain ⟨part, hpart, rfl⟩ := List.mem_map.1 he
    have hsorted : (parsePartitionsInfo parts).Pairwise fun p q => p.id ≤ q.id := List.pairwise_insertionSort ..
    rw [hsize]
    exact Nat.lt_succ_of_le (hsorted.rel_getLast_of_rel_getLast_getLast hpart le_rfl)

theorem iterate_sortPartitions (hnd : reserved.Nodup) (hlen : reserved.length < 10000) (parts : List BkPartition) :
    ∀ n, (sortPartitions reserved)^[n + 1] parts = sortPartitions reserved parts
  | 0 => rfl
  | n + 1 => by
    rw [Function.iterate_succ_apply', iterate_sortPartitions hnd hlen parts n, sortPartitions_idem hnd hlen]

theorem id_of_reserved (hnd : reserved.Nodup) (hlen : reserved.length < 10000) {k : Nat} {name : List Char}
    (hk : reserved[k]? = some name) (hname : name ∈ parts.map (·.name)) :
    (sortPartitions reserved parts)[(parts.map (·.name)).idxOf name]?.map (·.id) = some k := by
  obtain ⟨hlt, rfl⟩ := List.getElem?_eq_some_iff.1 hk
  have hres : IsReserved reserved (parts.map (·.name)) ((parts.map (·.name)).idxOf reserved[k]) :=
    ⟨_, List.getElem_mem hlt, hname, rfl⟩
  have hrow : (parts.map (·.name)).idxOf reserved[k] < parts.length := by
    rw [← List.length_map (f := fun part : BkPartition => part.name)]
    exact List.idxOf_lt_length_of_mem hname
  rw [getElem?_sortPartitions hnd hlen, List.getElem?_eq_getElem hrow, Option.map_some, Option.map_some]
  show some (sortedId ..) = some k
  rw [(sortedId_of_isReserved hres).1, getD_idxOf hname, hnd.idxOf_getElem]

theorem id_of_not_isReserved (hnd : reserved.Nodup) (hlen : reserved.length < 10000) {i : Nat} (hi : i < parts.length)
    (hres : ¬IsReserved reserved (parts.map (·.name)) i) : (sortPartitions reserved parts)[i]?.map (·.id) =
      some (reserved.length + othersBefore reserved (parts.map (·.name)) i) := by
  rw [getElem?_sortPartitions hnd hlen, List.getElem?_eq_getElem hi, Option.map_some, Option.map_some]
  exact congrArg some (sortedId_of_not_isReserved hres)

end

/-- The ids are those of the reserved list and, behind them, of the table order, whatever the number of calls; no id
occurs twice, and the header has a place for each. -/
theorem partition_ids_sorted {reserved : List (List Char)} (hnd : reserved.Nodup) (hlen : reserved.length < 10000)
    (parts : List BkPartition) (n : Nat) {sorted : List BkPartition}
    (hsorted : (sortPartitions reserved)^[n + 1] parts = sorted)
    (upper : Char → List Char) (flashCrcEnable : Bool) :
    (sorted.map (·.id)).Nodup ∧ sorted.map (·.withId 0) = parts.map (·.withId 0) ∧
    (∀ k name, reserved[k]? = some name → name ∈ parts.map (·.name) →
      sorted[(parts.map (·.name)).idxOf name]?.map (·.id) = some k) ∧
    (∀ i < parts.length, ¬IsReserved reserved (parts.map (·.name)) i →
      sorted[i]?.map (·.id) = some (reserved.length + othersBefore reserved (parts.map (·.name)) i)) ∧
    sortPartitions reserved sorted = sorted ∧
    (parts ≠ [] → ∃ h, layoutHdr upper (parsePartitionsInfo sorted) flashCrcEnable = .ok h ∧
      (h.entries.map (·.id)).Perm (sorted.map (·.id)) ∧ ∀ e ∈ h.entries, e.id < h.tableSize) := by
  rw [iterate_sortPartitions hnd hlen] at hsorted
  subst hsorted
  refine ⟨nodup_sortPartitions hnd hlen parts, map_sortPartitions hnd hlen parts fun _ _ => rfl,
    fun k name hk hname => id_of_reserved hnd hlen hk hname, fun i hi hres => id_of_not_isReserved hnd hlen hi hres,
    sortPartitions_idem hnd hlen parts, fun hne => lt_tableSize upper flashCrcEnable ?_⟩
  intro hnil
  have hnames := map_sortPartitions hnd hlen parts (f := (·.name)) fun _ _ => rfl
  rw [hnil] at hnames
  exact hne (List.map_eq_nil_iff.1 hnames.symm)

theorem partition_ids_sorted_sample :
    (sortPartitions ["boot".toList, "ota".toList, "net".toList])^[2]
        [⟨0, "net".toList, 0, 1024, false, true, true⟩, ⟨1, "log".toList, 1024, 1024, false, true, true⟩,
          ⟨2, "boot".toList, 2048, 1024, true, true, false⟩, ⟨3, "net".toList, 3072, 1024, false, true, true⟩] =
      [⟨2, "net".toList, 0, 1024, false, true, true⟩, ⟨3, "log".toList, 1024, 1024, false, true, true⟩,
        ⟨0, "boot".toList, 2048, 1024, true, true, false⟩, ⟨4, "net".toList, 3072, 1024, false, true, true⟩] ∧
    ∃ h, layoutHdr (fun c => [c.toUpper]) (parsePartitionsInfo
        [⟨2, "net".toList, 0, 1024, false, true, true⟩, ⟨3, "log".toList, 1024, 1024, false, true, true⟩,
          ⟨0, "boot".toList, 2048, 1024, true, true, false⟩, ⟨4, "net".toList, 3072, 1024, false, true, true⟩])
            true = .ok h ∧
      ∀ e ∈ h.entries, e.id < h.tableSize := by
  have hcalls : (sortPartitions ["boot".toList, "ota".toList, "net".toList])^[1 + 1]
        [⟨0, "net".toList, 0, 1024, false, true, true⟩, ⟨1, "log".toList, 1024, 1024, false, true, true⟩,
          ⟨2, "boot".toList, 2048, 1024, true, true, false⟩, ⟨3, "net".toList, 3072, 1024, false, true, true⟩] =
      [⟨2, "net".toList, 0, 1024, false, true, true⟩, ⟨3, "log".toList, 1024, 1024, false, true, true⟩,
        ⟨0, "boot".toList, 2048, 1024, true, true, false⟩, ⟨4, "net".toList, 3072, 1024, false, true, true⟩] := by
    decide +kernel
  obtain ⟨-, -, -, -, -, hhdr⟩ := partition_ids_sorted (by decide) (by decide) _ 1 hcalls (fun c => [c.toUpper]) true
  obtain ⟨h, hok, -, hlt⟩ := hhdr (by decide)
  exact ⟨hcalls, h, hok, hlt⟩

/-! ### From the table to the packager -/

instance : Std.Total fun p q : BkPartition => p.offset ≤ q.offset := ⟨fun _ _ => le_total ..⟩

instance : IsTrans BkPartition fun p q => p.offset ≤ q.offset := ⟨fun _ _ _ => le_trans⟩

section
variable {decimal : Char → Option (Fin 10)} {w : Workdir} {p : BkPartition} {parts rows : List BkPartition}

def sectionInfo (w : Workdir) (p : BkPartition) : PartitionInfo :=
  ⟨p.offset, p.size, getPackName p.name, (w.file (packSection p).firmware).getD []⟩

def ImageFits (w : Workdir) (p : BkPartition) : Prop :=
  ∃ data, w.file (packSection p).firmware = some data ∧ data.length ≤ p.size

theorem parsePackSection_packSection (hoff : 0 ≤ p.offset) (hfit : ImageFits w p) :
    parsePackSection decimal w (packSection p) = .ok (sectionInfo w p) := by
  obtain ⟨data, hfile, hlen⟩ := hfit
  have haddr : Py.int decimal 16 (packSection p).startAddr = some p.offset := Py.int_hex hoff 8
  have hsz : parseFormatSize decimal (packSection p).size = some p.size := parseFormatSize_formatSize _
  have hvalid : checkBinarySizeValid w (packSection p).firmware data.length p.size = .ok () := if_neg (not_lt.2 hlen)
  unfold parsePackSection sectionInfo
  rw [haddr, hsz, hfile]
  show (checkBinarySizeValid w (packSection p).firmware data.length p.size >>= _) = _
  rw [hvalid, Raise.ok_bind]
  rfl

structure InOrder (l : List BkPartition) : Prop where
  nonneg : ∀ p ∈ l, 0 ≤ p.offset ∧ 0 < p.size
  slots : l.Pairwise fun p q => p.offset + p.size ≤ q.offset

theorem InOrder.bkPackagerJson {l : List BkPartition} (h : InOrder l) (hfiles : ∀ p ∈ l, ImageFits w p) :
    bkPackagerJson decimal w (l.map packSection) = .ok (l.map (sectionInfo w)) := by
  have hread : (l.map packSection).mapM (parsePackSection decimal w) = .ok (l.map (sectionInfo w)) := by
    rw [List.mapM_map]
    exact Raise.mapM_eq_ok_map fun p hp =>
      parsePackSection_packSection (h.nonneg p hp).1 (hfiles p hp)
  have hapart : Intervals.overlaps (l.map (·.interval)) = false := by
    refine Intervals.overlaps_of_pairwise_apart ?_ (List.pairwise_map.2 (h.slots.imp Intervals.Apart.of_le))
    intro i hi
    obtain ⟨p, hp, rfl⟩ := List.mem_map.1 hi
    have := (h.nonneg p hp).2
    show p.offset < p.offset + p.size
    omega
  have hcheck : checkPackOverlaps (l.map (sectionInfo w)) = .ok () := by
    unfold checkPackOverlaps checkOverlaps
    rw [List.map_map, List.map_map]
    exact if_neg (Bool.eq_false_iff.1 hapart)
  have hsorted : (l.map (sectionInfo w)).Pairwise fun p q => p.key ≤ q.key := by
    refine List.pairwise_map.2 (h.slots.imp_of_mem fun {p q} hp _ hpq => ?_)
    have hpos := (h.nonneg p hp).2
    have hlt : p.offset < q.offset := by omega
    exact Prod.Lex.toLex_le_toLex.2 (.inl hlt)
  unfold Bk7258.bkPackagerJson
  rw [hread, Raise.ok_bind, hcheck, Raise.ok_bind, hsorted.insertionSort_eq]

theorem inOrder_executePartitions (hnn : ∀ p ∈ parts, 0 ≤ p.offset ∧ 0 < p.size)
    (hapart : parts.Pairwise BkPartition.Apart) : InOrder (executePartitions parts) := by
  have hperm := List.perm_insertionSort (fun p q : BkPartition => p.offset ≤ q.offset) (parts.filter (·.execute))
  have hmem : ∀ p ∈ executePartitions parts, 0 ≤ p.offset ∧ 0 < p.size := fun p hp =>
    hnn p (List.mem_filter.1 (hperm.mem_iff.1 hp)).1
  have hsorted : (executePartitions parts).Pairwise fun p q => p.offset ≤ q.offset := List.pairwise_insertionSort ..
  have hapart' : (executePartitions parts).Pairwise BkPartition.Apart :=
    (hperm.pairwise_iff fun {p q} => Std.Symm.symm p q).2 (hapart.filter _)
  refine ⟨hmem, (hapart'.and hsorted).imp_of_mem ?_⟩
  intro p q _ hq h
  have hpos := (hmem q hq).2
  have hap : Intervals.Apart p.interval q.interval := h.1
  exact hap.stop_le (show q.offset < q.offset + q.size by omega) h.2

theorem InOrder.slots_eq {l l' : List BkPartition} (h : InOrder l) (h' : InOrder l')
    (hperm : (l.map fun p => (p.offset, p.size)).Perm (l'.map fun p => (p.offset, p.size))) :
    l.map (fun p => (p.offset, p.size)) = l'.map fun p => (p.offset, p.size) := by
  have hlt : ∀ {l : List BkPartition}, InOrder l →
      (l.map fun p => (p.offset, p.size)).Pairwise fun a b => a.1 < b.1 := by
    intro l h
    refine List.pairwise_map.2 (h.slots.imp_of_mem fun {p q} hp _ hpq => ?_)
    have hpos := (h.nonneg p hp).2
    show p.offset < q.offset
    omega
  exact hperm.eq_of_pairwise (fun _ _ _ _ hab hba => absurd hab hba.asymm) (hlt h) (hlt h')

theorem parsePartitionsInfo_slots (hrows : rows.map (·.withId 0) = parts.map (·.withId 0)) :
    ((parsePartitionsInfo rows).map fun p => (p.execute, p.offset, p.size)).Perm
      (parts.map fun p => (p.execute, p.offset, p.size)) := by
  have hids : rows.map (fun p => (p.execute, p.offset, p.size)) = parts.map fun p => (p.execute, p.offset, p.size) := by
    have h := congrArg (List.map fun p : BkPartition => (p.execute, p.offset, p.size)) hrows
    rwa [List.map_map, List.map_map] at h
  rw [← hids]
  exact parsePartitionsInfo_perm (fun _ _ => rfl) rows

theorem executePartitions_slots (parts : List BkPartition) :
    ((executePartitions parts).map fun p => (p.offset, p.size)).Perm
      (((parts.map fun p => (p.execute, p.offset, p.size)).filter (·.1)).map (·.2)) := by
  rw [List.filter_map, List.map_map]
  exact (List.perm_insertionSort (fun p q : BkPartition => p.offset ≤ q.offset) _).map _

end

/-- What is written for the packager is read as the executable partitions of the table. `rows` is the table with any
ids. -/
theorem pack_json_round_trip {decimal : Char → Option (Fin 10)} {flashSize csvContents : List Char} {crcEnable : Bool}
    {t : PartTable} (h : bkPartitionsTable decimal flashSize crcEnable csvContents = .ok t)
    (hnn : ∀ p ∈ t.partitions, 0 ≤ p.offset ∧ 0 < p.size) {rows : List BkPartition}
    (hrows : rows.map (·.withId 0) = t.partitions.map (·.withId 0)) {w : Workdir}
    (hfiles : ∀ p ∈ executePartitions (parsePartitionsInfo rows), ImageFits w p) :
    ∃ infos, bkPackagerJson decimal w (genPackJson (parsePartitionsInfo rows) crcEnable).sections = .ok infos ∧
      infos.map (fun p => (p.addr, p.size)) = (executePartitions t.partitions).map fun p => (p.offset, p.size) := by
  obtain ⟨-, -, hapart⟩ := bkPartitionsTable_eq_ok h
  have hslots := parsePartitionsInfo_slots hrows
  -- what is true of the slots of the table is true of those that are read
  have hnn' : ∀ p ∈ parsePartitionsInfo rows, 0 ≤ p.offset ∧ 0 < p.size := by
    intro p hp
    obtain ⟨q, hq, heq⟩ := List.mem_map.1 (hslots.mem_iff.1 (List.mem_map_of_mem hp))
    simp only [Prod.mk.injEq] at heq
    rw [← heq.2.1, ← heq.2.2]
    exact hnn q hq
  have hapart' : (parsePartitionsInfo rows).Pairwise BkPartition.Apart := by
    have hiff := hslots.pairwise_iff (R := fun a b => Intervals.Apart (a.2.1, a.2.1 + a.2.2) (b.2.1, b.2.1 + b.2.2))
      fun h => h.symm
    rw [List.pairwise_map, List.pairwise_map] at hiff
    exact hiff.2 hapart
  have horder := inOrder_executePartitions hnn' hapart'
  refine ⟨_, horder.bkPackagerJson hfiles, ?_⟩
  rw [List.map_map]
  refine horder.slots_eq (inOrder_executePartitions hnn hapart) ?_
  exact (executePartitions_slots _).trans (((hslots.filter _).map _).trans (executePartitions_slots _).symm)

theorem pack_json_round_trip_sample :
    ∃ t infos, bkPartitionsTable (fun _ => none) "8M".toList true sampleApps = .ok t ∧
      bkPackagerJson (fun _ => none) ⟨fun _ => "", fun _ => some [1]⟩
        (genPackJson (parsePartitionsInfo (sortPartitions ["env".toList] t.partitions)) true).sections = .ok infos ∧
      infos.map (fun p => (p.addr, p.size)) = [(0, 0x11000), (0x11000, 0x11000), (0x22000, 0x11000)] := by
  obtain ⟨t, hok, hnn, hrows, hfits, hslots⟩ :
    ∃ t, bkPartitionsTable (fun _ => none) "8M".toList true sampleApps = .ok t ∧
      (∀ p ∈ t.partitions, 0 ≤ p.offset ∧ 0 < p.size) ∧
      (sortPartitions ["env".toList] t.partitions).map (·.withId 0) = t.partitions.map (·.withId 0) ∧
      (∀ p ∈ executePartitions (parsePartitionsInfo (sortPartitions ["env".toList] t.partitions)), 1 ≤ p.size) ∧
      (executePartitions t.partitions).map (fun p => (p.offset, p.size)) =
        [(0, 0x11000), (0x11000, 0x11000), (0x22000, 0x11000)] := by
    decide +kernel
  obtain ⟨infos, hread, hinfos⟩ := pack_json_round_trip (w := ⟨fun _ => "", fun _ => some [1]⟩) hok hnn hrows
    fun p hp => ⟨[1], rfl, hfits p hp⟩
  exact ⟨t, infos, hok, hread, hinfos.trans hslots⟩

end Bk7258

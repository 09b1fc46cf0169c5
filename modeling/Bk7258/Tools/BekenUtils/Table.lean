import Bk7258.Tools.BekenUtils.Build

/-!
# The partition named `partition`

`create_partition_partition` writes the table of all partitions for the boot loader, behind `ppc_config.bin`. A record
has 32 bytes: 24 for the name in UTF-8, filled up with `0xFF`, and two numbers, the most significant byte first.
-/

namespace Bk7258

structure TableEntry where
  name : List Char
  offset : Nat
  size : Nat
deriving DecidableEq, Repr

def utf8 (name : List Char) : List UInt8 := name.flatMap String.utf8EncodeChar

def nameField (name : List Char) : List UInt8 :=
  if (utf8 name).length < 24 then utf8 name ++ List.replicate (24 - (utf8 name).length) 0xFF else utf8 name

namespace TableEntry

def encode (e : TableEntry) : List UInt8 := nameField e.name ++ Codec.encode 4 e.offset ++ Codec.encode 4 e.size

/-- What the boot loader finds: 24 bytes of name, two numbers -/
def read (bs : List UInt8) : Option (TableEntry × List UInt8) := do
  if 24 ≤ bs.length then
    let name ← ((bs.take 24).takeWhile (· ≠ 0xFF)).toByteArray.utf8Decode?
    let (offset, bs) ← Codec.read 4 (bs.drop 24)
    let (size, bs) ← Codec.read 4 bs
    some (⟨name.toList, offset, size⟩, bs)
  else none

structure Fits (e : TableEntry) : Prop where
  name : (utf8 e.name).length ≤ 24
  offset : e.offset < 256 ^ 4
  size : e.size < 256 ^ 4

end TableEntry

/-! ### Names -/

section
variable {name : List Char} {e : TableEntry}

theorem toNat_lt_of_mem_utf8EncodeChar {c : Char} {b : UInt8} (h : b ∈ String.utf8EncodeChar c) : b.toNat < 0xF8 := by
  unfold String.utf8EncodeChar at h
  dsimp only at h
  have hofNat : ∀ n : Nat, n < 0xF8 → (UInt8.ofNat n).toNat < 0xF8 := fun n hn => by
    rw [UInt8.toNat_ofNat']
    omega
  split at h
  · rw [List.mem_singleton.1 h]
    exact hofNat _ (by omega)
  · split at h
    · simp only [List.mem_cons, List.not_mem_nil, or_false] at h
      rcases h with rfl | rfl
      · exact hofNat _ (by omega)
      · exact hofNat _ (by omega)
    · split at h
      · simp only [List.mem_cons, List.not_mem_nil, or_false] at h
        rcases h with rfl | rfl | rfl
        · exact hofNat _ (by omega)
        · exact hofNat _ (by omega)
        · exact hofNat _ (by omega)
      · simp only [List.mem_cons, List.not_mem_nil, or_false] at h
        rcases h with rfl | rfl | rfl | rfl
        · exact hofNat _ (by omega)
        · exact hofNat _ (by omega)
        · exact hofNat _ (by omega)
        · exact hofNat _ (by omega)

theorem ne_of_mem_utf8 {b : UInt8} (h : b ∈ utf8 name) : b ≠ 0xFF := by
  obtain ⟨c, -, hb⟩ := List.mem_flatMap.1 h
  rintro rfl
  exact absurd (toNat_lt_of_mem_utf8EncodeChar hb) (by decide)

theorem length_nameField (h : (utf8 name).length ≤ 24) : (nameField name).length = 24 := by
  unfold nameField
  split
  · rw [List.length_append, List.length_replicate]
    omega
  · omega

theorem le_length_nameField (name : List Char) :
    24 ≤ (nameField name).length ∧ (utf8 name).length ≤ (nameField name).length := by
  unfold nameField
  split
  · rw [List.length_append, List.length_replicate]
    omega
  · omega

theorem takeWhile_nameField (h : (utf8 name).length ≤ 24) : (nameField name).takeWhile (· ≠ 0xFF) = utf8 name := by
  have hall : ∀ b ∈ utf8 name, decide (b ≠ 0xFF) = true := fun b hb => decide_eq_true (ne_of_mem_utf8 hb)
  unfold nameField
  split
  · rename_i hlt
    obtain ⟨k, hk⟩ : ∃ k, 24 - (utf8 name).length = k + 1 := ⟨23 - (utf8 name).length, by omega⟩
    rw [List.takeWhile_append_of_pos hall, hk, List.replicate_succ, List.takeWhile_cons_of_neg (by decide),
      List.append_nil]
  · exact List.takeWhile_eq_self_iff.2 hall

theorem TableEntry.read_encode (h : e.Fits) (rest : List UInt8) : read (e.encode ++ rest) = some (e, rest) := by
  have hname : (nameField e.name).length = 24 := length_nameField h.name
  have hdecode : (utf8 e.name).toByteArray.utf8Decode? = some e.name.toArray := List.utf8Decode?_utf8Encode
  unfold read encode
  rw [List.append_assoc, List.append_assoc, if_pos (by rw [List.length_append]; omega), List.take_left' hname,
    List.drop_left' hname, takeWhile_nameField h.name, hdecode]
  simp only [Option.bind_eq_bind, Option.bind_some, Codec.read_encode h.offset, Codec.read_encode h.size]

/-- Records are never too short, so a table that is not too long has no name that is. -/
theorem TableEntry.length_table (es : List TableEntry) : 32 * es.length ≤ (es.map encode).flatten.length ∧
    ((es.map encode).flatten.length ≤ 32 * es.length → ∀ e ∈ es, (utf8 e.name).length ≤ 24) := by
  induction es with
  | nil => exact ⟨Nat.le_refl _, fun _ _ he => absurd he List.not_mem_nil⟩
  | cons e es ih =>
    obtain ⟨hfield, hname⟩ := le_length_nameField e.name
    have hlen : e.encode.length = (nameField e.name).length + 8 := by
      rw [encode, List.length_append, List.length_append, Codec.length_encode, Codec.length_encode]
    rw [List.map_cons, List.flatten_cons, List.length_append, List.length_cons, hlen]
    refine ⟨by omega, fun h => List.forall_mem_cons.2 ⟨by omega, ih.2 (by omega)⟩⟩

theorem TableEntry.length_of_read {bs rest : List UInt8} (h : read bs = some (e, rest)) :
    bs.length = 32 + rest.length := by
  unfold read at h
  split at h
  · obtain ⟨name, -, h⟩ := Option.bind_eq_some_iff.1 h
    obtain ⟨⟨offset, bs₁⟩, hoffset, h⟩ := Option.bind_eq_some_iff.1 h
    obtain ⟨⟨size, bs₂⟩, hsize, h⟩ := Option.bind_eq_some_iff.1 h
    cases h
    have h₁ := Codec.length_of_read hoffset
    have h₂ := Codec.length_of_read hsize
    rw [List.length_drop] at h₁
    omega
  · cases h

end

namespace BekenUtils

/-- The record of a partition; `struct.pack` fails if a number does not fit. -/
def packEntry (b : Built) : Except PackErr (List UInt8) := do
  let offset ← (structPack 4 b.part.partitionOffset).mapError .py
  let size ← (structPack 4 b.part.partitionSize).mapError .py
  .ok (nameField b.name ++ offset ++ size)

def createPartitionBin (cfg : AesCfg) (fs : Dir) (partition : Built) : Except PackErr Dir :=
  if cfg.aesType = .random then do
    let raw ← readFile fs "partition_raw.bin".toList
    .ok (Files.write fs "partition.bin".toList raw)
  else do
    let phyPartitionOffset := ceilAlign partition.part.partitionOffset crcUnitTotalSz
    let fixed := cfg.aesType = .fixed
    let aesBinName := if fixed then "partition_aes.bin".toList else "partition_raw.bin".toList
    let fs := if fixed then cfg.run fs "partition_raw.bin".toList aesBinName (phy2virtual phyPartitionOffset) else fs
    let fs ← (crc fs aesBinName "partition_crc.bin".toList).mapError .crc
    let padSize := phyPartitionOffset - partition.part.partitionOffset
    let buf ← readFile fs "partition_crc.bin".toList
    .ok (Files.write fs "partition.bin".toList (List.replicate padSize.toNat 0xFF ++ buf))

def createPartitionPartition (cfg : AesCfg) (built : List Built) (fs : Dir) : Except PackErr (List Built × Dir) :=
  match findBuilt built "partition".toList with
  | none => .ok (built, fs)
  | some partition => do
    let ppcConfig ← readFile fs "ppc_config.bin".toList
    let table ← built.mapM packEntry
    let fs ← createPartitionBin cfg (Files.write fs "partition_raw.bin".toList (ppcConfig ++ table.flatten)) partition
    let bin ← readFile fs "partition.bin".toList
    .ok (updateBuilt built "partition".toList fun b =>
      { b with binName := some "partition.bin".toList, binSize := bin.length }, fs)

def Built.entry (b : Built) : TableEntry := ⟨b.name, b.part.partitionOffset.toNat, b.part.partitionSize.toNat⟩

section
variable {cfg : AesCfg} {built built' : List Built} {fs fs' : Dir} {b : Built}

theorem packEntry_eq_ok {bs : List UInt8} (h : packEntry b = .ok bs) :
    bs = b.entry.encode ∧ b.entry.offset < 256 ^ 4 ∧ b.entry.size < 256 ^ 4 ∧
      (b.entry.offset : Int) = b.part.partitionOffset ∧ (b.entry.size : Int) = b.part.partitionSize := by
  unfold packEntry at h
  obtain ⟨offset, hoffset, h⟩ := Raise.bind_eq_ok.1 h
  obtain ⟨size, hsize, h⟩ := Raise.bind_eq_ok.1 h
  cases h
  obtain ⟨⟨hnn, hlt⟩, rfl⟩ := structPack_eq_ok.1 (Raise.mapError_eq_ok.1 hoffset)
  obtain ⟨⟨hnn', hlt'⟩, rfl⟩ := structPack_eq_ok.1 (Raise.mapError_eq_ok.1 hsize)
  exact ⟨rfl, hlt, hlt', Int.toNat_of_nonneg hnn, Int.toNat_of_nonneg hnn'⟩

theorem createPartitionBin_raw {partition : Built} (h : createPartitionBin cfg fs partition = .ok fs') :
    fs' "partition_raw.bin".toList = fs "partition_raw.bin".toList := by
  unfold createPartitionBin at h
  split at h
  · obtain ⟨raw, -, h⟩ := Raise.bind_eq_ok.1 h
    cases h
    exact Files.write_of_ne (by decide)
  · obtain ⟨fs₁, hcrc, h⟩ := Raise.bind_eq_ok.1 h
    obtain ⟨buf, -, h⟩ := Raise.bind_eq_ok.1 h
    cases h
    obtain ⟨out, rfl⟩ := crcFiles_eq_ok (Raise.mapError_eq_ok.1 hcrc)
    rw [Files.write_of_ne (by decide), Files.write_of_ne (by decide)]
    split
    · exact AesCfg.run_of_ne (by decide)
    · rfl

theorem createPartitionPartition_raw (hfound : findBuilt built "partition".toList ≠ none)
    (h : createPartitionPartition cfg built fs = .ok (built', fs')) :
    ∃ ppcConfig table, fs "ppc_config.bin".toList = some ppcConfig ∧ built.mapM packEntry = .ok table ∧
      fs' "partition_raw.bin".toList = some (ppcConfig ++ table.flatten) := by
  unfold createPartitionPartition at h
  split at h
  · exact absurd ‹_› hfound
  · obtain ⟨ppcConfig, hppc, h⟩ := Raise.bind_eq_ok.1 h
    obtain ⟨table, htable, h⟩ := Raise.bind_eq_ok.1 h
    obtain ⟨fs₁, hbin, h⟩ := Raise.bind_eq_ok.1 h
    obtain ⟨bin, -, h⟩ := Raise.bind_eq_ok.1 h
    cases h
    exact ⟨ppcConfig, table, Raise.orRaise_eq_ok.1 hppc, htable, (createPartitionBin_raw hbin).trans Files.write_self⟩

theorem packEntries_eq_ok {table : List (List UInt8)}
    (h : List.Forall₂ (fun b bs => packEntry b = .ok bs) built table) :
    table = (built.map Built.entry).map TableEntry.encode ∧
      ∀ b ∈ built, b.entry.offset < 256 ^ 4 ∧ b.entry.size < 256 ^ 4 ∧
        (b.entry.offset : Int) = b.part.partitionOffset ∧ (b.entry.size : Int) = b.part.partitionSize := by
  induction h with
  | nil => exact ⟨rfl, fun _ hb => absurd hb List.not_mem_nil⟩
  | cons hb _ ih =>
    obtain ⟨hbs, hfields⟩ := packEntry_eq_ok hb
    refine ⟨?_, List.forall_mem_cons.2 ⟨hfields, ih.2⟩⟩
    rw [List.map_cons, List.map_cons, ← ih.1, hbs]

end

/-- The table is read back if and only if no name is longer than its field. -/
theorem partition_table_decodes {cfg : AesCfg} {built built' : List Built} {fs fs' : Dir}
    (h : createPartitionPartition cfg built fs = .ok (built', fs'))
    (hfound : findBuilt built "partition".toList ≠ none) :
    (∃ ppcConfig table, fs "ppc_config.bin".toList = some ppcConfig ∧
      fs' "partition_raw.bin".toList = some (ppcConfig ++ table) ∧ table.length = 32 * built.length ∧
      Codec.readN TableEntry.read built.length table = some (built.map Built.entry, []) ∧
      ∀ b ∈ built, (b.entry.offset : Int) = b.part.partitionOffset ∧ (b.entry.size : Int) = b.part.partitionSize) ↔
    ∀ b ∈ built, (utf8 b.name).length ≤ 24 := by
  obtain ⟨ppcConfig, table, hppc, htable, hraw⟩ := createPartitionPartition_raw hfound h
  obtain ⟨hencode, hfields⟩ := packEntries_eq_ok (Raise.mapM_eq_ok htable)
  constructor
  · rintro ⟨ppcConfig', table', hppc', hraw', hlen, -, -⟩ b hb
    cases hppc.symm.trans hppc'
    cases List.append_cancel_left (Option.some.inj (hraw.symm.trans hraw'))
    rw [hencode, ← List.length_map (f := Built.entry)] at hlen
    exact (TableEntry.length_table _).2 hlen.le _ (List.mem_map_of_mem hb)
  · intro hnames
    have hfits : ∀ e ∈ built.map Built.entry, e.Fits := by
      intro e he
      obtain ⟨b, hb, rfl⟩ := List.mem_map.1 he
      exact ⟨hnames b hb, (hfields b hb).1, (hfields b hb).2.1⟩
    have hread := Codec.readN_encode (fun e he rest => TableEntry.read_encode (hfits e he) rest) []
    rw [List.length_map, ← hencode, List.append_nil] at hread
    refine ⟨ppcConfig, table.flatten, hppc, hraw, ?_, hread, fun b hb => (hfields b hb).2.2⟩
    exact Codec.length_of_readN TableEntry.length_of_read hread

def tableFiles : Dir := fun file => if file = "ppc_config.bin".toList then some [1, 2] else none

def createTable (names : List String) : Except PackErr (List Built × List Built × Dir) := do
  let rows := names.map fun name => [name, "", "4k", "FALSE", "TRUE", "TRUE"]
  let ps ← (Partitions.init (fun _ => none) "partitions.csv" [] false
    ((["Name", "Offset", "Size", "Execute", "Read", "Write"] :: rows).map (·.map String.toList))).mapError .util
  let built := ps.partitions.map Partition.unbuilt
  let (built', fs) ← createPartitionPartition ⟨.none, [], fun _ _ _ => none⟩ built tableFiles
  .ok (built, built', fs)

theorem partition_table_decodes_sample :
    ∃ built built' fs table, createTable ["partition", "env"] = .ok (built, built', fs) ∧
      fs "partition_raw.bin".toList = some ([1, 2] ++ table) ∧
      Codec.readN TableEntry.read 2 table = some ([⟨"partition".toList, 0, 4096⟩, ⟨"env".toList, 4096, 4096⟩], []) := by
  obtain ⟨⟨built, built', fs⟩, hok, hfound, hnames, hentries⟩ : ∃ r, createTable ["partition", "env"] = .ok r ∧
      (findBuilt r.1 "partition".toList).isSome ∧ (∀ b ∈ r.1, (utf8 b.name).length ≤ 24) ∧
      r.1.map Built.entry = [⟨"partition".toList, 0, 4096⟩, ⟨"env".toList, 4096, 4096⟩] := by
    decide +kernel
  obtain ⟨ps, -, hcreate⟩ := Raise.bind_eq_ok.1 hok
  obtain ⟨⟨built₁, fs₁⟩, hcreate, h⟩ := Raise.bind_eq_ok.1 hcreate
  cases h
  obtain ⟨ppcConfig, table, hppc, hraw, -, hread, -⟩ :=
    (partition_table_decodes hcreate (Option.isSome_iff_ne_none.1 hfound)).2 hnames
  cases hppc
  have hlen : (ps.partitions.map Partition.unbuilt).length = 2 := by
    rw [← List.length_map (f := Built.entry), hentries]
    rfl
  rw [hlen, hentries] at hread
  exact ⟨_, _, _, table, hok, hraw, hread⟩

/-- A name of 25 bytes: the next record starts a byte too late. -/
theorem partition_table_shifted :
    ∃ built built' fs table, createTable ["partition", "a123456789b123456789c1234", "env"] = .ok (built, built', fs) ∧
      built.map Built.entry =
        [⟨"partition".toList, 0, 4096⟩, ⟨"a123456789b123456789c1234".toList, 4096, 4096⟩, ⟨"env".toList, 8192, 4096⟩] ∧
      fs "partition_raw.bin".toList = some ([1, 2] ++ table) ∧ table.length = 97 ∧
      (table.drop 65).take 4 = utf8 "env".toList ++ [0xFF] ∧
      ∀ es, Codec.readN TableEntry.read 3 table ≠ some (es, []) := by
  obtain ⟨⟨built, built', fs⟩, hok, hentries, raw, hraw, htable, hlen, henv⟩ :
    ∃ r, createTable ["partition", "a123456789b123456789c1234", "env"] = .ok r ∧
      r.1.map Built.entry = [⟨"partition".toList, 0, 4096⟩, ⟨"a123456789b123456789c1234".toList, 4096, 4096⟩,
        ⟨"env".toList, 8192, 4096⟩] ∧
      ∃ raw ∈ r.2.2 "partition_raw.bin".toList, raw = [1, 2] ++ raw.drop 2 ∧ (raw.drop 2).length = 97 ∧
        ((raw.drop 2).drop 65).take 4 = utf8 "env".toList ++ [0xFF] := by
    decide +kernel
  refine ⟨built, built', fs, raw.drop 2, hok, hentries, hraw.trans (congrArg some htable), hlen, henv, ?_⟩
  intro es hread
  have hwhole := Codec.length_of_readN TableEntry.length_of_read hread
  rw [hlen] at hwhole
  exact absurd hwhole (by decide)

end BekenUtils
end Bk7258

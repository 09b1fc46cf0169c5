import Bk7258.Tools.FlashPartition

/-!
# The macros of the header

An entry of `BK_FLASH_PARTITIONS_MAP` names two macros for the offset and the size of its partition. Their names are
made of the name of the partition, after executable partitions have got new names, and nothing looks whether two of them
are the same: `env` and `ENV` have the same macros, and so have all executable partitions with `bootloader` in their
names.
-/

namespace Bk7258

def isIdent (c : Char) : Bool := c.isAlphanum || c = '_'

/-- A `#define` as the preprocessor takes it: the name goes as far as its characters are those of an identifier, and
what follows after blanks is the replacement. -/
def HdrMacro.read (d : HdrMacro) : HdrMacro :=
  let text := Py.ljust 45 d.name ++ " ".toList ++ d.value
  ⟨text.takeWhile isIdent, (text.dropWhile isIdent).dropWhile (· = ' ')⟩

namespace LayoutHdr

def macros (h : LayoutHdr) : List HdrMacro :=
  h.config ++ ⟨"BK_PARTITIONS_TABLE_SIZE".toList, Py.str h.tableSize⟩ :: h.ids ++
    [⟨"BK_FLASH_PARTITIONS_MAP".toList, "\x7b \\\n".toList ++ h.entries.flatMap HdrEntry.line ++ "\x7d".toList⟩]

def expand (h : LayoutHdr) (name : List Char) : Option (List Char) :=
  ((h.macros.map HdrMacro.read).reverse.find? (·.name = name)).map (·.value)

def value (decimal : Char → Option (Fin 10)) (h : LayoutHdr) (name : List Char) : Option Int :=
  (h.expand name).bind (Py.int decimal 16)

end LayoutHdr

/-! ### One macro -/

theorem HdrMacro.text_eq (d : HdrMacro) : Py.ljust 45 d.name ++ " ".toList ++ d.value =
    d.name ++ ' ' :: (List.replicate (45 - d.name.length) ' ' ++ d.value) := by
  have hblanks : List.replicate (45 - d.name.length) ' ' ++ " ".toList =
      ' ' :: List.replicate (45 - d.name.length) ' ' :=
    List.replicate_succ'.symm
  rw [Py.ljust, List.append_assoc d.name, hblanks, List.append_assoc]
  rfl

theorem HdrMacro.read_name {d : HdrMacro} (h : ∀ c ∈ d.name, isIdent c) : d.read.name = d.name := by
  show List.takeWhile isIdent (_ ++ d.value) = d.name
  rw [text_eq, List.takeWhile_append_of_pos h, List.takeWhile_cons_of_neg (by decide), List.append_nil]

theorem HdrMacro.read_eq {d : HdrMacro} (h : ∀ c ∈ d.name, isIdent c) (hv : d.value.dropWhile (· = ' ') = d.value) :
    d.read = d := by
  have hvalue : d.read.value = d.value := by
    show List.dropWhile _ (List.dropWhile isIdent (_ ++ d.value)) = d.value
    rw [text_eq, List.dropWhile_append_of_pos h, List.dropWhile_cons_of_neg (by decide),
      List.dropWhile_cons_of_pos (by decide),
      List.dropWhile_append_of_pos (by simp), hv]
  calc d.read = ⟨d.read.name, d.read.value⟩ := rfl
    _ = d := by rw [read_name h, hvalue]

theorem LayoutHdr.expand_eq {h : LayoutHdr} (hnd : (h.macros.map (·.read.name)).Nodup) {d : HdrMacro}
    (hd : d ∈ h.macros)
    (hread : d.read = d) : h.expand d.name = some d.value := by
  have hmem : d ∈ (h.macros.map HdrMacro.read).reverse := List.mem_reverse.2 (List.mem_map.2 ⟨d, hd, hread⟩)
  have hnd' : ((h.macros.map HdrMacro.read).reverse.map (·.name)).Nodup := by
    rw [List.map_reverse, List.nodup_reverse, List.map_map]
    exact hnd
  have hsome : ((h.macros.map HdrMacro.read).reverse.find? (·.name = d.name)).isSome :=
    List.find?_isSome.2 ⟨d, hmem, decide_eq_true rfl⟩
  obtain ⟨e, he⟩ := Option.isSome_iff_exists.1 hsome
  have hed : e = d := List.inj_on_of_nodup_map hnd' (List.mem_of_find?_eq_some he) hmem
    (of_decide_eq_true (List.find?_some he :))
  rw [expand, he, hed]
  rfl

theorem LayoutHdr.isIdent_of_expand {h : LayoutHdr} {name v : List Char} (he : h.expand name = some v) :
    ∀ c ∈ name, isIdent c := by
  obtain ⟨e, he, -⟩ := Option.map_eq_some_iff.1 he
  obtain rfl : e.name = name := of_decide_eq_true (List.find?_some he :)
  obtain ⟨d, -, rfl⟩ := List.mem_map.1 (List.mem_reverse.1 (List.mem_of_find?_eq_some he))
  exact fun c hc => List.mem_takeWhile_imp hc

/-! ### All of them -/

section
variable {upper : Char → List Char} {m n : List Char}

theorem config_name_inj {s : List Char}
    (h : "CONFIG_".toList ++ hdrName upper m ++ s = "CONFIG_".toList ++ hdrName upper n ++ s) :
    hdrName upper m = hdrName upper n :=
  List.append_cancel_left (List.append_cancel_right h)

theorem macroOffset_ne_macroSize : macroOffset upper m ≠ macroSize upper n := by
  intro h
  have hcmp := List.suffix_or_suffix_of_suffix (List.suffix_append _ _) (h ▸ List.suffix_append _ _ :
    "_PARTITION_SIZE".toList <:+ macroOffset upper m)
  exact absurd hcmp (by decide)

variable {parts : List BkPartition}

theorem nodup_hdrConfig (hnames : (parts.map fun p => hdrName upper p.name).Nodup) :
    ((parts.flatMap (hdrConfig upper)).map (·.name)).Nodup := by
  rw [List.map_flatMap]
  refine List.nodup_flatMap.2 ⟨fun p _ => ?_, (List.pairwise_map.1 hnames).imp fun {p q} hne => ?_⟩
  · exact List.nodup_cons.2 ⟨fun h => macroOffset_ne_macroSize (List.mem_singleton.1 h), List.nodup_singleton _⟩
  · show List.Disjoint [macroOffset upper p.name, macroSize upper p.name] [macroOffset upper q.name,
      macroSize upper q.name]
    simp only [List.disjoint_cons_left, List.mem_cons, List.not_mem_nil, or_false, not_or,
      List.disjoint_nil_left, and_true]
    exact ⟨⟨fun h => hne (config_name_inj h), macroOffset_ne_macroSize⟩,
      fun h => macroOffset_ne_macroSize h.symm, fun h => hne (config_name_inj h)⟩

theorem hdrConfig_ends {x : List Char} (hx : x ∈ (parts.flatMap (hdrConfig upper)).map (·.name)) :
    "CONFIG_".toList <+: x ∧ ("_PARTITION_OFFSET".toList <:+ x ∨ "_PARTITION_SIZE".toList <:+ x) := by
  obtain ⟨d, hd, rfl⟩ := List.mem_map.1 hx
  obtain ⟨p, -, hd⟩ := List.mem_flatMap.1 hd
  rcases List.mem_pair.1 hd with rfl | rfl
  · exact ⟨⟨_, (List.append_assoc ..).symm⟩, .inl (List.suffix_append ..)⟩
  · exact ⟨⟨_, (List.append_assoc ..).symm⟩, .inr (List.suffix_append ..)⟩

theorem nodup_macros {flashCrcEnable : Bool} {h : LayoutHdr} (hh : layoutHdr upper parts flashCrcEnable = .ok h)
    (hnames : (parts.map fun p => hdrName upper p.name).Nodup) : (h.macros.map (·.name)).Nodup := by
  obtain ⟨last, -, hh⟩ := Raise.bind_eq_ok.1 hh
  cases hh
  have hids : ∀ x ∈ parts.map fun p => macroId upper p.name, "BK_PARTITION_".toList <+: x := by
    intro x hx
    obtain ⟨p, -, rfl⟩ := List.mem_map.1 hx
    exact List.prefix_append ..
  have hnodup : (parts.map fun p => macroId upper p.name).Nodup := by
    refine List.pairwise_map.2 ((List.pairwise_map.1 hnames).imp fun hne h => hne ?_)
    exact List.append_cancel_left h
  have hconfig : ("CONFIG_FLASH_CRC_ENABLE".toList :: "CONFIG_PARTITIONS_NUM".toList ::
      (parts.flatMap (hdrConfig upper)).map (·.name)).Nodup := by
    refine List.nodup_cons.2 ⟨fun h => ?_, List.nodup_cons.2 ⟨fun h => ?_, nodup_hdrConfig hnames⟩⟩
    · rcases List.mem_cons.1 h with h | h
      · exact absurd h (by decide)
      · exact absurd (hdrConfig_ends h).2 (by decide)
    · exact absurd (hdrConfig_ends h).2 (by decide)
  have hrest : ("BK_PARTITIONS_TABLE_SIZE".toList :: (parts.map fun p => macroId upper p.name) ++
      ["BK_FLASH_PARTITIONS_MAP".toList]).Nodup := by
    refine List.nodup_append'.2 ⟨List.nodup_cons.2 ⟨fun h => ?_, hnodup⟩, List.nodup_singleton _,
      List.disjoint_singleton.2 fun h => ?_⟩
    · exact absurd (hids _ h) (by decide)
    · rcases List.mem_cons.1 h with h | h
      · exact absurd h (by decide)
      · exact absurd (hids _ h) (by decide)
  have hall := List.nodup_append'.2 ⟨hconfig, hrest, fun x hx hx' => by
    have hc : "CONFIG_".toList <+: x := by
      refine List.forall_mem_cons.2 ⟨by decide, List.forall_mem_cons.2 ⟨by decide, fun x hx => ?_⟩⟩ x hx
      exact (hdrConfig_ends hx).1
    have hb : "BK_".toList <+: x := by
      refine List.forall_mem_append.2 ⟨List.forall_mem_cons.2 ⟨by decide, fun x hx => ?_⟩, by decide⟩ x hx'
      exact List.IsPrefix.trans (by decide) (hids x hx)
    exact absurd (List.prefix_or_prefix_of_prefix hc hb) (by decide)⟩
  simpa only [LayoutHdr.macros, List.map_append, List.map_cons, List.map_map, List.map_nil, List.append_assoc,
    List.cons_append, Function.comp_def] using hall

theorem isIdent_macros {flashCrcEnable : Bool} {h : LayoutHdr} (hh : layoutHdr upper parts flashCrcEnable = .ok h)
    (hident : ∀ p ∈ parts, ∀ c ∈ hdrName upper p.name, isIdent c) : ∀ d ∈ h.macros, ∀ c ∈ d.name, isIdent c := by
  obtain ⟨last, -, hh⟩ := Raise.bind_eq_ok.1 hh
  cases hh
  have hall : ∀ l : List Char, l.all isIdent = true → ∀ c ∈ l, isIdent c := fun _ => List.all_eq_true.1
  simp only [LayoutHdr.macros, List.forall_mem_append, List.forall_mem_cons, List.forall_mem_map]
  refine ⟨⟨⟨hall _ rfl, hall _ rfl, fun d hd => ?_⟩, hall _ rfl, fun p hp => ?_⟩, hall _ rfl, nofun⟩
  · obtain ⟨p, hp, hd⟩ := List.mem_flatMap.1 hd
    rcases List.mem_pair.1 hd with rfl | rfl
    · exact List.forall_mem_append.2 ⟨List.forall_mem_append.2 ⟨hall _ rfl, hident p hp⟩, hall _ rfl⟩
    · exact List.forall_mem_append.2 ⟨List.forall_mem_append.2 ⟨hall _ rfl, hident p hp⟩, hall _ rfl⟩
  · exact List.forall_mem_append.2 ⟨hall _ rfl, hident p hp⟩

end

/-! ### What the entries stand for -/

section
variable {upper : Char → List Char} {parts : List BkPartition} {flashCrcEnable : Bool} {hdr : LayoutHdr}
  {p : BkPartition}
  {d : HdrMacro}

theorem layoutHdr_entries (hhdr : layoutHdr upper parts flashCrcEnable = .ok hdr) :
    hdr.entries = parts.map (hdrEntry upper) := by
  obtain ⟨last, -, hhdr⟩ := Raise.bind_eq_ok.1 hhdr
  cases hhdr
  rfl

theorem mem_macros (hhdr : layoutHdr upper parts flashCrcEnable = .ok hdr) (hp : p ∈ parts)
    (hd : d ∈ hdrConfig upper p) :
    d ∈ hdr.macros := by
  obtain ⟨last, -, hhdr⟩ := Raise.bind_eq_ok.1 hhdr
  cases hhdr
  refine List.mem_append_left _ (List.mem_append_left _ ?_)
  exact List.mem_cons_of_mem _ (List.mem_cons_of_mem _ (List.mem_flatMap.2 ⟨p, hp, hd⟩))

theorem nodup_hdrName (hhdr : layoutHdr upper parts flashCrcEnable = .ok hdr) (hnd : (hdr.macros.map (·.name)).Nodup) :
    (parts.map fun p => hdrName upper p.name).Nodup := by
  obtain ⟨last, -, hhdr⟩ := Raise.bind_eq_ok.1 hhdr
  cases hhdr
  simp only [LayoutHdr.macros, List.map_append, List.map_cons, List.map_map] at hnd
  have hids := (List.nodup_cons.1 (List.nodup_append'.1 (List.nodup_append'.1 hnd).1).2.1).2
  exact List.pairwise_map.2 ((List.pairwise_map.1 hids).imp fun hne h => hne (congrArg ("BK_PARTITION_".toList ++ ·) h))

theorem LayoutHdr.value_eq {decimal : Char → Option (Fin 10)} (hhdr : layoutHdr upper parts flashCrcEnable = .ok hdr)
    (hid : ∀ d ∈ hdr.macros, ∀ c ∈ d.name, isIdent c) (hnd : (hdr.macros.map (·.read.name)).Nodup) (hp : p ∈ parts)
    (hd : d ∈ hdrConfig upper p) {x : Int} (hdx : d.value = '0' :: 'x' :: Py.hex 8 x) :
    hdr.value decimal d.name = if 0 ≤ x then some x else none := by
  have hmem := mem_macros hhdr hp hd
  have hread : d.read = d := HdrMacro.read_eq (hid d hmem) (by rw [hdx]; rfl)
  rw [LayoutHdr.value, LayoutHdr.expand_eq hnd hmem hread, hdx, Option.bind_some]
  split
  · exact Py.int_hex ‹_› 8
  · exact Py.int_hex_of_neg (by omega) 8

/-- The macros of one entry have the numbers of the partition exactly when these are not negative. -/
theorem LayoutHdr.values_iff (decimal : Char → Option (Fin 10)) (hhdr : layoutHdr upper parts flashCrcEnable = .ok hdr)
    (hid : ∀ d ∈ hdr.macros, ∀ c ∈ d.name, isIdent c) (hnd : (hdr.macros.map (·.read.name)).Nodup) (hp : p ∈ parts) :
    (hdr.value decimal (macroOffset upper p.name) = some p.offset ∧
      hdr.value decimal (macroSize upper p.name) = some p.size) ↔ 0 ≤ p.offset ∧ 0 ≤ p.size := by
  rw [value_eq hhdr hid hnd hp (d := ⟨macroOffset upper p.name, _⟩) (List.mem_cons_self ..) rfl,
    value_eq hhdr hid hnd hp (d := ⟨macroSize upper p.name, _⟩) (List.mem_cons_of_mem _ (List.mem_singleton.2 rfl)) rfl]
  simp

theorem LayoutHdr.values_all_iff (decimal : Char → Option (Fin 10))
    (hhdr : layoutHdr upper parts flashCrcEnable = .ok hdr) :
    ((hdr.macros.map (·.read.name)).Nodup ∧ ∀ p ∈ parts,
      hdr.value decimal (macroOffset upper p.name) = some p.offset ∧
        hdr.value decimal (macroSize upper p.name) = some p.size) ↔
      (∀ p ∈ parts, ∀ c ∈ hdrName upper p.name, isIdent c) ∧ (parts.map fun p => hdrName upper p.name).Nodup ∧
        ∀ p ∈ parts, 0 ≤ p.offset ∧ 0 ≤ p.size := by
  constructor
  · rintro ⟨hmacros, hvals⟩
    have hident : ∀ p ∈ parts, ∀ c ∈ hdrName upper p.name, isIdent c := by
      intro p hp c hc
      obtain ⟨v, hv, -⟩ := Option.bind_eq_some_iff.1 (hvals p hp).1
      exact LayoutHdr.isIdent_of_expand hv c (List.mem_append_left _ (List.mem_append_right _ hc))
    have hid := isIdent_macros hhdr hident
    have hnames := hmacros
    rw [List.map_congr_left fun d hd => HdrMacro.read_name (hid d hd)] at hnames
    exact ⟨hident, nodup_hdrName hhdr hnames, fun p hp => (values_iff decimal hhdr hid hmacros hp).1 (hvals p hp)⟩
  · rintro ⟨hident, hnames, hnn⟩
    have hid := isIdent_macros hhdr hident
    have hmacros : (hdr.macros.map (·.read.name)).Nodup := by
      rw [List.map_congr_left fun d hd => HdrMacro.read_name (hid d hd)]
      exact nodup_macros hhdr hnames
    exact ⟨hmacros, fun p hp => (values_iff decimal hhdr hid hmacros hp).2 (hnn p hp)⟩

end

/-- The row an entry is made of -/
theorem parsePartitionsInfo_row {rows : List BkPartition} {p : BkPartition} (hp : p ∈ parsePartitionsInfo rows) :
    ∃ r ∈ rows, r.id = p.id ∧ r.offset = p.offset ∧ r.size = p.size ∧ r.execute = p.execute ∧ r.read = p.read ∧
      r.write = p.write := by
  have hperm := parsePartitionsInfo_perm
    (f := fun p => (p.id, p.offset, p.size, p.execute, p.read, p.write)) (fun _ _ => rfl) rows
  obtain ⟨r, hr, hpr⟩ := List.mem_map.1 (hperm.mem_iff.1 (List.mem_map_of_mem hp))
  simp only [Prod.mk.injEq] at hpr
  exact ⟨r, hr, hpr⟩

theorem nonneg_iff_of_perm {ps qs : List BkPartition}
    (h : (ps.map fun p => (p.offset, p.size)).Perm (qs.map fun p => (p.offset, p.size))) :
    (∀ p ∈ ps, 0 ≤ p.offset ∧ 0 ≤ p.size) ↔ ∀ p ∈ qs, 0 ≤ p.offset ∧ 0 ≤ p.size := by
  have hall (l : List BkPartition) : (∀ p ∈ l, 0 ≤ p.offset ∧ 0 ≤ p.size) ↔
      ∀ x ∈ l.map fun p => (p.offset, p.size), 0 ≤ x.1 ∧ 0 ≤ x.2 := by simp
  rw [hall, hall]
  exact forall_congr' fun x => imp_congr_left h.mem_iff

theorem sorted_rows {decimal : Char → Option (Fin 10)} {flashSize csvContents : List Char} {crcEnable : Bool}
    {t : PartTable}
    (h : bkPartitionsTable decimal flashSize crcEnable csvContents = .ok t) {reserved : List (List Char)}
    (hnd : reserved.Nodup) (hlen : reserved.length < 10000) (n : Nat) :
    (((sortPartitions reserved)^[n] t.partitions).map (·.id)).Nodup ∧
      ((sortPartitions reserved)^[n] t.partitions).map (fun p => (p.offset, p.size)) =
        t.partitions.map fun p => (p.offset, p.size) := by
  cases n with
  | zero =>
    refine ⟨?_, rfl⟩
    show (t.partitions.map (·.id)).Nodup
    rw [bkPartitionsTable_ids h]
    exact List.nodup_range
  | succ n =>
    rw [iterate_sortPartitions hnd hlen]
    exact ⟨nodup_sortPartitions hnd hlen _, map_sortPartitions hnd hlen _ fun _ _ => rfl⟩

/-- The names of the macros are different ones, and the entry of an id has the place and the options of the partition
with this id, exactly when the names of the partitions give different identifiers and no number is negative. -/
theorem layout_hdr_expands {decimal : Char → Option (Fin 10)} {flashSize csvContents : List Char} {crcEnable : Bool}
    {t : PartTable} (h : bkPartitionsTable decimal flashSize crcEnable csvContents = .ok t)
    {reserved : List (List Char)}
    (hnd : reserved.Nodup) (hlen : reserved.length < 10000) {n : Nat} {rows parts : List BkPartition}
    (hrows : (sortPartitions reserved)^[n] t.partitions = rows) (hparts : parsePartitionsInfo rows = parts)
    {upper : Char → List Char} {hdr : LayoutHdr} (hhdr : layoutHdr upper parts crcEnable = .ok hdr) :
    ((hdr.macros.map (·.read.name)).Nodup ∧ (hdr.entries.map (·.id)).Perm (rows.map (·.id)) ∧
      ∀ e ∈ hdr.entries, ∀ r ∈ rows, e.id = r.id →
        hdr.value decimal e.macroOffset = some r.offset ∧ hdr.value decimal e.macroSize = some r.size ∧
        e.execute = r.execute ∧ e.read = r.read ∧ e.write = r.write) ↔
      (∀ p ∈ parts, ∀ c ∈ hdrName upper p.name, isIdent c) ∧ (parts.map fun p => hdrName upper p.name).Nodup ∧
        ∀ p ∈ t.partitions, 0 ≤ p.offset ∧ 0 ≤ p.size := by
  obtain ⟨hids, hslots⟩ := sorted_rows h hnd hlen n
  rw [hrows] at hids hslots
  have hsign : (∀ p ∈ parts, 0 ≤ p.offset ∧ 0 ≤ p.size) ↔ ∀ p ∈ t.partitions, 0 ≤ p.offset ∧ 0 ≤ p.size := by
    refine nonneg_iff_of_perm ?_
    rw [← hslots, ← hparts]
    exact parsePartitionsInfo_perm (fun _ _ => rfl) rows
  rw [← hsign, ← LayoutHdr.values_all_iff decimal hhdr]
  refine and_congr_right fun hmacros => ⟨?_, fun hvals => ⟨?_, ?_⟩⟩
  · rintro ⟨-, hall⟩ p hp
    obtain ⟨r, hr, hid, hoff, hsize, -⟩ := parsePartitionsInfo_row (hparts ▸ hp)
    have hentry : hdrEntry upper p ∈ hdr.entries := layoutHdr_entries hhdr ▸ List.mem_map_of_mem hp
    obtain ⟨ho, hs, -⟩ := hall _ hentry r hr hid.symm
    exact ⟨hoff ▸ ho, hsize ▸ hs⟩
  · rw [layoutHdr_entries hhdr, List.map_map, ← hparts]
    exact parsePartitionsInfo_perm (fun _ _ => rfl) rows
  · intro e he r hr her
    rw [layoutHdr_entries hhdr] at he
    obtain ⟨p, hp, rfl⟩ := List.mem_map.1 he
    obtain ⟨q, hq, hqid, hoff, hsize, hx, hread, hwrite⟩ := parsePartitionsInfo_row (hparts ▸ hp)
    obtain rfl : q = r := List.inj_on_of_nodup_map hids hq hr (hqid.trans her)
    rw [hoff, hsize, hx, hread, hwrite]
    exact ⟨(hvals p hp).1, (hvals p hp).2, rfl, rfl, rfl⟩

theorem layout_hdr_expands_sample :
    ∃ t, bkPartitionsTable (fun _ => none) "8M".toList true sampleTable = .ok t ∧
      ∃ hdr, layoutHdr (fun c => [c.toUpper])
      (parsePartitionsInfo (sortPartitions ["env".toList] t.partitions)) true = .ok hdr ∧
        (hdr.macros.map (·.read.name)).Nodup ∧
        ∀ e ∈ hdr.entries, e.id = 0 → hdr.value (fun _ => none) e.macroOffset = some 0x11000 := by
  obtain ⟨t, hok, hdr, hhdr, hnn, hident, hnames, r, hr, hid, hoff⟩ :
    ∃ t, bkPartitionsTable (fun _ => none) "8M".toList true sampleTable = .ok t ∧
      ∃ hdr, layoutHdr (fun c => [c.toUpper])
        (parsePartitionsInfo (sortPartitions ["env".toList] t.partitions)) true = .ok hdr ∧
      (∀ p ∈ t.partitions, 0 ≤ p.offset ∧ 0 ≤ p.size) ∧
      (∀ p ∈ parsePartitionsInfo (sortPartitions ["env".toList] t.partitions),
        (hdrName (fun c => [c.toUpper]) p.name).all isIdent) ∧
      ((parsePartitionsInfo (sortPartitions ["env".toList] t.partitions)).map
        fun p => hdrName (fun c => [c.toUpper]) p.name).Nodup ∧
      ∃ r ∈ sortPartitions ["env".toList] t.partitions, r.id = 0 ∧ r.offset = 0x11000 := by
    decide +kernel
  obtain ⟨hmacros, -, hall⟩ := (layout_hdr_expands hok (List.nodup_singleton "env".toList) (by decide)
    (n := 1) rfl rfl hhdr).2
    ⟨fun p hp => List.all_eq_true.1 (hident p hp), hnames, hnn⟩
  exact ⟨t, hok, hdr, hhdr, hmacros, fun e he hzero => hoff ▸ (hall e he r hr (hzero.trans hid.symm)).1⟩

/-- Two bootloaders have the same macros, and the entry of the first has the offset of the second. -/
theorem layout_hdr_clash :
    ∃ t, bkPartitionsTable (fun _ => none) "8M".toList true
        "bootloader,0x0,68K,code,TRUE,FALSE\nbootloader_b,,68K,code,TRUE,FALSE".toList = .ok t ∧
      (∃ r ∈ t.partitions, r.id = 0 ∧ r.offset = 0) ∧
      ∃ hdr, layoutHdr (fun c => [c.toUpper]) (parsePartitionsInfo t.partitions) true = .ok hdr ∧
        ¬(hdr.macros.map (·.read.name)).Nodup ∧
        ∃ e ∈ hdr.entries, e.id = 0 ∧ hdr.value (fun _ => none) e.macroOffset = some 0x11000 := by
  decide +kernel

end Bk7258

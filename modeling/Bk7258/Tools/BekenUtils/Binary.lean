import Bk7258.Tools.BekenUtils.Layout

/-!
# Binaries in their partitions

Code is written to the flash with the CRC of its blocks, at `phy_code_offset`; data is written as it is.
`parse_and_validate_bin` compares virtual addresses for code. The virtual partitions `primary_all` and `secondary_all`
are among the partitions of the table, with the binary of their first child.
-/

namespace Bk7258.BekenUtils
open Raise

namespace Partition

def imageStart (p : Partition) : Int :=
  if p.isAppPartition then (p.code.map (·.1.phyCodeOffset)).getD p.partitionOffset else p.partitionOffset

def imageSize (p : Partition) (binSize : Int) : Int := if p.isAppPartition then crcSize binSize else binSize

def Bounded (p : Partition) : Prop :=
  p.isAppPartition → ∃ hdr o s size, 0 ≤ hdr ∧ p.code = some (o, s) ∧
    o = calculateOffset p.dbusEn p.partitionOffset hdr ∧
    s.virPartitionSize = (calculateSize o p.partitionOffset size).virPartitionSize ∧ size ≤ p.partitionSize

variable {p : Partition}

theorem Placed.bounded (h : p.Placed) : p.Bounded := by
  intro happ
  obtain ⟨hdr, hcases, hcode⟩ := h happ
  exact ⟨hdr, _, _, p.partitionSize, hdr_nonneg hcases, hcode, rfl, rfl, le_rfl⟩

variable {binSize : Int}

theorem parseAndValidateBin_eq_ok {fileSize : Option Nat} (hname : p.binName ≠ none)
    (h : p.parseAndValidateBin fileSize = .ok binSize) : p.checkBinSize binSize = .ok () := by
  unfold parseAndValidateBin at h
  split at h
  · exact absurd ‹_› hname
  · obtain ⟨n, -, h⟩ := Raise.bind_eq_ok.1 h
    obtain ⟨_, hcheck, h⟩ := Raise.bind_eq_ok.1 h
    cases h
    exact hcheck

theorem Bounded.le_imageStart (hp : p.Bounded) : p.partitionOffset ≤ p.imageStart := by
  unfold imageStart
  split
  · rename_i happ
    obtain ⟨hdr, o, s, size, hnonneg, hcode, rfl, -, -⟩ := hp happ
    rw [hcode]
    exact (calculateOffset_code p.dbusEn p.partitionOffset hnonneg).2.2
  · exact le_rfl

theorem Bounded.inside (hp : p.Bounded) (h : p.checkBinSize binSize = .ok ())
    (hcond : p.isAppPartition → p.dbusEn ∨ 34 ∣ p.partitionOffset ∨ (binSize % 32 ≠ 1 ∧ binSize % 32 ≠ 2)) :
    p.partitionOffset ≤ p.imageStart ∧ p.imageStart + p.imageSize binSize ≤ p.stop := by
  refine ⟨hp.le_imageStart, ?_⟩
  unfold checkBinSize at h
  dsimp only at h
  unfold imageStart imageSize
  split at h
  · rename_i happ
    obtain ⟨⟨o', s'⟩, hcode', h⟩ := Raise.bind_eq_ok.1 h
    obtain ⟨hdr, o, s, size, -, hcode, rfl, hvir, hle⟩ := hp happ
    rw [hcode] at hcode'
    cases hcode'
    have hfits := exitIf_eq_ok.1 h
    dsimp only at hfits
    rw [hvir] at hfits
    rw [if_pos happ, if_pos happ, hcode]
    have hend := calculateSize_fits p.dbusEn (hcond happ) (not_lt.1 hfits)
    exact hend.trans (by show _ ≤ p.partitionOffset + p.partitionSize; omega)
  · rename_i happ
    rw [if_neg happ, if_neg happ]
    have hfits := exitIf_eq_ok.1 h
    show _ ≤ p.partitionOffset + p.partitionSize
    omega

end Partition

/-! ### Names -/

section
variable {decimal : Char → Option (Fin 10)}

theorem createLoop_names {rows : List (Pdic × Nat)} : ∀ {st st' : Partitions × Int},
    rows.foldlM (createStep decimal) st = .ok st' → st'.1.partitions.map (fun p => some p.partitionName) =
        st.1.partitions.map (fun p => some p.partitionName) ++ rows.map fun row => row.1 .name := by
  induction rows with
  | nil =>
    intro st st' h
    cases h
    exact (List.append_nil _).symm
  | cons row rows ih =>
    intro st st' h
    rw [List.foldlM_cons] at h
    obtain ⟨st₁, hstep, hloop⟩ := Raise.bind_eq_ok.1 h
    unfold createStep at hstep
    obtain ⟨⟨ps₁, p⟩, hinit, hstep⟩ := Raise.bind_eq_ok.1 hstep
    cases hstep
    obtain ⟨hmade, -, -, -, rfl⟩ := Partition.init_eq_ok hinit
    rw [ih hloop, List.map_cons, hmade.name, List.map_append, List.append_assoc]
    rfl

theorem createNormalPartitions_names {dicList : List Pdic} {ps ps' : Partitions} (hnone : ps.partitions = [])
    (h : createNormalPartitions decimal ps dicList = .ok ps') :
    ps'.partitions.map (fun p => some p.partitionName) = dicList.map fun pdic => pdic .name := by
  unfold createNormalPartitions at h
  obtain ⟨st, hloop, h⟩ := Raise.bind_eq_ok.1 h
  cases h
  have hzip : dicList.zipIdx.map (fun row => row.1 .name) = dicList.map fun pdic => pdic .name := by
    calc dicList.zipIdx.map (fun row => row.1 .name)
      _ = (dicList.zipIdx.map Prod.fst).map (fun pdic => pdic .name) := by rw [List.map_map]; rfl
      _ = dicList.map fun pdic => pdic .name := by rw [List.zipIdx_map_fst]
  rw [createLoop_names hloop, hnone, List.map_nil, List.nil_append, hzip]

theorem Partitions.init_eq_ok {partitionCsv : String} {otaType : List Char} {bl1SecurebootEn : Bool}
    {rows : List (List (List Char))} {ps : Partitions}
    (h : Partitions.init decimal partitionCsv otaType bl1SecurebootEn rows = .ok ps) :
    ∃ ps₀ dicList ps₁, (ps₀.partitions = [] ∧ ps₀.primaryPartitionsVerifiedByBl2 = [] ∧
        ps₀.secondaryPartitionsVerifiedByBl2 = []) ∧
      createNormalPartitions decimal ps₀ dicList = .ok ps₁ ∧ (ps₁.partitions.map (·.partitionName)).Nodup ∧
      createAllPartitions ps₁ = .ok ps := by
  unfold Partitions.init at h
  obtain ⟨dicList, -, h⟩ := Raise.bind_eq_ok.1 h
  obtain ⟨ps₀, h₀, h⟩ := Raise.bind_eq_ok.1 h
  obtain ⟨_, hbefore, h⟩ := Raise.bind_eq_ok.1 h
  obtain ⟨ps₁, h₁, h⟩ := Raise.bind_eq_ok.1 h
  obtain ⟨hnone, hprimary, hsecondary, hmap, -⟩ := initGlobals_eq_ok h₀
  have hnodup : ps₀.partitionNames.Nodup := by
    unfold parseAndValidatePartitionsBeforeCreate at hbefore
    obtain ⟨_, -, hbefore⟩ := Raise.bind_eq_ok.1 hbefore
    obtain ⟨_, hdup, -⟩ := Raise.bind_eq_ok.1 hbefore
    exact not_not.1 (exitIf_eq_ok.1 hdup)
  have hnames : ps₁.partitions.map (·.partitionName) = ps₀.partitionNames := by
    refine List.map_injective_iff.2 (Option.some_injective _) ?_
    rw [← hmap, ← createNormalPartitions_names hnone h₁, List.map_map]
    rfl
  exact ⟨ps₀, dicList, ps₁, ⟨hnone, hprimary, hsecondary⟩, h₁, hnames ▸ hnodup, h⟩

end

variable {l : List Partition} {p : Partition}

theorem find_of_nodup (hl : (l.map (·.partitionName)).Nodup) (hp : p ∈ l) :
    l.find? (fun q => p.partitionName = q.partitionName) = some p := by
  induction l with
  | nil => exact absurd hp List.not_mem_nil
  | cons q l ih =>
    obtain ⟨hq, hl⟩ := List.nodup_cons.1 hl
    rcases List.mem_cons.1 hp with rfl | hp
    · exact List.find?_cons_of_pos (decide_eq_true rfl)
    · have hne : p.partitionName ≠ q.partitionName := fun h => hq (List.mem_map.2 ⟨p, hp, h⟩)
      rw [List.find?_cons_of_neg (by simpa using hne)]
      exact ih hl hp

variable {name : List Char}

theorem mem_insertAfter {q : Partition} (h : q ∈ insertAfter l name p) : q ∈ l ∨ q = p := by
  unfold insertAfter at h
  rcases List.mem_append.1 h with h | h
  · exact .inl (List.mem_of_mem_take h)
  · rcases List.mem_cons.1 h with h | h
    · exact .inr h
    · exact .inl (List.mem_of_mem_drop h)

theorem find_insertAfter {f : Partition → Bool} (hp : ¬f p = true) : (insertAfter l name p).find? f = l.find? f := by
  unfold insertAfter
  dsimp only
  rw [List.find?_append, List.find?_cons_of_neg hp, ← List.find?_append, List.take_append_drop]

/-! ### The virtual partitions -/

structure Children (ps : Partitions) (children : List Partition) : Prop where
  find : ∀ p ∈ children, ps.findPartitionByName p.partitionName = some p
  dbus : ∀ p ∈ children, p.dbusEn = true
  placed : ∀ p ∈ children, p.Placed ∧ 0 ≤ p.partitionSize
  ordered : children.Pairwise fun p q => p.stop ≤ q.partitionOffset

variable {first : Partition}

theorem Children.stop_le_last {ps : Partitions} {last : Partition} {rest : List Partition}
    (h : Children ps (first :: rest)) (hlast : (first :: rest).getLast? = some last) : first.stop ≤ last.stop := by
  have hmem : last ∈ first :: rest := List.mem_of_getLast? hlast
  rcases List.mem_cons.1 hmem with rfl | hmem'
  · exact le_rfl
  · have hle := (List.pairwise_cons.1 h.ordered).1 last hmem'
    have hsize := (h.placed last hmem).2
    exact hle.trans (by show _ ≤ last.partitionOffset + last.partitionSize; omega)

theorem allPartitionCode_bounded {ps : Partitions} {size : Int}
    {code : CodeOffset × CodeSize} (h : allPartitionCode ps name first size = .ok code) (hfirst : first.Placed)
    (hdbus : first.dbusEn) (hsize : first.partitionSize ≤ size) : Partition.Bounded { first with
      partitionName := name, partitionSize := size, dbusEn := true, isAllPartition := true, code := some code } := by
  intro happ
  obtain ⟨hdr, o, s, size', hnonneg, hcode, ho, hvir, hle⟩ := hfirst.bounded happ
  rw [hdbus] at ho
  unfold allPartitionCode at h
  rw [hcode] at h
  obtain ⟨_, h₁, h⟩ := Raise.bind_eq_ok.1 h
  cases h₁
  dsimp only at h
  split at h
  · -- `primary_all` computes the sizes anew
    cases h
    exact ⟨hdr, o, _, size, hnonneg, rfl, ho, rfl, le_rfl⟩
  · -- `secondary_all` has the bound of its first child
    obtain ⟨primary, -, h⟩ := Raise.bind_eq_ok.1 h
    cases h
    exact ⟨hdr, o, _, size', hnonneg, rfl, ho, hvir, hle.trans hsize⟩

theorem createAllPartition_eq_ok {ps ps' : Partitions} {names : List (List Char)}
    {children : List Partition} (hchildren : Children ps children) (hnames : names = children.map (·.partitionName))
    (h : createAllPartition ps name names = .ok ps') :
      ps' = ps ∨ ∃ lastName all, all.partitionName = name ∧ all.Bounded ∧
      ps' = { ps with partitions := insertAfter ps.partitions lastName all } := by
  unfold createAllPartition at h
  rw [hnames] at h
  cases children with
  | nil =>
    cases h
    exact .inl rfl
  | cons first rest =>
    obtain ⟨last, hlast⟩ : ∃ last, (first :: rest).getLast? = some last := ⟨_, List.getLast?_cons⟩
    rw [List.getLast?_map, hlast] at h
    obtain ⟨first', hfirst, h⟩ := Raise.bind_eq_ok.1 h
    obtain ⟨last', hlast', h⟩ := Raise.bind_eq_ok.1 h
    obtain ⟨code, hcode, h⟩ := Raise.bind_eq_ok.1 h
    cases h
    have hfirst' : some first = some first' :=
      (hchildren.find first (List.mem_cons_self ..)).symm.trans (orRaise_eq_ok.1 hfirst)
    have hlast'' : some last = some last' :=
      (hchildren.find last (List.mem_of_getLast? hlast)).symm.trans (orRaise_eq_ok.1 hlast')
    cases hfirst'
    cases hlast''
    have hstop : first.partitionOffset + first.partitionSize ≤ last.partitionOffset + last.partitionSize :=
      hchildren.stop_le_last hlast
    refine .inr ⟨_, _, rfl, ?_, rfl⟩
    exact allPartitionCode_bounded hcode (hchildren.placed first (List.mem_cons_self ..)).1
      (hchildren.dbus first (List.mem_cons_self ..)) (by omega)

section
variable {decimal : Char → Option (Fin 10)} {bl2Exists : Bool} {bl2Idx deducedNext : Int} {rows : List (Pdic × Nat)}
  {ps ps' : Partitions}

theorem LayoutInv.children (hi : LayoutInv decimal bl2Exists bl2Idx rows ps deducedNext)
    (hnames : (ps.partitions.map (·.partitionName)).Nodup) {f : Partition → Bool}
    (hf : ∀ p, f p = true → p.binVerifier = some .bl2) : Children ps (ps.partitions.filter f) := by
  refine ⟨?_, ?_, ?_, hi.ordered.sublist List.filter_sublist⟩
  · intro p hp
    exact find_of_nodup hnames (List.mem_filter.1 hp).1
  · intro p hp
    obtain ⟨hp, hfp⟩ := List.mem_filter.1 hp
    obtain ⟨row, -, hmade⟩ := hi.made p hp
    exact hmade.dbus (hf p hfp)
  · intro p hp
    obtain ⟨row, -, hmade⟩ := hi.made p (List.mem_filter.1 hp).1
    exact ⟨hmade.placed, hmade.size_nonneg⟩

theorem Children.insert {children : List Partition} {lastName : List Char} {all : Partition} (h : Children ps children)
    (hall : ∀ p ∈ children, p.partitionName ≠ all.partitionName) :
    Children { ps with partitions := insertAfter ps.partitions lastName all } children := by
  refine ⟨?_, h.dbus, h.placed, h.ordered⟩
  intro p hp
  refine (find_insertAfter ?_).trans (h.find p hp)
  exact fun heq => hall p hp (of_decide_eq_true heq)

theorem createAllPartitions_bounded (hi : LayoutInv decimal bl2Exists bl2Idx rows ps deducedNext)
    (hnames : (ps.partitions.map (·.partitionName)).Nodup) (h : createAllPartitions ps = .ok ps') :
    ∀ p ∈ ps'.partitions, p.Bounded := by
  have hnormal : ∀ p ∈ ps.partitions, p.Bounded := by
    intro p hp
    obtain ⟨row, -, hmade⟩ := hi.made p hp
    exact hmade.placed.bounded
  have hbl2 : ∀ (g : Partition → Bool) (p : Partition), (decide (p.binVerifier = some .bl2) && g p) = true →
      p.binVerifier = some .bl2 := fun g p hp => of_decide_eq_true (Bool.and_eq_true_iff.1 hp).1
  have hprimary := hi.children hnames (f := (·.isPrimaryChild)) (hbl2 _)
  have hsecondary := hi.children hnames (f := (·.isSecondaryChild)) (hbl2 _)
  have hinsert : ∀ {qs : Partitions} {lastName : List Char} {all : Partition}, (∀ p ∈ qs.partitions, p.Bounded) →
      all.Bounded → ∀ p ∈ insertAfter qs.partitions lastName all, p.Bounded := by
    intro qs lastName all hqs hall p hp
    rcases mem_insertAfter hp with hp | rfl
    · exact hqs p hp
    · exact hall
  unfold createAllPartitions at h
  obtain ⟨ps₁, h₁, h₂⟩ := Raise.bind_eq_ok.1 h
  rcases createAllPartition_eq_ok hprimary hi.primary h₁ with rfl | ⟨lastName, all, hname, hall, rfl⟩
  · rcases createAllPartition_eq_ok hsecondary hi.secondary h₂ with rfl | ⟨lastName', all', -, hall', rfl⟩
    · exact hnormal
    · exact hinsert hnormal hall'
  · have hne : ∀ p ∈ ps.partitions.filter (·.isSecondaryChild), p.partitionName ≠ all.partitionName := by
      intro p hp heq
      obtain ⟨row, -, hmade⟩ := hi.made p (List.mem_filter.1 hp).1
      exact hmade.reserved (by rw [heq, hname]; exact List.mem_cons_self ..)
    rcases createAllPartition_eq_ok (hsecondary.insert hne) hi.secondary h₂ with rfl | ⟨lastName', all', -, hall', rfl⟩
    · exact hinsert hnormal hall
    · exact hinsert (hinsert hnormal hall) hall'

theorem Partitions.init_bounded {partitionCsv : String} {otaType : List Char} {bl1SecurebootEn : Bool}
    {rows : List (List (List Char))} (h : Partitions.init decimal partitionCsv otaType bl1SecurebootEn rows = .ok ps) :
    ∀ p ∈ ps.partitions, p.Bounded := by
  obtain ⟨ps₀, dicList, ps₁, hempty, h₁, hnames, h⟩ := Partitions.init_eq_ok h
  obtain ⟨deducedNext, hinv⟩ := LayoutInv.createNormalPartitions hempty.1 hempty.2.1 hempty.2.2 h₁
  exact createAllPartitions_bounded hinv hnames h

end

/-! ### Binaries -/

/-- An accepted binary is inside its partition exactly when it has at most 32 bytes for each whole block behind its
start. That is so when the partition starts with a block or `Dbus_en` is on, or the last block of the binary has more
than two bytes. -/
theorem bin_inside_partition {decimal : Char → Option (Fin 10)} {partitionCsv : String} {otaType : List Char}
    {bl1SecurebootEn : Bool} {rows : List (List (List Char))} {ps : Partitions} {p : Partition} {fileSize : Option Nat}
    {binSize : Int} (h : Partitions.init decimal partitionCsv otaType bl1SecurebootEn rows = .ok ps)
    (hp : p ∈ ps.partitions) (hname : p.binName ≠ none) (hbin : p.parseAndValidateBin fileSize = .ok binSize) :
    ((p.partitionOffset ≤ p.imageStart ∧ p.imageStart + p.imageSize binSize ≤ p.partitionOffset + p.partitionSize) ↔
      (p.isAppPartition → binSize ≤ 32 * ((p.partitionOffset + p.partitionSize - p.imageStart) / 34))) ∧
    ((p.isAppPartition → p.dbusEn = true ∨ 34 ∣ p.partitionOffset ∨ (binSize % 32 ≠ 1 ∧ binSize % 32 ≠ 2)) →
      p.partitionOffset ≤ p.imageStart ∧ p.imageStart + p.imageSize binSize ≤ p.partitionOffset + p.partitionSize) := by
  have hbound := Partitions.init_bounded h p hp
  have hcheck := Partition.parseAndValidateBin_eq_ok hname hbin
  refine ⟨?_, hbound.inside hcheck⟩
  rw [and_iff_right hbound.le_imageStart]
  by_cases happ : p.isAppPartition
  · rw [Partition.imageSize, if_pos happ, crcSize]
    constructor
    · intro hend _
      omega
    · intro hroom
      have hroom := hroom happ
      omega
  · exact ⟨fun _ h => absurd h happ, fun _ => (hbound.inside hcheck fun h => absurd h happ).2⟩

def sampleRows : List (List (List Char)) :=
  [["Name", "Offset", "Size", "Execute", "Read", "Write"], ["bl2", "0x0", "68k", "TRUE", "TRUE", "FALSE"],
    ["primary_app", "", "68k", "TRUE", "TRUE", "TRUE"], ["env", "", "4k", "FALSE", "TRUE", "TRUE"]].map
    (·.map String.toList)

theorem bin_inside_partition_sample :
    ∃ ps p, Partitions.init (fun _ => none) "partitions.csv" "OVERWRITE".toList false sampleRows = .ok ps ∧
      p ∈ ps.partitions ∧ p.binName = some "app.bin".toList ∧ p.parseAndValidateBin (some 61440) = .ok 61440 ∧
      p.partitionOffset ≤ p.imageStart ∧ p.imageStart + p.imageSize 61440 ≤ p.partitionOffset + p.partitionSize := by
  obtain ⟨ps, p, hok, hp, hname, hbin, hdbus⟩ :
    ∃ ps p, Partitions.init (fun _ => none) "partitions.csv" "OVERWRITE".toList false sampleRows = .ok ps ∧
      p ∈ ps.partitions ∧ p.binName = some "app.bin".toList ∧ p.parseAndValidateBin (some 61440) = .ok 61440 ∧
      p.dbusEn := by
    decide +kernel
  have hsome : p.binName ≠ none := by
    rw [hname]
    exact Option.some_ne_none _
  exact ⟨ps, p, hok, hp, hname, hbin, (bin_inside_partition hok hp hsome hbin).2 fun _ => .inl hdbus⟩

theorem bin_overruns_partition :
    ∃ ps p, Partitions.init (fun _ => none) "partitions.csv" [] false
        ([["Name", "Offset", "Size", "Execute", "Read", "Write"], ["env", "", "4k", "FALSE", "TRUE", "TRUE"],
          ["primary_app", "", "8k", "TRUE", "TRUE", "TRUE"]].map (·.map String.toList)) = .ok ps ∧
      p ∈ ps.partitions ∧ p.binName = some "app.bin".toList ∧ p.parseAndValidateBin (some 7458) = .ok 7458 ∧
      p.partitionOffset + p.partitionSize = 0x3000 ∧ p.imageStart + p.imageSize 7458 = 0x3014 := by
  decide +kernel

end Bk7258.BekenUtils

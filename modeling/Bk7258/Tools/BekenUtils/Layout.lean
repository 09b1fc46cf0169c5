import Bk7258.Tools.BekenUtils.Partition

/-!
# The layout of the partitions

Each check gives a fact of the partition it is made for (`Made`), and the loop keeps the partitions in order
(`LayoutInv.step`). That is all about the order. A size may be zero, and the first partition that `bl2` verifies gets a
header of 4 KB in front of its code, whatever its size.
-/

namespace Bk7258.BekenUtils
open Raise

section
variable {ps : Partitions} {idx : Nat} {pdic : Pdic} {raw : RawFields} {info : NameInfo} {v : VerifierInfo}
  {deducedMin offset size : Int} {decimal : Char → Option (Fin 10)}

theorem parseRawFields_eq_ok (h : parseRawFields pdic = .ok raw) :
    pdic .name = some raw.partitionName ∧ pdic .offset = some raw.partitionOffset ∧
      pdic .size = some raw.partitionSize ∧ rowType pdic = .ok raw.partitionType := by
  unfold parseRawFields at h
  obtain ⟨name, hname, h⟩ := Raise.bind_eq_ok.1 h
  obtain ⟨offset, hoffset, h⟩ := Raise.bind_eq_ok.1 h
  obtain ⟨size, hsize, h⟩ := Raise.bind_eq_ok.1 h
  obtain ⟨type, htype, h⟩ := Raise.bind_eq_ok.1 h
  cases h
  exact ⟨orRaise_eq_ok.1 hname, orRaise_eq_ok.1 hoffset, orRaise_eq_ok.1 hsize, htype⟩

theorem parseAndValidatePartitionName_eq_ok (h : parseAndValidatePartitionName ps idx raw = .ok info) :
    raw.partitionName ∉ ["primary_all".toList, "secondary_all".toList, "all".toList] ∧
      info.isSecondary = hasSecondary raw.partitionName ∧
      info.isPrimary = (!hasSecondary raw.partitionName && hasPrimary raw.partitionName) := by
  unfold parseAndValidatePartitionName at h
  obtain ⟨_, hres, h⟩ := Raise.bind_eq_ok.1 h
  obtain ⟨_, -, h⟩ := Raise.bind_eq_ok.1 h
  obtain ⟨_, -, h⟩ := Raise.bind_eq_ok.1 h
  obtain ⟨_, -, h⟩ := Raise.bind_eq_ok.1 h
  cases h
  exact ⟨exitIf_eq_ok.1 hres, rfl, rfl⟩

theorem parseAndValidateVerifier_bl2 : (parseAndValidateVerifier ps idx raw).binVerifier = some .bl2 ↔
    ¬raw.isDataPartition ∧ raw.partitionName ≠ "bl2".toList ∧ ps.bl2Exists ∧ (idx : Int) > ps.bl2PartitionIdx := by
  unfold parseAndValidateVerifier
  by_cases hdata : raw.isDataPartition
  · rw [if_pos hdata]
    exact iff_of_false nofun fun h => h.1 hdata
  by_cases hname : raw.partitionName = "bl2".toList
  · rw [if_neg hdata, if_pos hname]
    refine iff_of_false ?_ fun h => h.2.1 hname
    split
    · exact nofun
    · exact nofun
  rw [if_neg hdata, if_neg hname]
  by_cases hidx : ps.bl2Exists ∧ (idx : Int) > ps.bl2PartitionIdx
  · rw [if_pos hidx]
    exact iff_of_true rfl ⟨hdata, hname, hidx⟩
  · rw [if_neg hidx]
    exact iff_of_false nofun fun h => hidx h.2.2

theorem parseAndValidateVerifier_dbusEn (h : (parseAndValidateVerifier ps idx raw).binVerifier = some .bl2) :
    (parseAndValidateVerifier ps idx raw).dbusEn := by
  obtain ⟨hdata, hname, hidx⟩ := parseAndValidateVerifier_bl2.1 h
  unfold parseAndValidateVerifier
  rw [if_neg hdata, if_neg hname, if_pos hidx]

theorem parseAndValidatePartitionOffset_eq_ok
    (h : parseAndValidatePartitionOffset decimal idx raw info deducedMin = .ok offset) :
    rowOffset decimal raw deducedMin = .ok offset ∧ deducedMin ≤ offset := by
  unfold parseAndValidatePartitionOffset at h
  obtain ⟨n, hn, h⟩ := Raise.bind_eq_ok.1 h
  obtain ⟨_, -, h⟩ := Raise.bind_eq_ok.1 h
  obtain ⟨_, hmin, h⟩ := Raise.bind_eq_ok.1 h
  obtain ⟨_, -, h⟩ := Raise.bind_eq_ok.1 h
  split at h
  · cases h
  · cases h
    exact ⟨hn, not_lt.1 (exitIf_eq_ok.1 hmin)⟩

theorem parseAndValidatePartitionSize_eq_ok (h : parseAndValidatePartitionSize decimal idx raw info = .ok size) :
    size2int decimal raw.partitionSize = .ok size ∧ 0x1000 ∣ size := by
  unfold parseAndValidatePartitionSize at h
  obtain ⟨_, -, h⟩ := Raise.bind_eq_ok.1 h
  obtain ⟨n, hn, h⟩ := Raise.bind_eq_ok.1 h
  obtain ⟨_, -, h⟩ := Raise.bind_eq_ok.1 h
  obtain ⟨_, hsector, h⟩ := Raise.bind_eq_ok.1 h
  obtain ⟨_, -, h⟩ := Raise.bind_eq_ok.1 h
  cases h
  exact ⟨hn, Int.dvd_of_emod_eq_zero (not_not.1 (exitIf_eq_ok.1 hsector))⟩

/-- The header is for the first partition in the list of those that are verified. -/
theorem calculateOffsetArg_eq_some {hdr : Int} (h : calculateOffsetArg ps info v = some hdr) :
    hdr = if v.binVerifier = some .bl2 ∧ (if info.isSecondary then ps.secondaryPartitionsVerifiedByBl2
      else ps.primaryPartitionsVerifiedByBl2).length = 1 then hdrSz else 0 := by
  unfold calculateOffsetArg at h
  split at h
  · rename_i hsec
    split at h
    · cases h
      simp only [hsec.1, hsec.2, true_and, if_true]
    · cases h
  · rename_i hsec
    split at h
    · rename_i hbl2
      cases h
      simp only [hbl2, true_and, if_neg (fun hs => hsec ⟨hs, hbl2⟩)]
    · rename_i hbl2
      cases h
      simp only [hbl2, false_and, if_false]

theorem parseAndValidateAddress_eq_ok {code : Option (CodeOffset × CodeSize)}
    (h : parseAndValidateAddress ps idx raw info v offset size = .ok code) :
    offset + size ≤ sz16M ∧ (raw.isAppPartition → ∃ hdr, calculateOffsetArg ps info v = some hdr ∧
      code = some (calculateOffset v.dbusEn offset hdr,
        calculateSize (calculateOffset v.dbusEn offset hdr) offset size)) := by
  unfold parseAndValidateAddress at h
  obtain ⟨_, hrange, h⟩ := Raise.bind_eq_ok.1 h
  have hrange := exitIf_eq_ok.1 hrange
  refine ⟨by omega, ?_⟩
  intro happ
  rw [if_pos happ] at h
  obtain ⟨_, -, h⟩ := Raise.bind_eq_ok.1 h
  obtain ⟨hdr, hhdr, h⟩ := Raise.bind_eq_ok.1 h
  cases h
  exact ⟨hdr, orRaise_eq_ok.1 hhdr, rfl⟩

theorem verifiedByBl2_eq (name : List Char) : ps.verifiedByBl2 name info v =
    { ps with
      primaryPartitionsVerifiedByBl2 :=
        ps.primaryPartitionsVerifiedByBl2 ++ if v.binVerifier = some .bl2 ∧ info.isPrimary then [name] else []
      secondaryPartitionsVerifiedByBl2 :=
        ps.secondaryPartitionsVerifiedByBl2 ++ if v.binVerifier = some .bl2 ∧ info.isSecondary then
          [name] else [] } := by
  unfold Partitions.verifiedByBl2
  split
  · rename_i hv
    simp only [hv, true_and]
  · rename_i hv
    simp only [hv, false_and, if_false, List.append_nil]

end

theorem hdr_nonneg {hdr : Int} {c : Prop} (h : hdr = 0 ∨ (hdr = hdrSz ∧ c)) : 0 ≤ hdr := by
  rcases h with rfl | ⟨rfl, -⟩
  · exact le_rfl
  · decide

/-! ### The rows -/

section
variable (decimal : Char → Option (Fin 10))

def rowSize (pdic : Pdic) : Int := (((pdic .size).bind fun sizeStr => (size2int decimal sizeStr).toOption)).getD 0

/-- Where a row begins: at the end of those before it when it does not say so. -/
def rowStart (stop : Int) (pdic : Pdic) : Int :=
  ((((pdic .offset).filter (· ≠ [])).bind fun offsetStr => (hex2int decimal offsetStr).toOption)).getD stop

def isCodeRow (pdic : Pdic) : Bool := (rowType pdic).toOption = some "app".toList

def rowsStop (rows : List (Pdic × Nat)) : Int :=
  rows.foldl (fun stop row => rowStart decimal stop row.1 + rowSize decimal row.1) 0

def isSecondaryRow (pdic : Pdic) : Bool := (pdic .name).any hasSecondary

def isPrimaryRow (pdic : Pdic) : Bool := (pdic .name).any fun name => !hasSecondary name && hasPrimary name

/-- `bl2` is the number of the row of that name. -/
def isVerifiedRow (bl2 : Nat) (row : Pdic × Nat) : Bool :=
  (rowType row.1).toOption ≠ some "data".toList ∧ row.1 .name ≠ some "bl2".toList ∧ bl2 < row.2

/-- The header in front of the code of a row is for the first secondary one that `bl2` verifies, and for the others when
there has been one primary. -/
def rowHdr (bl2 : Nat) (before : List (Pdic × Nat)) (row : Pdic × Nat) : Int :=
  let kind := if isSecondaryRow row.1 then isSecondaryRow else isPrimaryRow
  if isVerifiedRow bl2 row ∧ (before ++ [row]).countP (fun r => isVerifiedRow bl2 r && kind r.1) = 1 then hdrSz else 0

/-- A row does not begin at the end of an empty one, and its code has room behind the header. -/
structure RowOk (bl2 : Nat) (before : List (Pdic × Nat)) (row : Pdic × Nat) : Prop where
  apart : ∀ r ∈ before.getLast?, rowSize decimal r.1 = 0 →
    rowStart decimal (rowsStop decimal before) row.1 ≠ rowsStop decimal before
  code : isCodeRow row.1 → rowHdr bl2 before row < rowSize decimal row.1

instance (bl2 : Nat) (before : List (Pdic × Nat)) (row : Pdic × Nat) : Decidable (RowOk decimal bl2 before row) :=
  decidable_of_iff ((∀ r ∈ before.getLast?, rowSize decimal r.1 = 0 →
      rowStart decimal (rowsStop decimal before) row.1 ≠ rowsStop decimal before) ∧
    (isCodeRow row.1 → rowHdr bl2 before row < rowSize decimal row.1)) ⟨fun h => ⟨h.1, h.2⟩, fun h => ⟨h.apart, h.code⟩⟩

def bl2Row (dicList : List Pdic) : Nat := dicList.findIdx fun pdic => pdic .name = some "bl2".toList

/-- Every row, with those before it -/
def RowsOk (dicList : List Pdic) : Prop :=
  ∀ i < dicList.zipIdx.length, ∀ row ∈ dicList.zipIdx[i]?,
    RowOk decimal (bl2Row dicList) (dicList.zipIdx.take i) row

instance (dicList : List Pdic) : Decidable (RowsOk decimal dicList) := by
  unfold RowsOk
  infer_instance

theorem rowStart_eq {stop offset : Int} {pdic : Pdic} {raw : RawFields} (hstr : pdic .offset = some raw.partitionOffset)
    (h : rowOffset decimal raw stop = .ok offset) : rowStart decimal stop pdic = offset := by
  unfold rowOffset at h
  unfold rowStart
  rw [hstr]
  by_cases hempty : raw.partitionOffset = []
  · rw [if_pos hempty] at h
    cases h
    rw [hempty]
    rfl
  · rw [if_neg hempty] at h
    have hfilter : (some raw.partitionOffset).filter (· ≠ []) = some raw.partitionOffset := by simp [hempty]
    rw [hfilter, Option.bind_some, h]
    rfl

end

/-! ### A partition -/

namespace Partition

def Placed (p : Partition) : Prop :=
  p.isAppPartition → ∃ hdr, (hdr = 0 ∨ (hdr = hdrSz ∧ p.binVerifier = some .bl2)) ∧
    p.code = some (calculateOffset p.dbusEn p.partitionOffset hdr,
      calculateSize (calculateOffset p.dbusEn p.partitionOffset hdr) p.partitionOffset p.partitionSize)

def stop (p : Partition) : Int := p.partitionOffset + p.partitionSize

structure Made (decimal : Char → Option (Fin 10)) (bl2Exists : Bool) (bl2Idx : Int) (row : Pdic × Nat) (p : Partition) :
    Prop where
  name : row.1 .name = some p.partitionName
  reserved : p.partitionName ∉ ["primary_all".toList, "secondary_all".toList, "all".toList]
  kind : p.isSecondary = hasSecondary p.partitionName ∧
    p.isPrimary = (!hasSecondary p.partitionName && hasPrimary p.partitionName)
  type : rowType row.1 = .ok p.partitionType
  size : ∃ sizeStr, row.1 .size = some sizeStr ∧ size2int decimal sizeStr = .ok p.partitionSize
  sector : 0x1000 ∣ p.partitionSize
  stop_le : p.stop ≤ sz16M
  placed : p.Placed
  verified : p.binVerifier = some .bl2 ↔
    p.partitionType ≠ "data".toList ∧ p.partitionName ≠ "bl2".toList ∧ bl2Exists = true ∧ (row.2 : Int) > bl2Idx
  dbus : p.binVerifier = some .bl2 → p.dbusEn = true

theorem Made.size_nonneg {decimal : Char → Option (Fin 10)} {bl2Exists : Bool} {bl2Idx : Int} {row : Pdic × Nat}
    {p : Partition} (h : p.Made decimal bl2Exists bl2Idx row) : 0 ≤ p.partitionSize := by
  obtain ⟨sizeStr, -, hsize⟩ := h.size
  exact size2int_nonneg hsize

def CodeAt (p : Partition) (hdr : Int) : Prop :=
  p.code = some (calculateOffset p.dbusEn p.partitionOffset hdr,
    calculateSize (calculateOffset p.dbusEn p.partitionOffset hdr) p.partitionOffset p.partitionSize)

def hdrSize (p : Partition) (ps : Partitions) : Int :=
  if p.binVerifier = some .bl2 ∧ (if p.isSecondary then ps.secondaryPartitionsVerifiedByBl2
    else ps.primaryPartitionsVerifiedByBl2).length = 1 then hdrSz else 0

theorem hdr_cases {a b : Prop} [Decidable a] [Decidable b] :
    (if a ∧ b then hdrSz else 0) = 0 ∨ (if a ∧ b then hdrSz else 0) = hdrSz ∧ a := by
  by_cases ha : a
  · exact (ite_eq_or_eq _ _ _).symm.imp_right fun h => ⟨h, ha⟩
  · exact .inl (if_neg fun h => ha h.1)

def isPrimaryChild (p : Partition) : Bool := decide (p.binVerifier = some .bl2) && p.isPrimary

def isSecondaryChild (p : Partition) : Bool := decide (p.binVerifier = some .bl2) && p.isSecondary

theorem init_eq_ok {decimal : Char → Option (Fin 10)} {ps ps' : Partitions} {row : Pdic × Nat} {deducedMin : Int}
    {p : Partition} (h : Partition.init decimal ps row.2 row.1 deducedMin = .ok (ps', p)) :
    p.Made decimal ps.bl2Exists ps.bl2PartitionIdx row ∧ deducedMin ≤ p.partitionOffset ∧
      p.partitionOffset = rowStart decimal deducedMin row.1 ∧ (p.isAppPartition → p.CodeAt (p.hdrSize ps')) ∧
        ps' = { ps with
        primaryPartitionsVerifiedByBl2 :=
          ps.primaryPartitionsVerifiedByBl2 ++ if p.isPrimaryChild then [p.partitionName] else []
        secondaryPartitionsVerifiedByBl2 :=
          ps.secondaryPartitionsVerifiedByBl2 ++ if p.isSecondaryChild then [p.partitionName] else [] } := by
  unfold Partition.init at h
  obtain ⟨raw, hraw, h⟩ := Raise.bind_eq_ok.1 h
  obtain ⟨info, hinfo, h⟩ := Raise.bind_eq_ok.1 h
  obtain ⟨binName, -, h⟩ := Raise.bind_eq_ok.1 h
  obtain ⟨offset, hoffset, h⟩ := Raise.bind_eq_ok.1 h
  obtain ⟨size, hsize, h⟩ := Raise.bind_eq_ok.1 h
  obtain ⟨code, hcode, h⟩ := Raise.bind_eq_ok.1 h
  cases h
  obtain ⟨hname, hoffsetStr, hsizeStr, htype⟩ := parseRawFields_eq_ok hraw
  obtain ⟨hint, hsector⟩ := parseAndValidatePartitionSize_eq_ok hsize
  obtain ⟨hstop, happ⟩ := parseAndValidateAddress_eq_ok hcode
  obtain ⟨hreserved, hkind⟩ := parseAndValidatePartitionName_eq_ok hinfo
  obtain ⟨hstart, hle⟩ := parseAndValidatePartitionOffset_eq_ok hoffset
  refine ⟨⟨hname, hreserved, hkind, htype, ⟨_, hsizeStr, hint⟩, hsector, hstop, ?_, parseAndValidateVerifier_bl2,
    parseAndValidateVerifier_dbusEn⟩, hle, (rowStart_eq decimal hoffsetStr hstart).symm, ?_, ?_⟩
  · intro hp
    obtain ⟨hdr, hhdr, hsome⟩ := happ hp
    refine ⟨hdr, ?_, hsome⟩
    rw [calculateOffsetArg_eq_some hhdr]
    exact hdr_cases
  · intro hp
    obtain ⟨hdr, hhdr, hsome⟩ := happ hp
    rw [calculateOffsetArg_eq_some hhdr] at hsome
    exact hsome
  · rw [verifiedByBl2_eq]
    simp only [isPrimaryChild, isSecondaryChild, Bool.and_eq_true, decide_eq_true_eq]

end Partition

/-! ### The loop -/

/-- The partition that a round of the loop makes for a row -/
structure Created (decimal : Char → Option (Fin 10)) (ps : Partitions) (deducedNext : Int) (row : Pdic × Nat)
    (ps' : Partitions) (p : Partition) : Prop where
  made : p.Made decimal ps.bl2Exists ps.bl2PartitionIdx row
  le : deducedNext ≤ p.partitionOffset
  start : p.partitionOffset = rowStart decimal deducedNext row.1
  code : p.isAppPartition → p.CodeAt (p.hdrSize ps')
  bl2 : ps'.bl2Exists = ps.bl2Exists ∧ ps'.bl2PartitionIdx = ps.bl2PartitionIdx
  partitions : ps'.partitions = ps.partitions ++ [p]
  primary : ps'.primaryPartitionsVerifiedByBl2 =
    ps.primaryPartitionsVerifiedByBl2 ++ if p.isPrimaryChild then [p.partitionName] else []
  secondary : ps'.secondaryPartitionsVerifiedByBl2 =
    ps.secondaryPartitionsVerifiedByBl2 ++ if p.isSecondaryChild then [p.partitionName] else []

theorem createStep_eq_ok {decimal : Char → Option (Fin 10)} {ps ps' : Partitions} {row : Pdic × Nat}
    {deducedNext deducedNext' : Int} (h : createStep decimal (ps, deducedNext) row = .ok (ps', deducedNext')) :
    ∃ p : Partition, Created decimal ps deducedNext row ps' p ∧ deducedNext' = p.stop := by
  unfold createStep at h
  obtain ⟨⟨ps₁, p⟩, hinit, h⟩ := Raise.bind_eq_ok.1 h
  cases h
  obtain ⟨hmade, hle, hstart, hcode, rfl⟩ := Partition.init_eq_ok hinit
  exact ⟨p, ⟨hmade, hle, hstart, hcode, ⟨rfl, rfl⟩, rfl, rfl, rfl⟩, rfl⟩

structure LayoutInv (decimal : Char → Option (Fin 10)) (bl2Exists : Bool) (bl2Idx : Int) (rows : List (Pdic × Nat))
    (ps : Partitions) (deducedNext : Int) : Prop where
  bl2 : ps.bl2Exists = bl2Exists ∧ ps.bl2PartitionIdx = bl2Idx
  made : ∀ p ∈ ps.partitions, ∃ row ∈ rows, p.Made decimal bl2Exists bl2Idx row
  below : ∀ p ∈ ps.partitions, p.stop ≤ deducedNext
  ordered : ps.partitions.Pairwise fun p q => p.stop ≤ q.partitionOffset
  primary : ps.primaryPartitionsVerifiedByBl2 = (ps.partitions.filter (·.isPrimaryChild)).map (·.partitionName)
  secondary : ps.secondaryPartitionsVerifiedByBl2 = (ps.partitions.filter (·.isSecondaryChild)).map (·.partitionName)

namespace LayoutInv

variable {decimal : Char → Option (Fin 10)} {bl2Exists : Bool} {bl2Idx : Int} {rows : List (Pdic × Nat)}
  {ps ps' : Partitions} {deducedNext deducedNext' : Int}

theorem names_append (p : Partition) (f : Partition → Bool) : ((ps.partitions ++ [p]).filter f).map (·.partitionName) =
      (ps.partitions.filter f).map (·.partitionName) ++ if f p then [p.partitionName] else [] := by
  rw [List.filter_append, List.map_append, List.filter_singleton]
  cases f p with
  | true | false => rfl

theorem offset_le (hi : LayoutInv decimal bl2Exists bl2Idx rows ps deducedNext) {p : Partition}
    (hp : p ∈ ps.partitions) : p.partitionOffset ≤ deducedNext := by
  obtain ⟨_, -, hmade⟩ := hi.made p hp
  have hsize := hmade.size_nonneg
  have hstop : p.partitionOffset + p.partitionSize ≤ deducedNext := hi.below p hp
  omega

theorem created_made (hi : LayoutInv decimal bl2Exists bl2Idx rows ps deducedNext) {row : Pdic × Nat} {p : Partition}
    (hc : Created decimal ps deducedNext row ps' p) : p.Made decimal bl2Exists bl2Idx row := by
  rw [← hi.bl2.1, ← hi.bl2.2]
  exact hc.made

theorem step (hi : LayoutInv decimal bl2Exists bl2Idx rows ps deducedNext) {row : Pdic × Nat} (hrow : row ∈ rows)
    (h : createStep decimal (ps, deducedNext) row = .ok (ps', deducedNext')) :
    LayoutInv decimal bl2Exists bl2Idx rows ps' deducedNext' := by
  obtain ⟨p, hc, rfl⟩ := createStep_eq_ok h
  have hmade := hi.created_made hc
  have hsize := hmade.size_nonneg
  have hle := hc.le
  refine ⟨⟨hc.bl2.1.trans hi.bl2.1, hc.bl2.2.trans hi.bl2.2⟩, ?_, ?_, ?_, ?_, ?_⟩
  · intro q hq
    rw [hc.partitions] at hq
    rcases List.mem_append.1 hq with hq | hq
    · exact hi.made q hq
    · exact List.mem_singleton.1 hq ▸ ⟨row, hrow, hmade⟩
  · intro q hq
    rw [hc.partitions] at hq
    rcases List.mem_append.1 hq with hq | hq
    · have hbelow := hi.below q hq
      show q.stop ≤ p.partitionOffset + p.partitionSize
      omega
    · exact List.mem_singleton.1 hq ▸ le_rfl
  · rw [hc.partitions]
    refine List.pairwise_append.2 ⟨hi.ordered, List.pairwise_singleton .., ?_⟩
    intro q hq r hr
    exact List.mem_singleton.1 hr ▸ (hi.below q hq).trans hle
  · rw [hc.primary, hc.partitions, names_append, hi.primary]
  · rw [hc.secondary, hc.partitions, names_append, hi.secondary]

theorem start (hnone : ps.partitions = []) (hprimary : ps.primaryPartitionsVerifiedByBl2 = [])
    (hsecondary : ps.secondaryPartitionsVerifiedByBl2 = []) (rows : List (Pdic × Nat)) :
    LayoutInv decimal ps.bl2Exists ps.bl2PartitionIdx rows ps 0 := by
  refine ⟨⟨rfl, rfl⟩, ?_, ?_, ?_, ?_, ?_⟩
  · rw [hnone]
    exact fun _ hp => absurd hp List.not_mem_nil
  · rw [hnone]
    exact fun _ hp => absurd hp List.not_mem_nil
  · rw [hnone]
    exact .nil
  · rw [hnone, hprimary]
    rfl
  · rw [hnone, hsecondary]
    rfl

theorem createNormalPartitions {dicList : List Pdic} (hnone : ps.partitions = [])
    (hprimary : ps.primaryPartitionsVerifiedByBl2 = []) (hsecondary : ps.secondaryPartitionsVerifiedByBl2 = [])
    (h : BekenUtils.createNormalPartitions decimal ps dicList = .ok ps') :
    ∃ deducedNext, LayoutInv decimal ps.bl2Exists ps.bl2PartitionIdx dicList.zipIdx ps' deducedNext := by
  unfold BekenUtils.createNormalPartitions at h
  obtain ⟨⟨ps₁, deducedNext⟩, hloop, h⟩ := Raise.bind_eq_ok.1 h
  cases h
  exact ⟨deducedNext, Raise.foldlM_invariant
    (P := fun st : Partitions × Int => LayoutInv decimal ps.bl2Exists ps.bl2PartitionIdx dicList.zipIdx st.1 st.2)
    (fun st row st' hrow hst hstep => hst.step hrow hstep) (start hnone hprimary hsecondary _) hloop⟩

end LayoutInv

/-! ### The globals -/

section
variable {otaType : List Char} {bl1SecurebootEn : Bool} {dicList : List Pdic} {ps : Partitions}

theorem map_name_of_mapM {names : List (List Char)}
    (h : dicList.mapM (fun pdic => orRaise UtilErr.keyError (pdic .name)) = .ok names) :
    dicList.map (fun pdic => pdic .name) = names.map some := by
  have hall := Raise.mapM_eq_ok h
  clear h
  induction hall with
  | nil => rfl
  | cons ha _ ih => rw [List.map_cons, List.map_cons, ih, orRaise_eq_ok.1 ha]

theorem idxOf_names {names : List (List Char)} (h : dicList.map (fun pdic => pdic .name) = names.map some)
    (name : List Char) : names.idxOf name = dicList.findIdx fun pdic => pdic .name = some name := by
  calc names.idxOf name
    _ = (names.map some).findIdx (fun n => n = some name) := by
        rw [List.findIdx_map, List.idxOf]
        congr 1
        funext n
        exact Bool.eq_iff_iff.2 (by simp)
    _ = dicList.findIdx fun pdic => pdic .name = some name := by
        rw [← h, List.findIdx_map]
        rfl

theorem initGlobals_eq_ok (h : initGlobals otaType bl1SecurebootEn dicList = .ok ps) :
    ps.partitions = [] ∧ ps.primaryPartitionsVerifiedByBl2 = [] ∧ ps.secondaryPartitionsVerifiedByBl2 = [] ∧
      dicList.map (fun pdic => pdic .name) = ps.partitionNames.map some ∧
      ∀ i < dicList.length, (ps.bl2Exists = true ∧ (i : Int) > ps.bl2PartitionIdx ↔ bl2Row dicList < i) := by
  unfold initGlobals at h
  obtain ⟨names, hnames, h⟩ := Raise.bind_eq_ok.1 h
  cases h
  have hmap := map_name_of_mapM hnames
  refine ⟨rfl, rfl, rfl, hmap, fun i hi => ?_⟩
  rw [bl2Row, ← idxOf_names hmap]
  by_cases hbl2 : "bl2".toList ∈ names
  · simp only [hbl2, decide_true, if_true, true_and]
    omega
  · -- there is no such row, and its number is behind the last one
    have hlen : names.length = dicList.length := by
      rw [← List.length_map (f := some), ← hmap, List.length_map]
    rw [List.idxOf_eq_length hbl2, hlen]
    simp only [hbl2, decide_false, Bool.false_eq_true, false_and, false_iff]
    omega

end

/-! ### Normal partitions -/

namespace Partition

def CodeInside (p : Partition) : Prop :=
  ∃ o s, p.code = some (o, s) ∧ p.partitionOffset ≤ o.phyCodeOffset ∧ o.phyCodeOffset < p.stop ∧
    512 ∣ o.virCodeOffset ∧ phy2virtual o.phyCodeOffset = o.virCodeOffset

theorem codeInside_iff {p : Partition} {hdr : Int} (h : p.CodeAt hdr) (hhdr : hdr = 0 ∨ hdr = hdrSz ∧ p.dbusEn = true)
    (hsector : 0x1000 ∣ p.partitionSize) : p.CodeInside ↔ hdr < p.partitionSize := by
  have hnonneg : 0 ≤ hdr := hdr_nonneg hhdr
  obtain ⟨halign, hvir, hge⟩ := calculateOffset_code p.dbusEn p.partitionOffset hnonneg
  have hstop : p.stop = p.partitionOffset + p.partitionSize := rfl
  have hlt : (calculateOffset p.dbusEn p.partitionOffset hdr).phyCodeOffset < p.stop ↔ hdr < p.partitionSize := by
    rcases hhdr with rfl | ⟨rfl, hdbus⟩
    · have hcode := calculateOffset_code_lt p.dbusEn p.partitionOffset
      omega
    · have hcode := calculateOffset_hdr_code_lt p.partitionOffset
      have hcode' := le_calculateOffset_hdr_code p.partitionOffset
      rw [hdbus]
      unfold hdrSz at *
      omega
  constructor
  · rintro ⟨o, sz, hcode, -, ho, -⟩
    cases h.symm.trans hcode
    exact hlt.1 ho
  · exact fun hsize => ⟨_, _, h, hge, hlt.2 hsize, halign, hvir⟩

end Partition

def WellLaid (ps : Partitions) : Prop :=
  ps.partitions.Pairwise (fun p q => p.partitionOffset < q.partitionOffset) ∧
    ∀ p ∈ ps.partitions, p.isAppPartition → p.CodeInside

/-- What the rows so far say about the state of the loop -/
structure RowsInv (decimal : Char → Option (Fin 10)) (bl2 : Nat) (before : List (Pdic × Nat)) (ps : Partitions)
    (deducedNext : Int) : Prop where
  stop : deducedNext = rowsStop decimal before
  primary : ps.primaryPartitionsVerifiedByBl2.length = before.countP fun r => isVerifiedRow bl2 r && isPrimaryRow r.1
  secondary : ps.secondaryPartitionsVerifiedByBl2.length =
    before.countP fun r => isVerifiedRow bl2 r && isSecondaryRow r.1
  below : (∀ r ∈ before.getLast?, rowSize decimal r.1 ≠ 0) → ∀ p ∈ ps.partitions, p.partitionOffset < deducedNext
  last : ∀ r ∈ before.getLast?, rowSize decimal r.1 = 0 → ∃ p ∈ ps.partitions, p.partitionOffset = deducedNext

section
variable {decimal : Char → Option (Fin 10)} {bl2Exists : Bool} {bl2Idx deducedNext deducedNext' : Int} {bl2 : Nat}
  {rows before : List (Pdic × Nat)} {ps ps' : Partitions} {p : Partition} {row : Pdic × Nat}

theorem Partition.Made.rowSize_eq (h : p.Made decimal bl2Exists bl2Idx row) :
    rowSize decimal row.1 = p.partitionSize := by
  obtain ⟨sizeStr, hstr, hint⟩ := h.size
  rw [rowSize, hstr, Option.bind_some, hint]
  rfl

theorem Partition.Made.isCodeRow_iff (h : p.Made decimal bl2Exists bl2Idx row) :
    isCodeRow row.1 ↔ p.isAppPartition := by
  rw [isCodeRow, h.type]
  simp [Except.toOption, Partition.isAppPartition]

theorem Partition.Made.isVerifiedRow_iff (h : p.Made decimal bl2Exists bl2Idx row)
    (hbl2 : bl2Exists = true ∧ (row.2 : Int) > bl2Idx ↔ bl2 < row.2) :
    isVerifiedRow bl2 row = decide (p.binVerifier = some .bl2) := by
  unfold isVerifiedRow
  rw [h.type, h.name]
  refine decide_eq_decide.2 ?_
  rw [h.verified, hbl2]
  simp [Except.toOption]

theorem Partition.Made.kind_eq (h : p.Made decimal bl2Exists bl2Idx row) :
    isSecondaryRow row.1 = p.isSecondary ∧ isPrimaryRow row.1 = p.isPrimary := by
  rw [isSecondaryRow, isPrimaryRow, h.name, h.kind.1, h.kind.2]
  exact ⟨rfl, rfl⟩

theorem RowsInv.step (hi : LayoutInv decimal bl2Exists bl2Idx rows ps deducedNext)
    (h : RowsInv decimal bl2 before ps deducedNext) (hbl2 : bl2Exists = true ∧ (row.2 : Int) > bl2Idx ↔ bl2 < row.2)
    (hc : Created decimal ps deducedNext row ps' p) : RowsInv decimal bl2 (before ++ [row]) ps' p.stop := by
  have hmade := hi.created_made hc
  have hverified := hmade.isVerifiedRow_iff hbl2
  obtain ⟨hsecondaryRow, hprimaryRow⟩ := hmade.kind_eq
  have hsize := hmade.size_nonneg
  have hle := hc.le
  have hstop : p.stop = p.partitionOffset + p.partitionSize := rfl
  refine ⟨?_, ?_, ?_, ?_, ?_⟩
  · rw [rowsStop, List.foldl_append]
    show _ = rowStart decimal (rowsStop decimal before) row.1 + rowSize decimal row.1
    rw [← h.stop, ← hc.start, hmade.rowSize_eq, hstop]
  · rw [hc.primary, List.countP_append, ← h.primary, List.length_append, List.countP_singleton, hverified, hprimaryRow,
      apply_ite List.length]
    rfl
  · rw [hc.secondary, List.countP_append, ← h.secondary, List.length_append, List.countP_singleton, hverified,
      hsecondaryRow, apply_ite List.length]
    rfl
  · intro hlast q hq
    have hpos := hlast row List.getLast?_concat
    rw [hmade.rowSize_eq] at hpos
    rw [hc.partitions] at hq
    rcases List.mem_append.1 hq with hq | hq
    · have := hi.offset_le hq
      omega
    · rw [List.mem_singleton.1 hq]
      omega
  · intro r hr hzero
    cases List.getLast?_concat.symm.trans hr
    rw [hmade.rowSize_eq] at hzero
    exact ⟨p, by simp [hc.partitions], by omega⟩

theorem RowsInv.code_iff (hmade : p.Made decimal bl2Exists bl2Idx row)
    (h : RowsInv decimal bl2 (before ++ [row]) ps' p.stop)
    (hbl2 : bl2Exists = true ∧ (row.2 : Int) > bl2Idx ↔ bl2 < row.2)
    (hcode : p.isAppPartition → p.CodeAt (p.hdrSize ps')) :
    (p.isAppPartition → p.CodeInside) ↔ (isCodeRow row.1 → rowHdr bl2 before row < rowSize decimal row.1) := by
  have hhdr : rowHdr bl2 before row = p.hdrSize ps' := by
    unfold rowHdr Partition.hdrSize
    rw [hmade.isVerifiedRow_iff hbl2, hmade.kind_eq.1]
    cases p.isSecondary with
    | true => simp [h.secondary]
    | false => simp [h.primary]
  rw [hmade.isCodeRow_iff, hhdr, hmade.rowSize_eq]
  refine forall_congr' fun happ => Partition.codeInside_iff (hcode happ) ?_ hmade.sector
  exact Partition.hdr_cases.imp_right fun hp => ⟨hp.1, hmade.dbus hp.2⟩

theorem RowsInv.apart_iff (hi : LayoutInv decimal bl2Exists bl2Idx rows ps deducedNext)
    (h : RowsInv decimal bl2 before ps deducedNext) (hc : Created decimal ps deducedNext row ps' p) :
    (∀ q ∈ ps.partitions, q.partitionOffset < p.partitionOffset) ↔
      ∀ r ∈ before.getLast?, rowSize decimal r.1 = 0 →
        rowStart decimal (rowsStop decimal before) row.1 ≠ rowsStop decimal before := by
  have hle := hc.le
  rw [← h.stop, ← hc.start]
  constructor
  · intro hlt r hr hzero heq
    obtain ⟨q, hq, hqeq⟩ := h.last r hr hzero
    have := hlt q hq
    omega
  · intro hne q hq
    by_cases hlast : ∀ r ∈ before.getLast?, rowSize decimal r.1 ≠ 0
    · have := h.below hlast q hq
      omega
    · push Not at hlast
      obtain ⟨r, hr, hzero⟩ := hlast
      have := hne r hr hzero
      have := hi.offset_le hq
      omega

theorem RowsInv.wellLaid_iff (hi : LayoutInv decimal bl2Exists bl2Idx rows ps deducedNext)
    (h : RowsInv decimal bl2 before ps deducedNext) (hbl2 : bl2Exists = true ∧ (row.2 : Int) > bl2Idx ↔ bl2 < row.2)
    (hc : Created decimal ps deducedNext row ps' p) :
    WellLaid ps' ↔ WellLaid ps ∧ RowOk decimal bl2 before row := by
  unfold WellLaid
  rw [hc.partitions, List.pairwise_append]
  simp only [List.pairwise_singleton, List.mem_append, List.mem_singleton, or_imp, forall_and, forall_eq, true_and]
  rw [RowsInv.code_iff (hi.created_made hc) (h.step hi hbl2 hc) hbl2 hc.code, h.apart_iff hi hc]
  constructor
  · rintro ⟨⟨hordered, hapart⟩, hinside, hcode⟩
    exact ⟨⟨hordered, hinside⟩, hapart, hcode⟩
  · rintro ⟨⟨hordered, hinside⟩, hapart, hcode⟩
    exact ⟨⟨hordered, hapart⟩, hinside, hcode⟩

end

/-- The partitions follow each other below 16 MB, with their code inside, if and only if no row begins at the end of an
empty one and code has room behind its header. -/
theorem normal_partitions_layout {decimal : Char → Option (Fin 10)} {otaType : List Char} {bl1SecurebootEn : Bool}
    {dicList : List Pdic} {ps₀ ps : Partitions} (h₀ : initGlobals otaType bl1SecurebootEn dicList = .ok ps₀)
    (h : createNormalPartitions decimal ps₀ dicList = .ok ps) :
    (ps.partitions.Pairwise (fun p q => p.partitionOffset < q.partitionOffset) ∧
      ps.partitions.Pairwise (fun p q => p.stop ≤ q.partitionOffset) ∧
      ∀ p ∈ ps.partitions, p.stop ≤ 0x1000000 ∧ 0x1000 ∣ p.partitionSize ∧ (p.isAppPartition → p.CodeInside)) ↔
    RowsOk decimal dicList := by
  obtain ⟨hnone, hprimary, hsecondary, hmap, hbl2⟩ := initGlobals_eq_ok h₀
  obtain ⟨_, hi⟩ := LayoutInv.createNormalPartitions hnone hprimary hsecondary h
  unfold createNormalPartitions at h
  obtain ⟨⟨ps₁, deducedNext⟩, hloop, h⟩ := Raise.bind_eq_ok.1 h
  cases h
  have hstart : RowsInv decimal (bl2Row dicList) [] ps₀ 0 :=
    ⟨rfl, by simp [hprimary], by simp [hsecondary], by simp [hnone], by simp⟩
  have hrows := Raise.foldlM_prefix_iff
    (I := fun before (st : Partitions × Int) =>
      LayoutInv decimal ps₀.bl2Exists ps₀.bl2PartitionIdx dicList.zipIdx st.1 st.2 ∧
      RowsInv decimal (bl2Row dicList) before st.1 st.2)
    (P := fun st => WellLaid st.1) (Q := RowOk decimal (bl2Row dicList))
    (fun before st row st' hrow hst hstep => by
      have hlt : row.2 < dicList.length := by
        have hmem := List.mem_zipIdx hrow
        omega
      obtain ⟨p, hc, hnext⟩ := createStep_eq_ok hstep
      refine ⟨⟨hst.1.step hrow hstep, ?_⟩, hst.2.wellLaid_iff hst.1 (hbl2 row.2 hlt) hc⟩
      rw [hnext]
      exact hst.2.step hst.1 (hbl2 row.2 hlt) hc)
    ⟨LayoutInv.start hnone hprimary hsecondary _, hstart⟩ hloop
  have hempty : WellLaid ps₀ := by simp [WellLaid, hnone]
  simp only [hempty, true_and, List.nil_append] at hrows
  refine Iff.trans ?_ hrows
  constructor
  · rintro ⟨hstrict, -, hall⟩
    exact ⟨hstrict, fun p hp => (hall p hp).2.2⟩
  · rintro ⟨hstrict, hcode⟩
    refine ⟨hstrict, hi.ordered, fun p hp => ?_⟩
    obtain ⟨_, -, hmade⟩ := hi.made p hp
    exact ⟨hmade.stop_le, hmade.sector, hcode p hp⟩

def oldRow (cells : List String) : Pdic := fun k => (partitionKeysV1.zip (cells.map String.toList)).lookup k

def sampleDics : List Pdic :=
  [oldRow ["env", "0x0", "4k", "FALSE", "TRUE", "TRUE"], oldRow ["bl2", "", "64k", "TRUE", "TRUE", "FALSE"],
    oldRow ["primary_app", "", "1m", "TRUE", "TRUE", "TRUE"],
      oldRow ["secondary_app", "0x200000", "1m", "TRUE", "TRUE", "TRUE"]]

def createSample (dicList : List Pdic) : Except UtilErr Partitions := do
  let ps ← initGlobals "XIP".toList false dicList
  createNormalPartitions (fun _ => none) ps dicList

theorem normal_partitions_layout_sample :
    ∃ ps₀ ps, initGlobals "XIP".toList false sampleDics = .ok ps₀ ∧
      createNormalPartitions (fun _ => none) ps₀ sampleDics = .ok ps ∧ RowsOk (fun _ => none) sampleDics ∧
      ps.partitions.map (·.partitionOffset) = [0, 0x1000, 0x11000, 0x200000] ∧
      ps.partitions.Pairwise (fun p q => p.partitionOffset < q.partitionOffset) ∧
      ps.partitions.Pairwise (fun p q => p.stop ≤ q.partitionOffset) ∧
      ∀ p ∈ ps.partitions, p.stop ≤ 0x1000000 ∧ 0x1000 ∣ p.partitionSize ∧ (p.isAppPartition → p.CodeInside) := by
  obtain ⟨ps, hok, hoffsets⟩ : ∃ ps, createSample sampleDics = .ok ps ∧
      ps.partitions.map (·.partitionOffset) = [0, 0x1000, 0x11000, 0x200000] := by
    decide +kernel
  obtain ⟨ps₀, h₀, h⟩ := Raise.bind_eq_ok.1 hok
  have hrows : RowsOk (fun _ => none) sampleDics := by decide +kernel
  exact ⟨ps₀, ps, h₀, h, hrows, hoffsets, (normal_partitions_layout h₀ h).2 hrows⟩

theorem normal_partitions_no_room :
    (∃ ps, createSample [oldRow ["sys", "", "0k", "FALSE", "TRUE", "TRUE"],
        oldRow ["env", "", "4k", "FALSE", "TRUE", "TRUE"]] = .ok ps ∧
      ps.partitions.map (·.partitionOffset) = [0, 0]) ∧
    ∃ ps, createSample [oldRow ["bl2", "0x0", "64k", "TRUE", "TRUE", "FALSE"],
        oldRow ["primary_app", "", "4k", "TRUE", "TRUE", "TRUE"]] = .ok ps ∧
      ps.partitions.map (fun p => (p.stop, p.code.map (·.1.phyCodeOffset))) =
        [(0x10000, some 0), (0x11000, some 0x11220)] := by
  decide +kernel

end Bk7258.BekenUtils

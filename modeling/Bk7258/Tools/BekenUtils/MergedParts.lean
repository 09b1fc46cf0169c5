import Bk7258.Tools.BekenUtils.AesCrc
import Bk7258.Tools.Linear

/-!
# Files with padding

`gen_merged_partitions_bin` and `gen_bin_for_bl2_signing` write binaries one after the other, each with `0xFF` in front
up to its own position. The padding is the difference to the end of the file, and a negative difference is no padding.
-/

namespace Bk7258.BekenUtils

/-- Padding up to a position that counts from `base`, and the bytes. `bytes([0xFF]*pad_size)` has no bytes for a
negative size. -/
def padTo (base : Int) (f : List UInt8) (target : Int) (bs : List UInt8) : List UInt8 :=
  f ++ List.replicate (target - base - f.length).toNat 0xFF ++ bs

/-! ### `gen_merged_partitions_bin` -/

def Built.target (b : Built) : Except PackErr Int :=
  if b.part.isAppPartition ∧ b.name ≠ "primary_all".toList ∧ b.name ≠ "secondary_all".toList then do
    let (o, _) ← Raise.orRaise (.util .attributeError) b.part.code
    .ok o.phyCodeOffset
  else .ok b.part.partitionOffset

section
variable (built : List Built) (fs : Dir) (binName : List Char)

def mergeLoop (firstPartitionOffset : Int) : List UInt8 → List Int → Except PackErr (List UInt8)
  | f, [] => .ok f
  | f, idx :: idxs => do
    let p ← partitionAt built idx
    if p.binSize > 0 then do
      let target ← p.target
      mergeLoop firstPartitionOffset (padTo firstPartitionOffset f target p.partitionBuf) idxs
    else mergeLoop firstPartitionOffset f idxs

def appendProvision (firstPartitionOffset : Int) (f : List UInt8) : Except PackErr (List UInt8) :=
  if binName = "provision_pack.bin".toList then do
    let content ← Raise.orRaise (.util (.exit "provision.bin not exists")) (fs "provision.bin".toList)
    .ok (padTo firstPartitionOffset f 0x55000 content)
  else .ok f

def genMergedPartitionsBin (partitionIdxList : List Int) : Except PackErr (List UInt8) := do
  let idx ← Raise.orRaise (.py .indexError) partitionIdxList.head?
  let first ← partitionAt built idx
  let f ← mergeLoop built first.part.partitionOffset [] partitionIdxList
  appendProvision fs binName first.part.partitionOffset f

end

/-! ### `gen_bin_for_bl2_signing` -/

section
variable (ps : Partitions) (fs : Dir)

def signingChild (pname : List Char) : Except PackErr (CodeOffset × List UInt8) := do
  let p ← Raise.orRaise (.util .attributeError) (ps.findPartitionByName pname)
  let (o, _) ← Raise.orRaise (.util .attributeError) p.code
  let binName ← Raise.orRaise .typeError p.binName
  let bin ← readFile fs binName
  .ok (o, bin)

def signingLoop (startOffset : Int) : List UInt8 → List (List Char) → Except PackErr (List UInt8)
  | f, [] => .ok f
  | f, pname :: names => do
    let (o, bin) ← signingChild ps fs pname
    signingLoop startOffset (padTo startOffset f o.virCodeOffset bin) names

/-- `gen_bin_for_bl2_signing`: the contents of the file, if there is one -/
def genBinForBl2Signing : List (List Char) → Except PackErr (Option (List UInt8))
  | [] => .ok none
  | pname :: names => do
    let (o, bin) ← signingChild ps fs pname
    let padSize := o.virCodeOffset - o.virPartitionOffset - hdrSz
    let startOffset := o.virCodeOffset - padSize
    let f ← signingLoop ps fs startOffset (List.replicate padSize.toNat 0xFF ++ bin) names
    .ok (some f)

end

/-! ### Binaries and their positions -/

def binAt (addr : Int) (name : List Char) (data : List UInt8) : PartitionInfo := ⟨addr, data.length, name, data⟩

def Built.start (b : Built) : Int :=
  if b.name = "primary_all".toList ∨ b.name = "secondary_all".toList then b.part.partitionOffset else b.part.imageStart

def mergedBins (parts : List Built) : List PartitionInfo :=
  (parts.filter (·.binSize > 0)).map fun b => binAt b.start b.name b.partitionBuf

def provisionBins (fs : Dir) (binName : List Char) : List PartitionInfo :=
  if binName = "provision_pack.bin".toList then
    (fs "provision.bin".toList).toList.map (binAt 0x55000 "provision.bin".toList)
  else []

def signedBin (ps : Partitions) (fs : Dir) (pname : List Char) : Option PartitionInfo := do
  let p ← ps.findPartitionByName pname
  let (o, _) ← p.code
  let bin ← p.binName.bind fs
  some (binAt o.virCodeOffset pname bin)

/-- The first byte of the file is the one behind a header at the start of the first child. -/
def signingStart (ps : Partitions) (pname : List Char) : Option Int := do
  let p ← ps.findPartitionByName pname
  let (o, _) ← p.code
  some (o.virPartitionOffset + hdrSz)

def padAll (base : Int) (f : List UInt8) (bins : List PartitionInfo) : List UInt8 :=
  bins.foldl (fun f b => padTo base f b.addr b.data) f

/-- Each binary that has a byte ends, when it has been written, where it should. -/
def Written (base : Int) : List UInt8 → List PartitionInfo → Prop
  | _, [] => True
  | f, b :: bins => (b.data ≠ [] → base + (padTo base f b.addr b.data).length = b.stop) ∧
      Written base (padTo base f b.addr b.data) bins

/-- Each binary is at its position, and `0xFF` everywhere else. -/
structure BinsImage (base : Int) (bins : List PartitionInfo) (out : List UInt8) : Prop where
  data : ∀ b ∈ bins, b.data ≠ [] → base ≤ b.addr ∧ Segment.At out (b.addr - base).toNat b.data
  padding : ∀ k < out.length, (∀ b ∈ bins, ¬(b.addr ≤ base + k ∧ base + k < b.stop)) → out[k]? = some 0xFF

/-- No binary with a byte has its position before the start of the file, or before the end of one in front of it. -/
def Apart (base : Int) (bins : List PartitionInfo) : Prop :=
  (∀ b ∈ bins, b.data ≠ [] → base ≤ b.addr) ∧ bins.Pairwise fun p q => q.data ≠ [] → p.stop ≤ q.addr

instance (base : Int) (bins : List PartitionInfo) : Decidable (Apart base bins) := inferInstanceAs (Decidable (_ ∧ _))

theorem length_padTo (base : Int) (f : List UInt8) (b : PartitionInfo) :
    base + (padTo base f b.addr b.data).length = max (base + f.length) b.addr + b.data.length := by
  unfold padTo
  rw [List.length_append, List.length_append, List.length_replicate]
  omega

theorem apart_cons {base : Int} {b : PartitionInfo} {bins : List PartitionInfo} : Apart base (b :: bins) ↔
    (b.data ≠ [] → base ≤ b.addr) ∧ Apart (max base b.addr + b.data.length) bins := by
  unfold Apart
  rw [List.forall_mem_cons, List.pairwise_cons]
  have hmax : (∀ q ∈ bins, q.data ≠ [] → max base b.addr + b.data.length ≤ q.addr) →
      (∀ q ∈ bins, q.data ≠ [] → base ≤ q.addr) ∧ ∀ q ∈ bins, q.data ≠ [] → b.stop ≤ q.addr := fun h =>
    ⟨fun q hq hne => by have := h q hq hne; omega,
      fun q hq hne => by have := h q hq hne; unfold PartitionInfo.stop; omega⟩
  constructor
  · rintro ⟨⟨hb, hbase⟩, hstop, hrest⟩
    refine ⟨hb, fun q hq hne => ?_, hrest⟩
    have h₁ := hbase q hq hne
    have h₂ := hstop q hq hne
    unfold PartitionInfo.stop at h₂
    by_cases hdata : b.data = []
    · rw [hdata] at h₂ ⊢
      simp only [List.length_nil] at *
      omega
    · have := hb hdata
      omega
  · rintro ⟨hb, hnext, hrest⟩
    exact ⟨⟨hb, (hmax hnext).1⟩, (hmax hnext).2, hrest⟩

theorem written_iff {base : Int} {bins : List PartitionInfo} (f : List UInt8) :
    Written base f bins ↔ Apart (base + f.length) bins := by
  induction bins generalizing f with
  | nil => exact iff_of_true trivial ⟨fun _ hb => absurd hb List.not_mem_nil, .nil⟩
  | cons b bins ih =>
    rw [Written, ih, apart_cons, length_padTo, PartitionInfo.stop]
    refine and_congr_left fun _ => imp_congr_right fun _ => ?_
    omega

/-- A binary behind its padding, in front of an image of the others. -/
theorem BinsImage.cons {base : Int} {b : PartitionInfo} {bins : List PartitionInfo} {rest : List UInt8}
    (hapart : Apart base (b :: bins)) (h : BinsImage (max base b.addr + b.data.length) bins rest) :
    BinsImage base (b :: bins) (List.replicate (b.addr - base).toNat 0xFF ++ b.data ++ rest) := by
  obtain ⟨hb, hnext, -⟩ := apart_cons.1 hapart
  constructor
  · intro q hq hne
    rcases List.mem_cons.1 hq with rfl | hq
    · exact ⟨hb hne, .padded _ rest⟩
    · have hq' := hnext q hq hne
      refine ⟨by omega, ?_⟩
      rw [show (q.addr - base).toNat = (b.addr - base).toNat + b.data.length +
        (q.addr - (max base b.addr + b.data.length)).toNat by omega]
      exact (h.data q hq hne).2.behind ..
  · intro k hk hno
    by_cases hfront : k < (b.addr - base).toNat
    · exact Segment.getElem?_padding _ _ hfront
    · have hself := hno b List.mem_cons_self
      unfold PartitionInfo.stop at hself
      have hback : (b.addr - base).toNat + b.data.length ≤ k := by
        by_cases hdata : b.data = []
        · rw [hdata, List.length_nil]
          omega
        · have := hb hdata
          omega
      rw [List.length_append, Segment.length_padded] at hk
      rw [Segment.getElem?_behind _ _ hback]
      refine h.padding _ (by omega) fun q hq hin => hno q (List.mem_cons_of_mem _ hq) ?_
      rwa [show max base b.addr + b.data.length + ((k - ((b.addr - base).toNat + b.data.length) : Nat) : Int) =
        base + k by omega] at hin

theorem padAll_image (base : Int) {bins : List PartitionInfo} (f : List UInt8) (h : Apart (base + f.length) bins) :
    ∃ rest, padAll base f bins = f ++ rest ∧ BinsImage (base + f.length) bins rest := by
  induction bins generalizing f with
  | nil =>
    exact ⟨[], (List.append_nil f).symm, fun _ hb => absurd hb List.not_mem_nil,
      fun _ hk => absurd hk (Nat.not_lt_zero _)⟩
  | cons b bins ih =>
    have hnext := (apart_cons.1 h).2
    rw [← length_padTo] at hnext
    obtain ⟨rest, hrest, himg⟩ := ih _ hnext
    rw [length_padTo] at himg
    refine ⟨_, ?_, himg.cons h⟩
    show padAll base (padTo base f b.addr b.data) bins = _
    rw [hrest, padTo, Int.sub_sub]
    simp only [List.append_assoc]

theorem placed_iff (base : Int) (bins : List PartitionInfo) :
    Written base [] bins ∧ BinsImage base bins (padAll base [] bins) ↔ Apart base bins := by
  have hbase : base + ([] : List UInt8).length = base := Int.add_zero base
  rw [written_iff, hbase]
  refine ⟨fun h => h.1, fun h => ⟨h, ?_⟩⟩
  obtain ⟨rest, hrest, himg⟩ := padAll_image base [] (hbase.symm ▸ h)
  rw [hbase] at himg
  rwa [hrest, List.nil_append]

theorem mergedBins_cons (b : Built) (parts : List Built) : mergedBins (b :: parts) =
      if b.binSize > 0 then binAt b.start b.name b.partitionBuf :: mergedBins parts else mergedBins parts := by
  unfold mergedBins
  rw [List.filter_cons]
  simp only [decide_eq_true_eq]
  split
  · rfl
  · rfl

/-! ### The files as binaries with padding -/

section
variable {built : List Built} {fs : Dir} {binName : List Char}

theorem Built.target_eq_ok {b : Built} {target : Int} (h : b.target = .ok target) : target = b.start := by
  unfold Built.target at h
  unfold Built.start Partition.imageStart
  split at h
  · rename_i hcode
    obtain ⟨⟨o, s⟩, ho, h⟩ := Raise.bind_eq_ok.1 h
    cases h
    rw [if_neg (not_or.2 hcode.2), if_pos hcode.1, Raise.orRaise_eq_ok.1 ho]
    rfl
  · rename_i hcode
    cases h
    split
    · rfl
    · rename_i hall
      rw [if_neg fun happ => hcode ⟨happ, not_or.1 hall⟩]

theorem mergeLoop_eq_ok {base : Int} : ∀ {idxs : List Int} {f out : List UInt8}, mergeLoop built base f idxs = .ok out →
    ∃ parts, idxs.mapM (partitionAt built) = .ok parts ∧ out = padAll base f (mergedBins parts)
  | [], f, out, h => by
    cases h
    exact ⟨[], rfl, rfl⟩
  | idx :: idxs, f, out, h => by
    unfold mergeLoop at h
    obtain ⟨p, hp, h⟩ := Raise.bind_eq_ok.1 h
    have hcons : ∀ {parts}, idxs.mapM (partitionAt built) = .ok parts →
        (idx :: idxs).mapM (partitionAt built) = .ok (p :: parts) := by
      intro parts hparts
      rw [List.mapM_cons, hp, Raise.ok_bind, hparts]
      rfl
    split at h
    · rename_i hsize
      obtain ⟨target, htarget, h⟩ := Raise.bind_eq_ok.1 h
      obtain ⟨parts, hparts, rfl⟩ := mergeLoop_eq_ok h
      refine ⟨p :: parts, hcons hparts, ?_⟩
      rw [mergedBins_cons, if_pos hsize, Built.target_eq_ok htarget]
      rfl
    · rename_i hsize
      obtain ⟨parts, hparts, rfl⟩ := mergeLoop_eq_ok h
      refine ⟨p :: parts, hcons hparts, ?_⟩
      rw [mergedBins_cons, if_neg hsize]

theorem appendProvision_eq_ok {base : Int} {f out : List UInt8} (h : appendProvision fs binName base f = .ok out) :
    out = padAll base f (provisionBins fs binName) := by
  unfold appendProvision at h
  unfold provisionBins
  split at h
  · rename_i hname
    obtain ⟨content, hcontent, h⟩ := Raise.bind_eq_ok.1 h
    cases h
    rw [if_pos hname, Raise.orRaise_eq_ok.1 hcontent]
    rfl
  · rename_i hname
    cases h
    rw [if_neg hname]
    rfl

theorem genMergedPartitionsBin_eq_ok {idxs : List Int} {out : List UInt8}
    (h : genMergedPartitionsBin built fs binName idxs = .ok out) :
    ∃ first rest, idxs.mapM (partitionAt built) = .ok (first :: rest) ∧
      out = padAll first.part.partitionOffset [] (mergedBins (first :: rest) ++ provisionBins fs binName) := by
  unfold genMergedPartitionsBin at h
  obtain ⟨idx, hidx, h⟩ := Raise.bind_eq_ok.1 h
  obtain ⟨first, hfirst, h⟩ := Raise.bind_eq_ok.1 h
  obtain ⟨f, hloop, h⟩ := Raise.bind_eq_ok.1 h
  obtain ⟨parts, hparts, rfl⟩ := mergeLoop_eq_ok hloop
  have hall := appendProvision_eq_ok h
  rw [padAll, padAll, ← List.foldl_append] at hall
  cases Raise.mapM_eq_ok hparts with
  | nil => cases Raise.orRaise_eq_ok.1 hidx
  | @cons idx' p idxs rest hp _ =>
    cases Raise.orRaise_eq_ok.1 hidx
    cases hfirst.symm.trans hp
    exact ⟨first, rest, hparts, hall⟩

end

section
variable {ps : Partitions} {fs : Dir}

theorem signingChild_eq_ok {pname : List Char} {o : CodeOffset} {bin : List UInt8}
    (h : signingChild ps fs pname = .ok (o, bin)) :
    (∃ p s, ps.findPartitionByName pname = some p ∧ p.code = some (o, s)) ∧
      signedBin ps fs pname = some (binAt o.virCodeOffset pname bin) := by
  unfold signingChild at h
  obtain ⟨p, hp, h⟩ := Raise.bind_eq_ok.1 h
  obtain ⟨⟨o', s⟩, hcode, h⟩ := Raise.bind_eq_ok.1 h
  obtain ⟨binName, hname, h⟩ := Raise.bind_eq_ok.1 h
  obtain ⟨bin', hbin, h⟩ := Raise.bind_eq_ok.1 h
  cases h
  have hp := Raise.orRaise_eq_ok.1 hp
  have hcode := Raise.orRaise_eq_ok.1 hcode
  refine ⟨⟨p, s, hp, hcode⟩, ?_⟩
  unfold signedBin
  rw [hp, Option.bind_eq_bind, Option.bind_some, hcode, Raise.orRaise_eq_ok.1 hname]
  show ((fs binName).bind fun bin => _) = _
  rw [Raise.orRaise_eq_ok.1 hbin]
  rfl

theorem signingLoop_eq_ok {startOffset : Int} : ∀ {names : List (List Char)} {f out : List UInt8},
    signingLoop ps fs startOffset f names = .ok out →
      ∃ bins, names.mapM (signedBin ps fs) = some bins ∧ out = padAll startOffset f bins
  | [], f, out, h => by
    cases h
    exact ⟨[], rfl, rfl⟩
  | pname :: names, f, out, h => by
    unfold signingLoop at h
    obtain ⟨⟨o, bin⟩, hchild, h⟩ := Raise.bind_eq_ok.1 h
    obtain ⟨bins, hbins, rfl⟩ := signingLoop_eq_ok h
    refine ⟨binAt o.virCodeOffset pname bin :: bins, ?_, rfl⟩
    rw [List.mapM_cons, (signingChild_eq_ok hchild).2, hbins]
    rfl

theorem genBinForBl2Signing_eq_ok {names : List (List Char)} {out : List UInt8}
    (h : genBinForBl2Signing ps fs names = .ok (some out)) :
    ∃ start bins, names.head?.bind (signingStart ps) = some start ∧ names.mapM (signedBin ps fs) = some bins ∧
      out = padAll start [] bins := by
  cases names with
  | nil => cases h
  | cons pname names =>
    obtain ⟨⟨o, bin⟩, hchild, h⟩ := Raise.bind_eq_ok.1 h
    dsimp only at h
    obtain ⟨f, hloop, h⟩ := Raise.bind_eq_ok.1 h
    cases h
    obtain ⟨⟨first, s, hfirst, hcode⟩, hbin⟩ := signingChild_eq_ok hchild
    obtain ⟨bins, hbins, rfl⟩ := signingLoop_eq_ok hloop
    refine ⟨o.virPartitionOffset + hdrSz, binAt o.virCodeOffset pname bin :: bins, ?_, ?_, ?_⟩
    · rw [List.head?_cons, Option.bind_some, signingStart, hfirst, Option.bind_eq_bind, Option.bind_some, hcode]
      rfl
    · rw [List.mapM_cons, hbin, hbins]
      rfl
    · -- the padding in front of the first child is the one up to its position
      have hstart : o.virCodeOffset - (o.virCodeOffset - o.virPartitionOffset - hdrSz) =
          o.virPartitionOffset + hdrSz := by
        omega
      have hpad : o.virCodeOffset - o.virPartitionOffset - hdrSz =
          o.virCodeOffset - (o.virPartitionOffset + hdrSz) - ([] : List UInt8).length := by
        show _ = _ - (0 : Int)
        omega
      rw [hstart, hpad]
      rfl

end

/-! ### The files -/

/-- Both tools write each binary at its position, with `0xFF` between them, if and only if no position is before the end
of what has been written. -/
theorem merged_bins_placed (ps : Partitions) (fs : Dir) :
    (∀ built binName idxs out, genMergedPartitionsBin built fs binName idxs = .ok out →
      ∃ first rest, idxs.mapM (partitionAt built) = .ok (first :: rest) ∧
        let bins := mergedBins (first :: rest) ++ provisionBins fs binName
        out = padAll first.part.partitionOffset [] bins ∧
          (Written first.part.partitionOffset [] bins ∧ BinsImage first.part.partitionOffset bins out ↔
            Apart first.part.partitionOffset bins)) ∧
    ∀ names out, genBinForBl2Signing ps fs names = .ok (some out) →
      ∃ start bins, names.head?.bind (signingStart ps) = some start ∧ names.mapM (signedBin ps fs) = some bins ∧
        out = padAll start [] bins ∧ (Written start [] bins ∧ BinsImage start bins out ↔ Apart start bins) := by
  constructor
  · intro built binName idxs out h
    obtain ⟨first, rest, hparts, rfl⟩ := genMergedPartitionsBin_eq_ok h
    exact ⟨first, rest, hparts, rfl, placed_iff _ _⟩
  · intro names out h
    obtain ⟨start, bins, hstart, hbins, rfl⟩ := genBinForBl2Signing_eq_ok h
    exact ⟨start, bins, hstart, hbins, rfl, placed_iff _ _⟩

def childRows : List (List (List Char)) :=
  [["Name", "Offset", "Size", "Execute", "Read", "Write"], ["bl1_control", "0x0", "4k", "FALSE", "TRUE", "FALSE"],
    ["bl2", "", "4k", "TRUE", "TRUE", "FALSE"], ["primary_a", "", "8k", "TRUE", "TRUE", "TRUE"],
    ["primary_b", "", "4k", "TRUE", "TRUE", "TRUE"], ["primary_manifest", "", "4k", "FALSE", "TRUE", "FALSE"]].map
    (·.map String.toList)

def childDir (a signed : Nat) : Dir := fun file =>
  [("bl2.bin".toList, [1]), ("provision.bin".toList, [2]), ("a.bin".toList, List.replicate a 3), ("b.bin".toList, [4]),
    ("primary_all_code_signed.bin".toList, List.replicate signed 5), ("primary_manifest.bin".toList, [6])].lookup file

def bootloader (signed : Nat) (names : List (List Char)) :
    Except PackErr (Partitions × List Built × List Int × List UInt8) := do
  let json := [("bootloader.bin".toList, names)]
  let ps ← (Partitions.init (fun _ => none) "partitions.csv" "OVERWRITE".toList true childRows).mapError .util
  let built ← prepare ps ⟨.random, [], fun _ _ _ => none⟩ "pack.json" json (childDir 1 signed)
  let idxs := getPackIdxList built.1 json "bootloader.bin".toList
  let out ← genMergedPartitionsBin built.1 (childDir 1 signed) "bootloader.bin".toList idxs
  .ok (ps, built.1, idxs, out)

theorem merged_bins_placed_children :
    ∃ ps built idxs out, bootloader 1 ["bl1_control".toList, "bl2".toList] = .ok (ps, built, idxs, out) ∧
      (∃ first rest, idxs.mapM (partitionAt built) = .ok (first :: rest) ∧
        BinsImage first.part.partitionOffset (mergedBins (first :: rest)) out) ∧
      ∃ start bins out', genBinForBl2Signing ps (childDir 1 1) ps.primaryPartitionsVerifiedByBl2 = .ok (some out') ∧
        ps.primaryPartitionsVerifiedByBl2.mapM (signedBin ps (childDir 1 1)) = some bins ∧
          BinsImage start bins out' := by
  obtain ⟨⟨ps, built, idxs, out⟩, hok, ⟨parts, hlist, hapart⟩, hstart, ⟨bins, hchildren, hapart'⟩, _, hout',
    out', rfl, -⟩ :
    ∃ r, bootloader 1 ["bl1_control".toList, "bl2".toList] = .ok r ∧
      (∃ parts, r.2.2.1.mapM (partitionAt r.2.1) = .ok parts ∧
        ∀ first ∈ parts.head?, Apart first.part.partitionOffset (mergedBins parts)) ∧
      r.1.primaryPartitionsVerifiedByBl2.head?.bind (signingStart r.1) = some 11808 ∧
      (∃ bins ∈ r.1.primaryPartitionsVerifiedByBl2.mapM (signedBin r.1 (childDir 1 1)), Apart 11808 bins) ∧
      ∃ file, genBinForBl2Signing r.1 (childDir 1 1) r.1.primaryPartitionsVerifiedByBl2 = .ok file ∧
        ∃ _ ∈ file, True := by
    decide +kernel
  have hrun := hok
  obtain ⟨_, -, hok⟩ := Raise.bind_eq_ok.1 hok
  obtain ⟨_, -, hok⟩ := Raise.bind_eq_ok.1 hok
  obtain ⟨_, hmerge, hok⟩ := Raise.bind_eq_ok.1 hok
  cases hok
  obtain ⟨hpacked, hsigning⟩ := merged_bins_placed ps (childDir 1 1)
  refine ⟨ps, _, _, out, hrun, ?_, ?_⟩
  · obtain ⟨first, rest, hparts, -, himg⟩ := hpacked _ _ _ out hmerge
    cases hlist.symm.trans hparts
    have hnone : provisionBins (childDir 1 1) "bootloader.bin".toList = [] := rfl
    rw [hnone, List.append_nil] at himg
    exact ⟨first, rest, hparts, (himg.2 (hapart first rfl)).2⟩
  · obtain ⟨start, _, hstart', hbins, -, himg⟩ := hsigning _ out' hout'
    cases hstart.symm.trans hstart'
    cases hchildren.symm.trans hbins
    exact ⟨_, bins, out', hout', hbins, (himg.2 hapart').2⟩

theorem merged_bins_shifted :
    (∃ r, bootloader 0x3001 ["primary_all".toList, "primary_manifest".toList] = .ok r ∧
      (r.2.2.1.mapM (partitionAt r.2.1)).toOption.map (List.map (·.part.partitionOffset)) = some [0x2000, 0x5000] ∧
      r.2.2.2.drop (0x5000 - 0x2000) = [5, 6]) ∧
    ∃ ps, Partitions.init (fun _ => none) "partitions.csv" "OVERWRITE".toList true childRows = .ok ps ∧
      ps.primaryPartitionsVerifiedByBl2.head?.bind (signingStart ps) = some 11808 ∧
      (ps.primaryPartitionsVerifiedByBl2.mapM (signedBin ps (childDir 3585 1))).map (List.map (·.addr)) =
        some [12288, 15872] ∧
      (genBinForBl2Signing ps (childDir 3585 1) ps.primaryPartitionsVerifiedByBl2).toOption.map
        (Option.map (List.drop (15872 - 11808))) = some (some [3, 4]) := by
  decide +kernel

end Bk7258.BekenUtils

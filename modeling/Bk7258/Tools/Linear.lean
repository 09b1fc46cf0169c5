import Bk7258.Lib.Segment
import Bk7258.Tools.PackJson

/-!
# The linear image

`bk_packager_linear_linker` writes the images at their addresses with `0xFF` between them. The write position `curr_pos`
is an address, and 0 also means that nothing has been written.
-/

namespace Bk7258

def PartitionInfo.stop (p : PartitionInfo) : Int := p.addr + p.data.length

def writeBinaryFrom (startPaddingMode : Bool) : Int → List PartitionInfo → Except PyErr (List UInt8)
  | _, [] => .ok []
  | currPos, p :: ps =>
    if currPos > p.addr then .error (.runtimeError "partitions layout error")
    else do
      let paddingLen := if currPos ≠ 0 ∨ startPaddingMode then p.addr - currPos else 0
      let rest ← writeBinaryFrom startPaddingMode p.stop ps
      .ok (List.replicate paddingLen.toNat 0xFF ++ p.data ++ rest)

def writeBinary (startPaddingMode : Bool) (partInfo : List PartitionInfo) : Except PyErr (List UInt8) :=
  writeBinaryFrom startPaddingMode 0 partInfo

def imageBase (startPaddingMode : Bool) : List PartitionInfo → Int
  | [] => 0
  | p :: _ => if startPaddingMode then 0 else p.addr

def imageStop (base : Int) (parts : List PartitionInfo) : Int :=
  (parts.getLast?.map PartitionInfo.stop).getD base

/-- The file has each image at its address and `0xFF` everywhere else, up to the end of the last image. -/
structure LinearImage (base : Int) (parts : List PartitionInfo) (out : List UInt8) : Prop where
  length : base + out.length = imageStop base parts
  data : ∀ p ∈ parts, base ≤ p.addr ∧ Segment.At out (p.addr - base).toNat p.data
  padding : ∀ k < out.length, (∀ p ∈ parts, ¬ (p.addr ≤ base + k ∧ base + k < p.stop)) →
    out[k]? = some 0xFF

variable {p : PartitionInfo} {ps : List PartitionInfo}

theorem Laid.tail (h : Laid (p :: ps)) : Laid ps where
  slots := (List.pairwise_cons.1 h.slots).2
  fits := fun q hq => h.fits q (List.mem_cons_of_mem _ hq)

theorem Laid.stop_le {q : PartitionInfo} (h : Laid (p :: ps)) (hq : q ∈ ps) : p.stop ≤ q.addr := by
  have hslot := (List.pairwise_cons.1 h.slots).1 q hq
  have hfit := h.fits p (List.mem_cons_self ..)
  unfold PartitionInfo.stop
  omega

theorem imageStop_cons (base : Int) (p : PartitionInfo) (ps : List PartitionInfo) :
    imageStop base (p :: ps) = imageStop p.stop ps := by
  cases ps with
  | nil => rfl
  | cons q ps =>
    rw [imageStop, imageStop, List.getLast?_cons_cons, List.getLast?_eq_some_getLast (List.cons_ne_nil q ps)]
    rfl

theorem LinearImage.cons {base : Int} {rest : List UInt8}
    (hb : base ≤ p.addr) (hl : Laid (p :: ps)) (h : LinearImage p.stop ps rest) :
    LinearImage base (p :: ps) (List.replicate (p.addr - base).toNat 0xFF ++ p.data ++ rest) := by
  have hpad : ((p.addr - base).toNat : Int) = p.addr - base := Int.toNat_of_nonneg (by omega)
  have hstop : p.stop = p.addr + p.data.length := rfl
  constructor
  · rw [imageStop_cons, ← h.length, List.length_append, Segment.length_padded]
    omega
  · intro q hq
    rcases List.mem_cons.1 hq with rfl | hq
    · exact ⟨hb, .padded _ rest⟩
    · have hnext := hl.stop_le hq
      refine ⟨by omega, ?_⟩
      rw [show (q.addr - base).toNat = (p.addr - base).toNat + p.data.length + (q.addr - p.stop).toNat by omega]
      exact (h.data q hq).2.behind ..
  · intro k hk hno
    have hp := hno p (List.mem_cons_self ..)
    by_cases hfront : k < (p.addr - base).toNat
    · exact Segment.getElem?_padding _ _ hfront
    · -- behind this image
      rw [List.length_append, Segment.length_padded] at hk
      rw [Segment.getElem?_behind _ _ (by omega)]
      refine h.padding _ (by omega) fun q hq hin => hno q (List.mem_cons_of_mem _ hq) ?_
      rwa [show p.stop + ((k - ((p.addr - base).toNat + p.data.length) : Nat) : Int) = base + k by omega] at hin

/-- Behind an image that ends at address 0 the linker leaves the padding out. -/
def PartitionInfo.Joins (p q : PartitionInfo) : Prop := p.stop = 0 → q.addr = 0

instance (p q : PartitionInfo) : Decidable (p.Joins q) := inferInstanceAs (Decidable (_ → _))

/-- The loop, after the image `p`: the file is never too long, and when its length is right it is the image. -/
theorem writeBinaryFrom_image (mode : Bool) : ∀ {p : PartitionInfo} {ps : List PartitionInfo}, Laid (p :: ps) →
    0 ≤ p.addr → ∃ out, writeBinaryFrom mode p.stop ps = .ok out ∧ p.stop + out.length ≤ imageStop p.stop ps ∧
      (p.stop + out.length = imageStop p.stop ps → mode = true ∨ (p :: ps).IsChain PartitionInfo.Joins) ∧
      (mode = true ∨ (p :: ps).IsChain PartitionInfo.Joins → LinearImage p.stop ps out)
  | p, [], _, _ =>
    ⟨[], rfl, by simp [imageStop], fun _ => .inr (.singleton p), fun _ => ⟨by simp [imageStop], nofun, nofun⟩⟩
  | p, q :: ps, hl, hp => by
    have hpq : p.stop ≤ q.addr := hl.stop_le (List.mem_cons_self ..)
    have hstop : 0 ≤ p.stop := by
      unfold PartitionInfo.stop
      omega
    have hq : q.stop = q.addr + q.data.length := rfl
    obtain ⟨rest, hrest, hlen, hend, himg⟩ := writeBinaryFrom_image mode hl.tail (hstop.trans hpq)
    rw [imageStop_cons, List.isChain_cons_cons]
    generalize hpad : (if p.stop ≠ 0 ∨ mode = true then q.addr - p.stop else 0) = pad
    have hwrite : writeBinaryFrom mode p.stop (q :: ps) = .ok (List.replicate pad.toNat 0xFF ++ q.data ++ rest) := by
      rw [writeBinaryFrom, if_neg (not_lt.2 hpq), hrest, hpad]
      rfl
    have hjoin : pad = q.addr - p.stop ↔ mode = true ∨ p.Joins q := by
      unfold PartitionInfo.Joins
      by_cases hm : p.stop ≠ 0 ∨ mode = true
      · rw [if_pos hm] at hpad
        exact ⟨fun _ => hm.symm.imp_right fun h h0 => absurd h0 h, fun _ => hpad.symm⟩
      · rw [if_neg hm] at hpad
        obtain ⟨h0, hm⟩ := not_or.1 hm
        have h0 := not_not.1 h0
        rw [or_iff_right hm]
        exact ⟨fun h _ => by omega, fun h => by have := h h0; omega⟩
    have hle : 0 ≤ pad ∧ pad ≤ q.addr - p.stop := by
      rw [← hpad]
      split <;> omega
    refine ⟨_, hwrite, ?_, ?_, ?_⟩
    · simp only [List.length_append, List.length_replicate, Int.natCast_add]
      omega
    · intro h
      simp only [List.length_append, List.length_replicate, Int.natCast_add] at h
      rcases hjoin.1 (by omega) with hm | hj
      · exact .inl hm
      · exact (hend (by omega)).imp_right fun hc => ⟨hj, hc⟩
    · intro h
      rw [hjoin.2 (h.imp_right And.left)]
      exact (himg (h.imp_right And.right)).cons hpq hl.tail

theorem writeBinary_padded {parts : List PartitionInfo} (hl : Laid parts) (h0 : ∀ p ∈ parts, 0 ≤ p.addr) :
    ∃ out, writeBinary true parts = .ok out ∧ LinearImage 0 parts out := by
  -- as if an empty image had been written at address 0
  have hzero : Laid (⟨0, 0, [], []⟩ :: parts) :=
    ⟨List.pairwise_cons.2 ⟨h0, hl.slots⟩, List.forall_mem_cons.2 ⟨le_rfl, hl.fits⟩⟩
  obtain ⟨out, hout, -, -, himg⟩ := writeBinaryFrom_image true hzero le_rfl
  exact ⟨out, hout, himg (.inl rfl)⟩

section
variable {decimal : Char → Option (Fin 10)} {w : Workdir} {sections : List PackSection} {parts : List PartitionInfo}

/-- What `bk_packager_json` accepts is linked without an error, each file of the sections at its address. -/
theorem packed_image (h : bkPackagerJson decimal w sections = .ok parts) (h0 : ∀ p ∈ parts, 0 ≤ p.addr) :
    (∃ ps, List.Forall₂ (PackSection.Gives decimal w) sections ps ∧ parts.Perm ps) ∧
      ∃ out, writeBinary true parts = .ok out ∧ LinearImage 0 parts out :=
  ⟨bkPackagerJson_gives h, writeBinary_padded (bkPackagerJson_laid h) h0⟩

end

theorem packed_image_two : ∃ parts out, parts.map (·.name) = [['a'], ['b']] ∧ writeBinary true parts = .ok out ∧
    LinearImage 0 parts out := by
  obtain ⟨parts, h, h0, hnames⟩ : ∃ parts, bkPackagerJson (fun _ => none) ⟨fun _ => "", fun _ => some [1]⟩
      [⟨[], ['b'], "0x2000".toList, "4K".toList⟩, ⟨[], ['a'], "0".toList, "8K".toList⟩] = .ok parts ∧
    (∀ p ∈ parts, 0 ≤ p.addr) ∧ parts.map (·.name) = [['a'], ['b']] := by decide +kernel
  obtain ⟨-, out, hout⟩ := packed_image h h0
  exact ⟨parts, out, hnames, hout⟩

theorem Laid.addr_nonneg (hl : Laid (p :: ps)) (hp : 0 ≤ p.addr) : ∀ q ∈ p :: ps, 0 ≤ q.addr := by
  refine List.forall_mem_cons.2 ⟨hp, fun q hq => ?_⟩
  have hstop := hl.stop_le hq
  unfold PartitionInfo.stop at hstop
  omega

/-- The file is the linear image exactly when no address is negative and no image lacks its padding. -/
theorem linear_image {mode : Bool} {parts : List PartitionInfo} (hl : Laid parts) :
    (∃ out, writeBinary mode parts = .ok out ∧ LinearImage (imageBase mode parts) parts out) ↔
      (∀ p ∈ parts, 0 ≤ p.addr) ∧ (mode = true ∨ parts.IsChain PartitionInfo.Joins) := by
  cases parts with
  | nil => exact ⟨fun _ => ⟨nofun, .inr .nil⟩, fun _ => ⟨[], rfl, rfl, nofun, nofun⟩⟩
  | cons p ps =>
    by_cases hp : 0 ≤ p.addr
    · have h0 := hl.addr_nonneg hp
      cases mode with
      | true => exact ⟨fun _ => ⟨h0, .inl rfl⟩, fun _ => writeBinary_padded hl h0⟩
      | false =>
        obtain ⟨rest, hrest, hlen, hend, himg⟩ := writeBinaryFrom_image false hl hp
        have hwrite : writeBinary false (p :: ps) = .ok (p.data ++ rest) := by
          rw [writeBinary, writeBinaryFrom, if_neg (not_lt.2 hp), hrest, if_neg (by simp)]
          simp [bind, Except.bind]
        constructor
        · rintro ⟨out, hout, hbase⟩
          cases hwrite.symm.trans hout
          have hsum : p.addr + ((p.data ++ rest).length : Int) = imageStop p.addr (p :: ps) := hbase.length
          rw [imageStop_cons, List.length_append, Int.natCast_add] at hsum
          refine ⟨h0, hend ?_⟩
          rw [← hsum, PartitionInfo.stop, Int.add_assoc]
        · rintro ⟨-, hc⟩
          refine ⟨_, hwrite, ?_⟩
          have hbase := (himg hc).cons (le_refl p.addr) hl
          rwa [Int.sub_self] at hbase
    · -- the first address is the lowest
      constructor
      · rintro ⟨out, hout, -⟩
        rw [writeBinary, writeBinaryFrom, if_pos (not_le.1 hp)] at hout
        cases hout
      · rintro ⟨h0, -⟩
        exact absurd (h0 p (List.mem_cons_self ..)) hp

theorem linear_image_gap :
    ∃ out, writeBinary false [⟨2, 4, "boot".toList, [1]⟩, ⟨6, 4, "app".toList, [2, 3]⟩] = .ok out ∧
      LinearImage 2 [⟨2, 4, "boot".toList, [1]⟩, ⟨6, 4, "app".toList, [2, 3]⟩] out :=
  (linear_image ⟨by decide, by decide⟩).2 ⟨by decide, .inr (by decide)⟩

theorem linear_image_unpadded :
    Laid [⟨0, 16, "boot".toList, []⟩, ⟨16, 16, "app".toList, [1]⟩] ∧
      writeBinary false [⟨0, 16, "boot".toList, []⟩, ⟨16, 16, "app".toList, [1]⟩] = .ok [1] ∧
      ¬ LinearImage 0 [⟨0, 16, "boot".toList, []⟩, ⟨16, 16, "app".toList, [1]⟩] [1] := by
  refine ⟨⟨by decide, by decide⟩, by decide, ?_⟩
  intro h
  have hlen := h.length
  revert hlen
  decide

end Bk7258

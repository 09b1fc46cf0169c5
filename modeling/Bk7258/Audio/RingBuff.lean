import Bk7258.Lib.Ring
import Bk7258.Dma.Pool

/-!
# The ring buffers of the audio driver

A ring buffer is filled or emptied by the CPU or, on one side, by a DMA channel; positions are relative to
`rb->address`. `RWP_SAFE_INTERVAL` is 0, so the write that fills the last free byte is accepted and makes the two
positions equal, which is also how an empty ring looks.
-/

namespace Bk7258

open Lts

abbrev rwpSafeInterval : Nat := 0

inductive RbDmaType
  | null
  | read
  | write
deriving DecidableEq

structure RingBufferContext where
  address : Nat → BitVec 8
  capacity : Nat
  wp : Nat
  rp : Nat
  dmaId : Nat
  dmaType : RbDmaType

structure RbDma where
  enableStatus : Bool
  destWriteAddr : Nat
  srcReadAddr : Nat
  repeatWrPause : Bool
  repeatRdPause : Bool

def RbDma.writePos (dma : RbDma) : Nat := if dma.enableStatus then dma.destWriteAddr else 0

namespace RingBufferContext

def HasDma (rb : RingBufferContext) (type : RbDmaType) : Prop := rb.dmaId ≠ dmaIdMax ∧ rb.dmaType = type

instance (rb : RingBufferContext) (type : RbDmaType) : Decidable (rb.HasDma type) := inferInstanceAs (Decidable (_ ∧ _))

def syncWp (rb : RingBufferContext) (dma : RbDma) : RingBufferContext :=
  if rb.HasDma .write then { rb with wp := dma.writePos } else rb

def syncRp (rb : RingBufferContext) (dma : RbDma) : RingBufferContext :=
  if rb.HasDma .read then { rb with rp := if dma.enableStatus then dma.srcReadAddr else 0 } else rb

/-- The copy of `ring_buffer_read` and the new read position; `none` is its early return of 0 -/
def copyOut (rb : RingBufferContext) (required : Nat) : Option (List (BitVec 8) × Nat) :=
  if rb.wp > rb.rp then
    let remain := rb.wp - rb.rp
    if required > remain then some (Ring.slice rb.address rb.rp remain, (rb.rp + remain) % rb.capacity)
    else some (Ring.slice rb.address rb.rp required, (rb.rp + required) % rb.capacity)
  -- equal positions are an empty ring, or one that the DMA has filled
  else if rb.wp = rb.rp ∧ rb.dmaType ≠ .write then none
  else
    let remain := rb.capacity - rb.rp
    if required > remain then
      let first := Ring.slice rb.address rb.rp remain
      if required - remain > rb.wp then some (first ++ Ring.slice rb.address 0 rb.wp, rb.wp)
      else some (first ++ Ring.slice rb.address 0 (required - remain), required - remain)
    else some (Ring.slice rb.address rb.rp required, (rb.rp + required) % rb.capacity)

def pausePtr (rb : RingBufferContext) : Nat :=
  if rb.rp = rb.wp then
    -- the last word of the ring would be `capacity - 4`
    if rb.wp ≥ 4 then rb.wp - 4 else rb.capacity + 4 - rb.rp
  else rb.rp

/-- The copy of `ring_buffer_write` and the new write position; `none` when it does not fit -/
def copyIn (rb : RingBufferContext) (data : List (BitVec 8)) : Option ((Nat → BitVec 8) × Nat) :=
  if rb.wp ≥ rb.rp then
    if rb.capacity - rb.wp + rb.rp ≥ data.length + rwpSafeInterval then
      let remain := rb.capacity - rb.wp
      if remain ≥ data.length then some (Ring.put rb.address rb.wp data, (rb.wp + data.length) % rb.capacity)
      else
        some (Ring.put (Ring.put rb.address rb.wp (data.take remain)) 0 (data.drop remain), data.length - remain)
    else none
  else if rb.rp - rb.wp ≥ data.length + rwpSafeInterval then
    some (Ring.put rb.address rb.wp data, (rb.wp + data.length) % rb.capacity)
  else none

end RingBufferContext

/-- The ring, and the pause position that is programmed if there is a DMA -/
def ringBufferInit (address : Nat → BitVec 8) (capacity dmaId : Nat) (dmaType : RbDmaType) :
    Option Nat × RingBufferContext :=
  let rb : RingBufferContext := { address, capacity, wp := 0, rp := 0, dmaId, dmaType }
  (if rb.HasDma .read then some 0 else if rb.HasDma .write then some (capacity - 8) else none, rb)

def ringBufferClear (rb : RingBufferContext) : Option Nat × RingBufferContext :=
  (if rb.HasDma .read then some 0 else if rb.HasDma .write then some (rb.capacity - 4) else
    none, { rb with wp := 0, rp := 0 })

/-- The bytes read, the pause position that is programmed if any, and the ring afterwards -/
def ringBufferRead (rb : RingBufferContext) (dma : RbDma) (size : Nat) :
    List (BitVec 8) × Option Nat × RingBufferContext :=
  let rb := rb.syncWp dma
  if size = 0 then ([], none, rb)
  else
    match rb.copyOut size with
    | none => ([], none, rb)
    | some (bytes, rp) =>
      let rb := { rb with rp }
      (bytes, if rb.HasDma .write then some rb.pausePtr else none, rb)

/-- The number of bytes taken, the pause position that is programmed if any, and the ring afterwards -/
def ringBufferWrite (rb : RingBufferContext) (dma : RbDma) (data : List (BitVec 8)) :
    Nat × Option Nat × RingBufferContext :=
  if data.length = 0 then (0, none, rb)
  else
    let rb := rb.syncRp dma
    match rb.copyIn data with
    | none => (0, none, rb)
    | some (address, wp) =>
      let rb := { rb with address, wp }
      let rb := if rb.wp ≥ rb.capacity ∧ rb.rp ≠ 0 then { rb with wp := 0 } else rb
      (data.length, if rb.HasDma .read then some rb.wp else none, rb)

def ringBufferGetFillSize (rb : RingBufferContext) (dma : RbDma) : Nat :=
  let rb := (rb.syncRp dma).syncWp dma
  let fill := if rb.wp ≥ rb.rp then rb.wp - rb.rp else rb.capacity - rb.rp + rb.wp
  let pauseFlag := (rb.dmaType = .write ∧ dma.repeatWrPause) ∨ (rb.dmaType = .read ∧ dma.repeatRdPause)
  if pauseFlag ∧ fill = 0 ∧ rb.dmaType = .write then rb.capacity - fill else fill

def ringBufferGetFreeSize (rb : RingBufferContext) (dma : RbDma) : Nat :=
  let free := rb.capacity - ringBufferGetFillSize rb dma
  if free > rwpSafeInterval then free - rwpSafeInterval else 0

/-! ### Without DMA -/

inductive RbCall
  | write (data : List (BitVec 8))
  | read (size : Nat)
  | clear

structure RbSys where
  rb : RingBufferContext
  queue : List (BitVec 8)

namespace RbSys

def start (address : Nat → BitVec 8) (capacity : Nat) : RbSys :=
  { rb := (ringBufferInit address capacity dmaIdMax .null).2, queue := [] }

def step (dma : RbDma) (s : RbSys) : RbCall → Option RbSys
  | .write data =>
    some { rb := (ringBufferWrite s.rb dma data).2.2, queue := s.queue ++ data.take (ringBufferWrite s.rb dma data).1 }
  | .read size =>
    some { rb := (ringBufferRead s.rb dma size).2.2, queue := s.queue.drop (ringBufferRead s.rb dma size).1.length }
  | .clear => some { rb := (ringBufferClear s.rb).2, queue := [] }

def LeavesRoom (dma : RbDma) (s : RbSys) : RbCall → Prop
  | .write data => data.length ≠ 0 → data.length ≠ ringBufferGetFreeSize s.rb dma
  | _ => True

instance (dma : RbDma) (s : RbSys) : (c : RbCall) → Decidable (LeavesRoom dma s c)
  | .write _ => inferInstanceAs (Decidable (_ → _))
  | .read _ => inferInstanceAs (Decidable True)
  | .clear => inferInstanceAs (Decidable True)

end RbSys

section
variable {rb : RingBufferContext} {dma : RbDma} {data : List (BitVec 8)} {size : Nat}

structure Plain (rb : RingBufferContext) : Prop where
  dmaId : rb.dmaId = dmaIdMax
  dmaType : rb.dmaType = .null
  rp : rb.rp < rb.capacity
  wp : rb.wp < rb.capacity

abbrev RingBufferContext.unread (rb : RingBufferContext) : List (BitVec 8) :=
    Ring.contents rb.address rb.capacity rb.rp rb.wp

theorem hasDma_of_max {type : RbDmaType} (h : rb.dmaId = dmaIdMax) : ¬rb.HasDma type := fun hd => hd.1 h

theorem syncWp_of_max (h : rb.dmaId = dmaIdMax) : rb.syncWp dma = rb := if_neg (hasDma_of_max h)

theorem syncRp_of_max (h : rb.dmaId = dmaIdMax) : rb.syncRp dma = rb := if_neg (hasDma_of_max h)

theorem ringBufferRead_zero : ringBufferRead rb dma 0 = ([], none, rb.syncWp dma) :=
    by simp only [ringBufferRead, if_true]

theorem ringBufferRead_none (hcopy : (rb.syncWp dma).copyOut size = none) :
    ringBufferRead rb dma size = ([], none, rb.syncWp dma) := by
  simp only [ringBufferRead, hcopy, ite_self]

theorem ringBufferRead_some {bytes : List (BitVec 8)} {rp : Nat} (h0 : size ≠ 0)
    (hcopy : (rb.syncWp dma).copyOut size = some (bytes, rp)) : ringBufferRead rb dma size =
      (bytes, if (rb.syncWp dma).HasDma .write then some { rb.syncWp dma with rp }.pausePtr else none,
        { rb.syncWp dma with rp }) := by
  simp only [ringBufferRead, if_neg h0, hcopy]
  rfl

theorem ringBufferWrite_none (hcopy : (rb.syncRp dma).copyIn data = none) (h0 : data.length ≠ 0) :
    ringBufferWrite rb dma data = (0, none, rb.syncRp dma) := by
  simp only [ringBufferWrite, if_neg h0, hcopy]

theorem fillSize_of_max (h : rb.dmaId = dmaIdMax) (hnull : rb.dmaType = .null) :
    ringBufferGetFillSize rb dma = if rb.wp ≥ rb.rp then rb.wp - rb.rp else rb.capacity - rb.rp + rb.wp := by
  unfold ringBufferGetFillSize
  rw [syncRp_of_max h, syncWp_of_max h]
  simp [hnull]

theorem freeSize_eq : ringBufferGetFreeSize rb dma = rb.capacity - ringBufferGetFillSize rb dma := by
  unfold ringBufferGetFreeSize
  simp only [rwpSafeInterval, Nat.sub_zero]
  split <;> omega

namespace Plain

variable (h : Plain rb)
include h

theorem fillSize : ringBufferGetFillSize rb dma = rb.unread.length := by
  have hcount := Ring.count_cases rb.capacity rb.rp rb.wp
  have hrp := h.rp
  rw [fillSize_of_max h.dmaId h.dmaType, Ring.contents_length]
  split <;> omega

theorem copyOut_eq (size : Nat) : rb.copyOut size = if rb.rp = rb.wp then none
    else some (rb.unread.take size, (rb.rp + (rb.unread.take size).length) % rb.capacity) := by
  have hcount := Ring.count_cases rb.capacity rb.rp rb.wp
  have hrp := h.rp
  have hwp := h.wp
  have hnull : rb.dmaType ≠ .write := by simp [h.dmaType]
  have hlen : ∀ k ≤ Ring.count rb.capacity rb.rp rb.wp, (rb.unread.take k).length = k := by
    intro k hk
    rw [List.length_take, Ring.contents_length, Nat.min_eq_left hk]
  -- a read of more than there is takes all
  have hall : Ring.count rb.capacity rb.rp rb.wp ≤ size →
      rb.unread.take size = rb.unread.take (Ring.count rb.capacity rb.rp rb.wp) := by
    intro hle
    rw [List.take_of_length_le (by rwa [Ring.contents_length]), List.take_of_length_le (by rw [Ring.contents_length])]
  have htake : ∀ k, rb.rp + k ≤ rb.capacity → k ≤ Ring.count rb.capacity rb.rp rb.wp →
      Ring.slice rb.address rb.rp k = rb.unread.take k := fun k => Ring.slice_eq_take
  unfold RingBufferContext.copyOut
  rcases Nat.lt_trichotomy rb.rp rb.wp with hlt | heq | hgt
  · rw [if_pos hlt, if_neg (Nat.ne_of_lt hlt)]
    have hcnt : rb.wp - rb.rp = Ring.count rb.capacity rb.rp rb.wp := by omega
    by_cases hmore : size > rb.wp - rb.rp
    · simp only [if_pos hmore]
      rw [hall (by omega), hlen _ (Nat.le_refl _), htake _ (by omega) (by omega), hcnt]
    · simp only [if_neg hmore]
      rw [hlen size (by omega), htake size (by omega) (by omega)]
  · rw [if_neg (by omega), if_pos ⟨heq.symm, hnull⟩, if_pos heq]
  · rw [if_neg (Nat.lt_asymm hgt), if_neg fun he => Nat.ne_of_lt hgt he.1, if_neg (Nat.ne_of_gt hgt)]
    by_cases hmore : size > rb.capacity - rb.rp
    · -- the data goes around the end
      simp only [if_pos hmore]
      have hmod := Ring.add_mod_cases (k := size) h.rp
      by_cases hwrap : size - (rb.capacity - rb.rp) > rb.wp
      · have hcnt : rb.wp = Ring.count rb.capacity rb.rp rb.wp - (rb.capacity - rb.rp) := by omega
        have hcopy : Ring.slice rb.address rb.rp (rb.capacity - rb.rp) ++ Ring.slice rb.address 0
            (Ring.count rb.capacity rb.rp rb.wp - (rb.capacity - rb.rp)) = _ :=
          Ring.slice_slice_eq_take h.rp h.wp (by omega) (Nat.le_refl _)
        rw [← hcnt] at hcopy
        rw [if_pos hwrap, hall (by omega), hlen _ (Nat.le_refl _), Ring.add_count h.rp h.wp, hcopy]
      · rw [if_neg hwrap, hlen size (by omega), Ring.slice_slice_eq_take h.rp h.wp (by omega) (by omega),
          show size - (rb.capacity - rb.rp) = (rb.rp + size) % rb.capacity by have := hmod (by omega); omega]
    · simp only [if_neg hmore]
      rw [hlen size (by omega), htake size (by omega) (by omega)]

theorem copyIn_eq (hfit : Ring.count rb.capacity rb.rp rb.wp + data.length ≤ rb.capacity) :
    ∃ address, rb.copyIn data = some (address, (rb.wp + data.length) % rb.capacity) ∧
      ∀ c < rb.capacity, address c = Ring.fill rb.address rb.capacity rb.wp data c := by
  have hcount := Ring.count_cases rb.capacity rb.rp rb.wp
  have hrp := h.rp
  have hwp := h.wp
  unfold RingBufferContext.copyIn
  by_cases hge : rb.wp ≥ rb.rp
  · rw [if_pos hge, if_pos (show _ ≥ data.length + 0 by omega)]
    by_cases hremain : rb.capacity - rb.wp ≥ data.length
    · simp only [if_pos hremain]
      exact ⟨_, rfl, fun c _ => Ring.put_eq_fill h.wp (by omega) c⟩
    · simp only [if_neg hremain]
      have hmod := Ring.add_mod_cases (k := data.length) h.wp (by omega)
      refine ⟨_, by rw [show data.length - (rb.capacity - rb.wp) = (rb.wp + data.length) % rb.capacity by omega], ?_⟩
      exact fun c hc => Ring.put_put_eq_fill h.wp (by omega) hc
  · rw [if_neg hge, if_pos (show _ ≥ data.length + 0 by omega)]
    exact ⟨_, rfl, fun c _ => Ring.put_eq_fill h.wp (by omega) c⟩

theorem copyIn_eq_none (hfit : rb.capacity < Ring.count rb.capacity rb.rp rb.wp + data.length) :
    rb.copyIn data = none := by
  have hcount := Ring.count_cases rb.capacity rb.rp rb.wp
  have hrp := h.rp
  have hwp := h.wp
  unfold RingBufferContext.copyIn
  by_cases hge : rb.wp ≥ rb.rp
  · rw [if_pos hge, if_neg (show ¬_ ≥ data.length + 0 by omega)]
  · rw [if_neg hge, if_neg (show ¬_ ≥ data.length + 0 by omega)]

theorem read_eq (dma : RbDma) (size : Nat) : (ringBufferRead rb dma size).1 = rb.unread.take size ∧
    (ringBufferRead rb dma size).2.2 = { rb with rp := (rb.rp + (rb.unread.take size).length) % rb.capacity } := by
  have hsync : rb.syncWp dma = rb := syncWp_of_max h.dmaId
  have hstay : rb = { rb with rp := (rb.rp + 0) % rb.capacity } := by rw [Nat.add_zero, Nat.mod_eq_of_lt h.rp]
  by_cases h0 : size = 0
  · rw [h0, ringBufferRead_zero, hsync, List.take_zero]
    exact ⟨rfl, hstay⟩
  · have hcopy := h.copyOut_eq size
    by_cases he : rb.rp = rb.wp
    · rw [if_pos he] at hcopy
      have hnil : rb.unread = [] := (Ring.contents_eq_nil h.rp).2 he
      rw [ringBufferRead_none (by rw [hsync, hcopy]), hsync, hnil, List.take_nil]
      exact ⟨rfl, hstay⟩
    · rw [if_neg he] at hcopy
      rw [ringBufferRead_some h0 (by rw [hsync, hcopy]), hsync]
      exact ⟨rfl, rfl⟩

theorem write_eq (dma : RbDma) (h0 : data.length ≠ 0)
    (hfit : Ring.count rb.capacity rb.rp rb.wp + data.length ≤ rb.capacity) :
    ∃ address, (∀ c < rb.capacity, address c = Ring.fill rb.address rb.capacity rb.wp data c) ∧
      (ringBufferWrite rb dma data).1 = data.length ∧
      (ringBufferWrite rb dma data).2.2 = { rb with address, wp := (rb.wp + data.length) % rb.capacity } := by
  obtain ⟨address, hcopy, hfill⟩ := h.copyIn_eq hfit
  refine ⟨address, hfill, ?_⟩
  have hin : ¬((rb.wp + data.length) % rb.capacity ≥ rb.capacity ∧ rb.rp ≠ 0) := by
    have hlt := Ring.add_mod_lt (k := data.length) h.wp
    omega
  have hsync : rb.syncRp dma = rb := syncRp_of_max h.dmaId
  simp only [ringBufferWrite, if_neg h0, hsync, hcopy, if_neg hin, true_and]

theorem write_eq_zero (hfit : rb.capacity < Ring.count rb.capacity rb.rp rb.wp + data.length) :
    ringBufferWrite rb dma data = (0, none, rb) := by
  have hlt := Ring.count_lt h.rp h.wp
  have hsync : rb.syncRp dma = rb := syncRp_of_max h.dmaId
  rw [ringBufferWrite_none (by rw [hsync, h.copyIn_eq_none hfit]) (by omega), hsync]

end Plain

structure Void (rb : RingBufferContext) : Prop where
  dmaId : rb.dmaId = dmaIdMax
  dmaType : rb.dmaType = .null
  capacity : rb.capacity = 0
  rp : rb.rp = 0
  wp : rb.wp = 0

namespace Void

variable (h : Void rb)
include h

theorem fillSize : ringBufferGetFillSize rb dma = 0 := by
  rw [fillSize_of_max h.dmaId h.dmaType, h.rp, h.wp]
  rfl

theorem read_eq : ringBufferRead rb dma size = ([], none, rb) := by
  have hsync : rb.syncWp dma = rb := syncWp_of_max h.dmaId
  have hnone : rb.copyOut size = none := by simp [RingBufferContext.copyOut, h.rp, h.wp, h.dmaType]
  rw [ringBufferRead_none (by rw [hsync, hnone]), hsync]

theorem write_eq : ringBufferWrite rb dma data = (0, none, rb) := by
  have hsync : rb.syncRp dma = rb := syncRp_of_max h.dmaId
  by_cases h0 : data.length = 0
  · rw [ringBufferWrite, if_pos h0]
  · have hnone : rb.copyIn data = none := by
      unfold RingBufferContext.copyIn
      rw [h.rp, h.wp, h.capacity, if_pos (Nat.le_refl _), if_neg (show ¬0 ≥ data.length + 0 by omega)]
    rw [ringBufferWrite_none (by rw [hsync, hnone]) h0, hsync]

end Void
end

namespace RbSys

variable {dma : RbDma} {s t : RbSys} {n : Nat}

def Inv (n : Nat) (s : RbSys) : Prop :=
  s.rb.capacity = n ∧ (Plain s.rb ∧ s.queue = s.rb.unread ∨ Void s.rb ∧ s.queue = [])

theorem inv_start (address : Nat → BitVec 8) (n : Nat) : Inv n (start address n) := by
  refine ⟨rfl, ?_⟩
  rcases Nat.eq_zero_or_pos n with h0 | hpos
  · exact .inr ⟨⟨rfl, rfl, h0, rfl, rfl⟩, rfl⟩
  · refine .inl ⟨⟨rfl, rfl, hpos, hpos⟩, ?_⟩
    exact ((Ring.contents_eq_nil hpos).2 rfl).symm

theorem inv_write {data : List (BitVec 8)} (h : Inv n s) (hok : s.LeavesRoom dma (.write data)) :
    Inv n { rb := (ringBufferWrite s.rb dma data).2.2
            queue := s.queue ++ data.take (ringBufferWrite s.rb dma data).1 } := by
  obtain ⟨hn, ⟨hp, hq⟩ | ⟨hv, hq⟩⟩ := h
  · by_cases h0 : data.length = 0
    · rw [List.length_eq_zero_iff.1 h0, List.take_nil, List.append_nil]
      exact ⟨hn, .inl ⟨hp, hq⟩⟩
    rcases Nat.lt_or_ge s.rb.capacity (Ring.count s.rb.capacity s.rb.rp s.rb.wp + data.length) with hover | hfit
    · rw [hp.write_eq_zero hover, List.take_zero, List.append_nil]
      exact ⟨hn, .inl ⟨hp, hq⟩⟩
    · -- the write is not one that fills the ring
      have hroom : Ring.count s.rb.capacity s.rb.rp s.rb.wp + data.length < s.rb.capacity := by
        have hne := hok h0
        rw [freeSize_eq, hp.fillSize, Ring.contents_length] at hne
        omega
      obtain ⟨address, hfill, hret, hrb⟩ := hp.write_eq dma h0 hfit
      rw [hret, hrb, List.take_length]
      refine ⟨hn, .inl ⟨⟨hp.dmaId, hp.dmaType, hp.rp, Ring.add_mod_lt hp.wp⟩, ?_⟩⟩
      rw [hq]
      exact (Ring.contents_append_fill hp.rp hp.wp hroom hfill).symm
  · rw [hv.write_eq, List.take_zero, List.append_nil]
    exact ⟨hn, .inr ⟨hv, hq⟩⟩

theorem inv_read {size : Nat} (h : Inv n s) :
    Inv n {
      rb := (ringBufferRead s.rb dma size).2.2
      queue := s.queue.drop (ringBufferRead s.rb dma size).1.length } := by
  obtain ⟨hn, ⟨hp, hq⟩ | ⟨hv, hq⟩⟩ := h
  · obtain ⟨hbytes, hrb⟩ := hp.read_eq dma size
    rw [hbytes, hrb, hq]
    refine ⟨hn, .inl ⟨⟨hp.dmaId, hp.dmaType, Ring.add_mod_lt hp.rp, hp.wp⟩, ?_⟩⟩
    refine (Ring.contents_drop hp.rp hp.wp ?_).symm
    rw [List.length_take, Ring.contents_length]
    omega
  · rw [hv.read_eq, hq]
    exact ⟨hn, .inr ⟨hv, rfl⟩⟩

theorem inv_clear (h : Inv n s) : Inv n { rb := (ringBufferClear s.rb).2, queue := [] } := by
  obtain ⟨hn, ⟨hp, -⟩ | ⟨hv, -⟩⟩ := h
  · have hpos : 0 < s.rb.capacity := Nat.lt_of_le_of_lt (Nat.zero_le _) hp.rp
    exact ⟨hn, .inl ⟨⟨hp.dmaId, hp.dmaType, hpos, hpos⟩, ((Ring.contents_eq_nil hpos).2 rfl).symm⟩⟩
  · exact ⟨hn, .inr ⟨⟨hv.dmaId, hv.dmaType, hv.capacity, rfl, rfl⟩, rfl⟩⟩

theorem inv_step {c : RbCall} (h : Inv n s) (hok : s.LeavesRoom dma c) (hs : step dma s c = some t) : Inv n t := by
  cases c with
  | write data =>
    rw [step, Option.some.injEq] at hs
    exact hs ▸ inv_write h hok
  | read size =>
    rw [step, Option.some.injEq] at hs
    exact hs ▸ inv_read h
  | clear =>
    rw [step, Option.some.injEq] at hs
    exact hs ▸ inv_clear h

end RbSys

/-- As long as no write fills it to the last byte, a ring without DMA is a byte queue of the free capacity it reports.
-/
theorem ring_buffer_fifo (dma : RbDma) (address : Nat → BitVec 8) (capacity : Nat) {s : RbSys}
    (hrun : Run (RbSys.step dma) (RbSys.LeavesRoom dma) (RbSys.start address capacity) s) :
    ringBufferGetFillSize s.rb dma = s.queue.length ∧
    ringBufferGetFreeSize s.rb dma = capacity - s.queue.length ∧
    (∀ data, data.length ≤ ringBufferGetFreeSize s.rb dma → (ringBufferWrite s.rb dma data).1 = data.length) ∧
    (∀ data, ringBufferGetFreeSize s.rb dma < data.length → (ringBufferWrite s.rb dma data).1 = 0) ∧
    ∀ size, (ringBufferRead s.rb dma size).1 = s.queue.take size := by
  have hinv : RbSys.Inv capacity s :=
    hrun.invariant (RbSys.inv_start address capacity) fun _ _ _ _ hI hok hs => RbSys.inv_step hI hok hs
  obtain ⟨hn, ⟨hp, hq⟩ | ⟨hv, hq⟩⟩ := hinv
  · have hfill : ringBufferGetFillSize s.rb dma = s.queue.length := by rw [hp.fillSize, hq]
    have hlen : s.queue.length = Ring.count s.rb.capacity s.rb.rp s.rb.wp := by rw [hq, Ring.contents_length]
    have hlt := Ring.count_lt hp.rp hp.wp
    rw [freeSize_eq, hfill, hn]
    refine ⟨rfl, rfl, fun data hdata => ?_, fun data hdata => ?_, fun size => ?_⟩
    · by_cases h0 : data.length = 0
      · rw [h0, ringBufferWrite, if_pos h0]
      · obtain ⟨_, _, hret, _⟩ := hp.write_eq dma h0 (by omega)
        exact hret
    · rw [hp.write_eq_zero (by omega)]
    · rw [hq]
      exact (hp.read_eq dma size).1
  · have hfill : ringBufferGetFillSize s.rb dma = 0 := hv.fillSize
    have hcap : capacity = 0 := hn.symm.trans hv.capacity
    rw [freeSize_eq, hfill, hq, hn, hcap]
    refine ⟨rfl, rfl, fun data hdata => ?_, fun data _ => by rw [hv.write_eq], fun size => ?_⟩
    · rw [hv.write_eq]
      exact (Nat.le_zero.1 hdata).symm
    · rw [hv.read_eq, List.take_nil]

def RbDma.off : RbDma := ⟨false, 0, 0, false, false⟩

-- a ring of 4 bytes around its end: three in, two out, two in
theorem ring_buffer_fifo_run : ∃ s, Run (RbSys.step .off) (RbSys.LeavesRoom .off) (RbSys.start (fun _ => 0) 4) s ∧
    s.queue = [3, 4, 5] ∧ (ringBufferRead s.rb .off 2).1 = [3, 4] := by
  refine Run.of_exec_and [.write [1, 2, 3], .read 2, .write [4, 5]] (by decide) fun s hrun hq => ?_
  rw [(ring_buffer_fifo .off _ 4 hrun).2.2.2.2 2, hq]
  rfl

theorem ring_buffer_exact_fill : ∃ s, Run (RbSys.step .off) (fun _ _ => True) (RbSys.start (fun _ => 0) 4) s ∧
    s.queue = [1, 2, 3, 4] ∧ ringBufferGetFillSize s.rb .off = 0 ∧ (ringBufferRead s.rb .off 4).1 = [] :=
  Run.of_exec [.write [1, 2, 3, 4]] (by decide)

/-! ### The pause position of a DMA that writes -/

/-- How far it is from `wp` forward to `pos`; to `wp` itself it is a full turn. -/
def ringAhead (capacity wp pos : Nat) : Nat := if pos > wp then pos - wp else capacity - wp + pos

section
variable {rb : RingBufferContext} {size : Nat}

theorem copyOut_of_dma (rb : RingBufferContext) (size : Nat) (htype : rb.dmaType = .write) (hwp : rb.wp < rb.capacity) :
    ∃ bytes rp, rb.copyOut size = some (bytes, rp) ∧ rp < rb.capacity ∧
      (rb.wp = 0 → rb.rp < rb.capacity → 0 < size → (rp = 0 ↔ rb.capacity - rb.rp ≤ size)) := by
  have hmod : ∀ k, (rb.rp + k) % rb.capacity < rb.capacity := fun k => Nat.mod_lt _ (by omega)
  unfold RingBufferContext.copyOut
  by_cases hgt : rb.wp > rb.rp
  · rw [if_pos hgt]
    by_cases hmore : size > rb.wp - rb.rp
    · simp only [if_pos hmore]
      exact ⟨_, _, rfl, hmod _, fun h0 => by omega⟩
    · simp only [if_neg hmore]
      exact ⟨_, _, rfl, hmod _, fun h0 => by omega⟩
  · rw [if_neg hgt, if_neg (fun he => he.2 htype)]
    by_cases hmore : size > rb.capacity - rb.rp
    · simp only [if_pos hmore]
      by_cases hwrap : size - (rb.capacity - rb.rp) > rb.wp
      · simp only [if_pos hwrap]
        exact ⟨_, _, rfl, hwp, fun h0 _ _ => by omega⟩
      · simp only [if_neg hwrap]
        exact ⟨_, _, rfl, by omega, fun h0 _ _ => by omega⟩
    · simp only [if_neg hmore]
      refine ⟨_, _, rfl, hmod _, fun _ hrp hpos => ?_⟩
      by_cases hend : rb.rp + size = rb.capacity
      · rw [hend, Nat.mod_self]
        omega
      · rw [Nat.mod_eq_of_lt (by omega)]
        omega

end

/-- The pause position of a read lies in the buffer and is met no later than the new read position, exactly unless the
DMA stands at the start and the read reaches the end. -/
theorem ring_buffer_read_pause (rb : RingBufferContext) (dma : RbDma) (size : Nat) (hdma : rb.HasDma .write)
    (hwp : dma.writePos < rb.capacity) (hwp4 : 4 ∣ dma.writePos) (hrp : rb.rp < rb.capacity) (hsize : 0 < size) :
    (∃ pause, (ringBufferRead rb dma size).2.1 = some pause ∧ pause < rb.capacity ∧
      ringAhead rb.capacity dma.writePos pause ≤
        ringAhead rb.capacity dma.writePos (ringBufferRead rb dma size).2.2.rp) ↔
    0 < dma.writePos ∨ size < rb.capacity - rb.rp := by
  have hsync : rb.syncWp dma = { rb with wp := dma.writePos } := if_pos hdma
  obtain ⟨bytes, rp, hcopy, hlt, hstart⟩ :=
    copyOut_of_dma { rb with wp := dma.writePos } size hdma.2 hwp
  rw [ringBufferRead_some (Nat.pos_iff_ne_zero.1 hsize) (by rw [hsync, hcopy]), hsync,
    if_pos (show RingBufferContext.HasDma { rb with wp := dma.writePos } .write from hdma)]
  have hdrained : dma.writePos = 0 → (rp = 0 ↔ rb.capacity - rb.rp ≤ size) := fun h0 => hstart h0 hrp hsize
  by_cases he : rp = dma.writePos
  · -- the ring is drained: there is a word before the DMA unless it is at the start
    by_cases h4 : dma.writePos ≥ 4
    · simp only [RingBufferContext.pausePtr, if_pos he, if_pos h4, ringAhead]
      refine iff_of_true ⟨_, rfl, by omega, ?_⟩ (by omega)
      rw [if_neg (by omega), if_neg (by omega)]
      omega
    · have h0 : dma.writePos = 0 := by omega
      have hfull := (hdrained h0).1 (he.trans h0)
      simp only [RingBufferContext.pausePtr, if_pos he, if_neg h4]
      refine iff_of_false ?_ (by omega)
      rintro ⟨pause, hpause, hin, -⟩
      cases hpause
      omega
  · simp only [RingBufferContext.pausePtr, if_neg he]
    refine iff_of_true ⟨_, rfl, hlt, Nat.le_refl _⟩ ?_
    by_contra hcond
    have h0 : dma.writePos = 0 := by omega
    exact he (((hdrained h0).2 (by omega)).trans h0.symm)

theorem ring_buffer_read_pause_drained : ∃ pause,
    (ringBufferRead ⟨fun _ => 0, 16, 0, 4, 3, .write⟩ ⟨true, 8, 0, false, false⟩ 4).2.1 = some pause ∧ pause < 16 := by
  obtain ⟨pause, hread, hlt, -⟩ := (ring_buffer_read_pause ⟨fun _ => 0, 16, 0, 4, 3, .write⟩ ⟨true, 8, 0,
    false, false⟩ 4
    (by decide) (by decide) (by decide) (by decide) (by decide)).2 (by decide)
  exact ⟨pause, hread, hlt⟩

/-- The DMA is at position 0 and the last word is read: the pause position is 4 past the end. -/
theorem ring_buffer_pause_outside :
    (ringBufferRead ⟨fun _ => 0, 16, 0, 12, 3, .write⟩ ⟨true, 0, 0, false, false⟩ 4).2.1 = some 20 := by
  decide

end Bk7258

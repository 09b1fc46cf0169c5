import Mathlib.Algebra.Group.Nat.Defs
import Bk7258.Lib.Lts
import Bk7258.Lib.Ring

/-!
# The kfifo of `bk_fifo.h`

`in` and `out` are 32-bit counters that run on and wrap by themselves; the position in the buffer is the counter masked
with `size - 1`, which is the counter modulo `size` only when `size` is a power of two. `kfifo_alloc` says that it
rounds the size up but takes it as it is.
-/

namespace Bk7258

open Lts

structure Kfifo where
  inCnt : BitVec 32
  outCnt : BitVec 32
  mask : BitVec 32
  size : BitVec 32
  buffer : Nat → BitVec 8

def uintMin (a b : BitVec 32) : BitVec 32 := if a < b then a else b

def kfifoInit (memOk : Bool) (buffer : Nat → BitVec 8) (size : BitVec 32) : Option Kfifo :=
  if memOk then some { inCnt := 0, outCnt := 0, mask := size - 1, size, buffer } else none

def kfifoAlloc (bufOk memOk : Bool) (size : BitVec 32) : Option Kfifo :=
  if bufOk then kfifoInit memOk (fun _ => 0) size else none

def kfifoPut (fifo : Kfifo) (buffer : Nat → BitVec 8) (len : BitVec 32) : BitVec 32 × Kfifo :=
  let len := uintMin len (fifo.size - fifo.inCnt + fifo.outCnt)
  let pos := fifo.inCnt &&& (fifo.size - 1)
  -- first from `in` to the end of the buffer, then the rest from its start
  let l := uintMin len (fifo.size - pos)
  let first := Ring.put fifo.buffer pos.toNat (Ring.slice buffer 0 l.toNat)
  (len, { fifo with buffer := Ring.put first 0 (Ring.slice buffer l.toNat (len - l).toNat), inCnt := fifo.inCnt + len })

def kfifoGet (fifo : Kfifo) (len : BitVec 32) : List (BitVec 8) × Kfifo :=
  let len := uintMin len (fifo.inCnt - fifo.outCnt)
  let pos := fifo.outCnt &&& (fifo.size - 1)
  let l := uintMin len (fifo.size - pos)
  let bytes := Ring.slice fifo.buffer pos.toNat l.toNat ++ Ring.slice fifo.buffer 0 (len - l).toNat
  let out := fifo.outCnt + len
  -- an emptied kfifo starts again at the beginning of the buffer
  (bytes, if out = fifo.inCnt then { fifo with inCnt := 0, outCnt := 0 } else { fifo with outCnt := out })

def kfifoDataSize (fifo : Kfifo) : BitVec 32 := fifo.inCnt - fifo.outCnt

def kfifoUnused (fifo : Kfifo) : BitVec 32 := (fifo.mask + 1) - (fifo.inCnt - fifo.outCnt)

def kfifoCopyOut (fifo : Kfifo) (len off : BitVec 32) : List (BitVec 8) :=
  let size := fifo.mask + 1
  let off := off &&& fifo.mask
  let l := uintMin len (size - off)
  Ring.slice fifo.buffer off.toNat l.toNat ++ Ring.slice fifo.buffer 0 (len - l).toNat

def kfifoOutPeek (fifo : Kfifo) (len : BitVec 32) : List (BitVec 8) :=
  let l := fifo.inCnt - fifo.outCnt
  kfifoCopyOut fifo (if len > l then l else len) fifo.outCnt

/-! ### A size that is a power of two -/

theorem toNat_uintMin (a b : BitVec 32) : (uintMin a b).toNat = min a.toNat b.toNat := by
  unfold uintMin
  by_cases h : a < b
  · rw [if_pos h, Nat.min_eq_left (Nat.le_of_lt (BitVec.lt_def.1 h))]
  · rw [if_neg h, Nat.min_eq_right (Nat.not_lt.1 fun hlt => h (BitVec.lt_def.2 hlt))]

theorem kfifoGet_length (fifo : Kfifo) (len : BitVec 32) :
    (kfifoGet fifo len).1.length = min len.toNat (fifo.inCnt - fifo.outCnt).toNat := by
  simp only [kfifoGet, List.length_append, Ring.slice_length]
  rw [← toNat_uintMin]
  generalize uintMin len (fifo.inCnt - fifo.outCnt) = n
  have hle := toNat_uintMin n (fifo.size - (fifo.outCnt &&& (fifo.size - 1)))
  bv_omega

/-- The kfifo has `2 ^ k` cells and holds `queue`, the window of the ring from `out` on. -/
structure Kfifo.Holds (k : Nat) (fifo : Kfifo) (queue : List (BitVec 8)) : Prop where
  size : fifo.size.toNat = 2 ^ k
  mask : fifo.mask = fifo.size - 1
  fill : (fifo.inCnt - fifo.outCnt).toNat = queue.length
  fits : queue.length ≤ 2 ^ k
  window : Ring.window fifo.buffer (2 ^ k) fifo.outCnt.toNat queue.length = queue

namespace Kfifo.Holds

variable {k : Nat} {fifo : Kfifo} {queue : List (BitVec 8)} (h : fifo.Holds k queue)
include h

theorem lt : k < 32 := by
  have hlt := fifo.size.isLt
  rw [h.size] at hlt
  exact (Nat.pow_lt_pow_iff_right (by decide)).1 hlt

theorem size_dvd : 2 ^ k ∣ 2 ^ 32 := Nat.pow_dvd_pow 2 (Nat.le_of_lt h.lt)

theorem size_le : 2 ^ k ≤ 2 ^ 31 := Nat.pow_le_pow_right (by decide) (Nat.lt_succ_iff.1 h.lt)

theorem masked (x : BitVec 32) : (x &&& (fifo.size - 1)).toNat = x.toNat % 2 ^ k := by
  have hpos := Nat.two_pow_pos k
  have hsub : (fifo.size - 1).toNat = 2 ^ k - 1 := by
    have hsize := h.size
    bv_omega
  rw [BitVec.toNat_and, hsub, Nat.and_two_pow_sub_one_eq_mod]

theorem inCnt_mod : fifo.inCnt.toNat % 2 ^ k = (fifo.outCnt.toNat + queue.length) % 2 ^ k := by
  have hin : fifo.inCnt.toNat = (fifo.outCnt.toNat + queue.length) % 2 ^ 32 := by
    have hfill := h.fill
    bv_omega
  rw [hin, Nat.mod_mod_of_dvd _ h.size_dvd]

theorem unused : (fifo.size - fifo.inCnt + fifo.outCnt).toNat = 2 ^ k - queue.length := by
  have hfill := h.fill
  have hsize := h.size
  have hfits := h.fits
  have hle := h.size_le
  bv_omega

theorem parts (x len : BitVec 32) :
    (uintMin len (fifo.size - (x &&& (fifo.size - 1)))).toNat = min len.toNat (2 ^ k - x.toNat % 2 ^ k) ∧
    (len - uintMin len (fifo.size - (x &&& (fifo.size - 1)))).toNat =
      len.toNat - min len.toNat (2 ^ k - x.toNat % 2 ^ k) := by
  have hpos : (x &&& (fifo.size - 1)).toNat < fifo.size.toNat := by
    rw [h.masked, h.size]
    exact Nat.mod_lt _ (Nat.two_pow_pos k)
  have hrest : (fifo.size - (x &&& (fifo.size - 1))).toNat = 2 ^ k - x.toNat % 2 ^ k := by
    rw [BitVec.toNat_sub_of_le (BitVec.le_def.2 (Nat.le_of_lt hpos)), h.masked, h.size]
  have hl := toNat_uintMin len (fifo.size - (x &&& (fifo.size - 1)))
  rw [hrest] at hl
  refine ⟨hl, ?_⟩
  rw [BitVec.toNat_sub_of_le (BitVec.le_def.2 (hl ▸ Nat.min_le_left _ _)), hl]

theorem copy {len : BitVec 32} (hlen : len.toNat ≤ queue.length) :
    Ring.slice fifo.buffer (fifo.outCnt &&& (fifo.size - 1)).toNat
        (uintMin len (fifo.size - (fifo.outCnt &&& (fifo.size - 1)))).toNat ++
      Ring.slice fifo.buffer 0 (len - uintMin len (fifo.size - (fifo.outCnt &&& (fifo.size - 1)))).toNat =
    queue.take len.toNat := by
  obtain ⟨hl, hrest⟩ := h.parts fifo.outCnt len
  have hpos := Nat.mod_lt fifo.outCnt.toNat (Nat.two_pow_pos k)
  rw [hl, hrest, h.masked, Ring.slice_slice_min_eq_window hpos (Nat.le_trans hlen h.fits), Ring.window_mod,
    ← Ring.window_take hlen, h.window]

theorem copyOut {len : BitVec 32} (hlen : len.toNat ≤ queue.length) :
    kfifoCopyOut fifo len fifo.outCnt = queue.take len.toNat := by
  have hmask : fifo.mask + 1 = fifo.size := by
    rw [h.mask]
    bv_omega
  rw [← h.copy hlen]
  simp only [kfifoCopyOut]
  rw [hmask, h.mask]

theorem outPeek (len : BitVec 32) : kfifoOutPeek fifo len = queue.take len.toNat := by
  have hfill := h.fill
  unfold kfifoOutPeek
  by_cases hgt : len > fifo.inCnt - fifo.outCnt
  · have hle : queue.length ≤ len.toNat := by
      rw [← hfill]
      exact Nat.le_of_lt (BitVec.lt_def.1 hgt)
    simp only [if_pos hgt]
    rw [h.copyOut (Nat.le_of_eq hfill), hfill, List.take_length, List.take_of_length_le hle]
  · simp only [if_neg hgt]
    refine h.copyOut ?_
    rw [← hfill]
    exact Nat.not_lt.1 fun hlt => hgt (BitVec.lt_def.2 hlt)

theorem get_fst (len : BitVec 32) : (kfifoGet fifo len).1 = queue.take len.toNat := by
  have hlen : (uintMin len (fifo.inCnt - fifo.outCnt)).toNat = min len.toNat queue.length := by
    rw [toNat_uintMin, h.fill]
  have hle : (uintMin len (fifo.inCnt - fifo.outCnt)).toNat ≤ queue.length := hlen ▸ Nat.min_le_right _ _
  have hcopy := h.copy hle
  rw [hlen, ← List.take_eq_take_min] at hcopy
  exact hcopy

theorem get_snd (len : BitVec 32) : (kfifoGet fifo len).2.Holds k (queue.drop len.toNat) := by
  have hlen : (uintMin len (fifo.inCnt - fifo.outCnt)).toNat = min len.toNat queue.length := by
    rw [toNat_uintMin, h.fill]
  have hfill := h.fill
  have hfits := h.fits
  have hsize := h.size_le
  simp only [kfifoGet]
  generalize uintMin len (fifo.inCnt - fifo.outCnt) = n at hlen
  have hdrop : queue.drop len.toNat = queue.drop n.toNat := by
    rw [hlen]
    exact List.drop_eq_drop_min
  have hrest : (fifo.inCnt - (fifo.outCnt + n)).toNat = (queue.drop n.toNat).length := by
    rw [List.length_drop]
    bv_omega
  rw [hdrop]
  by_cases hempty : fifo.outCnt + n = fifo.inCnt
  · -- both counters go back to 0, and nothing is left
    rw [if_pos hempty]
    have hnil : queue.drop n.toNat = [] := by
      rw [← List.length_eq_zero_iff, ← hrest, hempty]
      simp
    rw [hnil]
    exact ⟨h.size, h.mask, by simp, Nat.zero_le _, rfl⟩
  · rw [if_neg hempty]
    refine ⟨h.size, h.mask, hrest, ?_, ?_⟩
    · rw [List.length_drop]
      omega
    · have hout : (fifo.outCnt + n).toNat % 2 ^ k = (fifo.outCnt.toNat + n.toNat) % 2 ^ k := by
        rw [BitVec.toNat_add, Nat.mod_mod_of_dvd _ h.size_dvd]
      show Ring.window fifo.buffer (2 ^ k) (fifo.outCnt + n).toNat _ = _
      rw [← Ring.window_mod, hout, Ring.window_mod, List.length_drop, ← Ring.window_drop (by omega), h.window]

theorem put_fst (buffer : Nat → BitVec 8) (len : BitVec 32) :
    (kfifoPut fifo buffer len).1.toNat = min len.toNat (2 ^ k - queue.length) := by
  simp only [kfifoPut]
  rw [toNat_uintMin, h.unused]

theorem put_snd (buffer : Nat → BitVec 8) (len : BitVec 32) :
    (kfifoPut fifo buffer len).2.Holds k (queue ++ Ring.slice buffer 0 (kfifoPut fifo buffer len).1.toNat) := by
  have hlen := h.put_fst buffer len
  have hfill := h.fill
  have hfits := h.fits
  have hsize := h.size_le
  have hpos := Nat.mod_lt fifo.inCnt.toNat (Nat.two_pow_pos k)
  simp only [kfifoPut] at hlen ⊢
  generalize uintMin len (fifo.size - fifo.inCnt + fifo.outCnt) = n at hlen
  obtain ⟨hl, hrest⟩ := h.parts fifo.inCnt n
  have hin : (fifo.inCnt + n - fifo.outCnt).toNat = (queue ++ Ring.slice buffer 0 n.toNat).length := by
    rw [List.length_append, Ring.slice_length]
    bv_omega
  refine ⟨h.size, h.mask, hin, ?_, ?_⟩
  · rw [List.length_append, Ring.slice_length]
    omega
  · rw [List.length_append]
    show Ring.window _ (2 ^ k) fifo.outCnt.toNat _ = _
    rw [← Ring.window_mod, Ring.window_fill fifo.buffer (Nat.mod_lt _ (Nat.two_pow_pos k))
      (by rw [Ring.slice_length]; omega),
      Ring.window_mod, h.window]
    intro c hc
    rw [Nat.mod_add_mod, ← h.inCnt_mod, ← Ring.put_slices_eq_fill hpos (by omega) hc, h.masked, hl, hrest]

end Kfifo.Holds

/-! ### Runs of puts, gets and peeks -/

inductive KfifoCall
  | put (buffer : Nat → BitVec 8) (len : BitVec 32)
  | get (len : BitVec 32)
  | peek (len : BitVec 32)

structure KfifoSys where
  fifo : Kfifo
  queue : List (BitVec 8)

namespace KfifoSys

def step (s : KfifoSys) : KfifoCall → Option KfifoSys
  | .put buffer len =>
    some { fifo := (kfifoPut s.fifo buffer len).2
           queue := s.queue ++ Ring.slice buffer 0 (kfifoPut s.fifo buffer len).1.toNat }
  | .get len => some { fifo := (kfifoGet s.fifo len).2, queue := s.queue.drop (kfifoGet s.fifo len).1.length }
  | .peek _ => some s

theorem holds_step {k : Nat} {s t : KfifoSys} {c : KfifoCall} (h : s.fifo.Holds k s.queue) (hs : s.step c = some t) :
    t.fifo.Holds k t.queue := by
  cases c with
  | put buffer len =>
    rw [step, Option.some.injEq] at hs
    exact hs ▸ h.put_snd buffer len
  | get len =>
    rw [step, Option.some.injEq, h.get_fst, List.length_take, ← List.drop_eq_drop_min] at hs
    exact hs ▸ h.get_snd len
  | peek len =>
    rw [step, Option.some.injEq] at hs
    exact hs ▸ h

end KfifoSys

theorem kfifoAlloc_holds {k : Nat} {size : BitVec 32} {fifo : Kfifo} (hsize : size.toNat = 2 ^ k)
    (halloc : kfifoAlloc true true size = some fifo) : fifo.Holds k [] := by
  cases halloc
  exact ⟨hsize, rfl, by simp, Nat.zero_le _, rfl⟩

/-- A kfifo of a power of two is, over every run, a byte queue of that capacity. -/
theorem kfifo_queue {k : Nat} {size : BitVec 32} {fifo : Kfifo} (hsize : size.toNat = 2 ^ k)
    (halloc : kfifoAlloc true true size = some fifo) {s : KfifoSys}
    (hrun : Run KfifoSys.step (fun _ _ => True) { fifo, queue := [] } s) :
    s.queue.length ≤ size.toNat ∧
    (∀ buffer len, (kfifoPut s.fifo buffer len).1.toNat = min len.toNat (size.toNat - s.queue.length)) ∧
    (∀ len, (kfifoGet s.fifo len).1 = s.queue.take len.toNat) ∧
    ∀ len, kfifoOutPeek s.fifo len = s.queue.take len.toNat := by
  have h : s.fifo.Holds k s.queue :=
    hrun.invariant (I := fun t => t.fifo.Holds k t.queue) (kfifoAlloc_holds hsize halloc)
      fun _ _ _ _ hI _ hs => KfifoSys.holds_step hI hs
  rw [hsize]
  exact ⟨h.fits, h.put_fst, h.get_fst, h.outPeek⟩

def bytesAt (data : List (BitVec 8)) : Nat → BitVec 8 := fun i => data.getD i 0

-- two bytes in a kfifo of two, then a third around the end
theorem kfifo_queue_two : ∃ fifo s, kfifoAlloc true true 2 = some fifo ∧
    Run KfifoSys.step (fun _ _ => True) { fifo, queue := [] } s ∧ s.queue = [2, 3] ∧
      (kfifoGet s.fifo 2).1 = [2, 3] := by
  obtain ⟨s, hrun, hq⟩ : ∃ s, Run KfifoSys.step (fun _ _ => True)
      { fifo := ⟨0, 0, 1, 2, fun _ => 0⟩, queue := [] } s ∧ s.queue = [2, 3] :=
    Run.of_exec [.put (bytesAt [1, 2]) 2, .get 1, .put (bytesAt [3, 4]) 2] (by decide)
  have halloc : kfifoAlloc true true 2 = some ⟨0, 0, 1, 2, fun _ => 0⟩ := rfl
  have hget := (kfifo_queue (k := 1) rfl halloc hrun).2.2.1 2
  rw [hq] at hget
  exact ⟨_, s, halloc, hrun, hq, hget⟩

theorem kfifo_size_three : ∃ fifo s, kfifoAlloc true true 3 = some fifo ∧
    Run KfifoSys.step (fun _ _ => True) { fifo, queue := [] } s ∧ s.queue = [2, 3] ∧ (kfifoGet s.fifo 1).1 = [1] := by
  obtain ⟨s, hrun, hs⟩ : ∃ s, Run KfifoSys.step (fun _ _ => True)
      { fifo := ⟨0, 0, 2, 3, fun _ => 0⟩, queue := [] } s ∧ s.queue = [2, 3] ∧ (kfifoGet s.fifo 1).1 = [1] :=
    Run.of_exec [.put (bytesAt [1, 2, 3]) 3, .get 1] (by decide)
  exact ⟨_, s, rfl, hrun, hs⟩

end Bk7258

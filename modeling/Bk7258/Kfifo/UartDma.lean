import Bk7258.Kfifo.Queue

/-!
# A UART receive FIFO filled by DMA

The DMA stores the received bytes in the buffer of the kfifo by itself; `uart_id_dma_read_fifo_frame` moves `in`
afterwards. It takes the free space of the kfifo for the length it had programmed, which bytes read in the meantime make
larger, and masks `in`, which the kfifo functions let run on.
-/

namespace Bk7258

open Lts

structure UartRxDma where
  fifo : Kfifo
  destStartAddr : Nat
  transferLen : Nat
  started : Bool
  stored : Nat
  rxEnable : Bool

def uartRxDmaInit (fifo : Kfifo) : UartRxDma :=
  { fifo, destStartAddr := 0, transferLen := fifo.size.toNat, started := true, stored := 0, rxEnable := true }

/-- One byte from the line; the DMA goes around the end of the buffer. -/
def dmaStore (u : UartRxDma) (byte : BitVec 8) : Option UartRxDma :=
  if u.started = true ∧ u.stored < u.transferLen then
    some { u with
      fifo := { u.fifo with
        buffer := Function.update u.fifo.buffer ((u.destStartAddr + u.stored) % u.fifo.size.toNat) byte }
      stored := u.stored + 1 }
  else none

/-- The length the handler takes for transferred: the free space less what the DMA has left -/
def UartRxDma.actualTransLen (u : UartRxDma) : BitVec 16 :=
  let dmaRemainLength : BitVec 16 := BitVec.ofNat 16 (u.transferLen - u.stored)
  let beforeKfifoUnusedSize := (kfifoUnused u.fifo).toInt
  if beforeKfifoUnusedSize > 0 then BitVec.ofInt 16 (beforeKfifoUnusedSize - dmaRemainLength.toNat) else 0

def kfifoAdvance (fifo : Kfifo) (len : BitVec 16) : Kfifo :=
  { fifo with inCnt := (fifo.inCnt + len.setWidth 32) &&& fifo.mask }

def uartIdDmaReadFifoFrame (u : UartRxDma) : Option (BitVec 16 × UartRxDma) :=
  if u.actualTransLen.toNat > u.fifo.size.toNat then none
  else
    let fifo := kfifoAdvance u.fifo u.actualTransLen
    let afterKfifoUnusedSize := (kfifoUnused fifo).toInt
    some (u.actualTransLen,
      if afterKfifoUnusedSize > 0 then
        { u with
          fifo
          destStartAddr := fifo.inCnt.toNat
          transferLen := afterKfifoUnusedSize.toNat
          started := true
          stored := 0 }
      -- the software FIFO is full
      else { u with fifo, started := false, rxEnable := false })

/-- `bk_uart_read_bytes` with the software FIFO; `none` while it waits for data. -/
def bkUartReadBytes (u : UartRxDma) (size : BitVec 32) : Option (List (BitVec 8) × UartRxDma) :=
  let kfifoDataLen := kfifoDataSize u.fifo
  if kfifoDataLen = 0 then none
  else if size ≥ kfifoDataLen then
    some ((kfifoGet u.fifo kfifoDataLen).1,
      { fifo := (kfifoGet u.fifo kfifoDataLen).2, destStartAddr := 0, transferLen := u.fifo.size.toNat, started := true
        stored := 0, rxEnable := true })
  else some ((kfifoGet u.fifo size).1, { u with fifo := (kfifoGet u.fifo size).2 })

/-! ### Runs, with the bytes stored and not yet read -/

inductive UartRxAct
  | store (byte : BitVec 8)
  | handler
  | read (size : BitVec 32)
deriving DecidableEq

structure UartRxSys where
  rx : UartRxDma
  waiting : Nat
  readSince : Nat

namespace UartRxSys

def start (fifo : Kfifo) : UartRxSys := { rx := uartRxDmaInit fifo, waiting := 0, readSince := 0 }

def step (s : UartRxSys) : UartRxAct → Option UartRxSys
  | .store byte => (dmaStore s.rx byte).map fun rx => { s with rx, waiting := s.waiting + 1 }
  | .handler => (uartIdDmaReadFifoFrame s.rx).map fun r => { s with rx := r.2, readSince := 0 }
  | .read size => (bkUartReadBytes s.rx size).map fun r =>
      { rx := r.2, waiting := s.waiting - r.1.length, readSince := s.readSince + r.1.length }

def ShortRead (s : UartRxSys) : UartRxAct → Prop
  | .read size => size ≠ 0 ∧ (bkUartReadBytes s.rx size).all (fun r => decide (r.1.length < s.waiting)) = true
  | _ => True

instance (s : UartRxSys) : (a : UartRxAct) → Decidable (s.ShortRead a)
  | .read _ => inferInstanceAs (Decidable (_ ∧ _))
  | .store _ => inferInstanceAs (Decidable True)
  | .handler => inferInstanceAs (Decidable True)

/-- And the handler runs with nothing read since it last ran, and with `in` staying below the end of the buffer. -/
def Counted (s : UartRxSys) (a : UartRxAct) : Prop :=
  s.ShortRead a ∧ (a = .handler → s.readSince = 0 ∧ s.rx.fifo.inCnt.toNat + s.rx.stored < s.rx.fifo.size.toNat)

instance (s : UartRxSys) (a : UartRxAct) : Decidable (s.Counted a) := inferInstanceAs (Decidable (_ ∧ _))

end UartRxSys

/-! ### What there is between two runs of the handler -/

theorem two_pow_le {k : Nat} (hk : k ≤ 15) : 2 ^ k ≤ 2 ^ 15 := Nat.pow_le_pow_right (by decide) hk

theorem kfifoUnused_toInt {k : Nat} {fifo : Kfifo} (hk : k ≤ 15) (hsize : fifo.size.toNat = 2 ^ k)
    (hmask : fifo.mask = fifo.size - 1) (hout : fifo.outCnt.toNat ≤ fifo.inCnt.toNat) (hin : fifo.inCnt.toNat ≤ 2 ^ k) :
    (kfifoUnused fifo).toInt = ((2 ^ k - fifo.inCnt.toNat + fifo.outCnt.toNat : Nat) : Int) := by
  have hle := two_pow_le hk
  have hnat : (kfifoUnused fifo).toNat = 2 ^ k - fifo.inCnt.toNat + fifo.outCnt.toNat := by
    unfold kfifoUnused
    rw [hmask]
    bv_omega
  rw [BitVec.toInt_eq_toNat_of_lt (by omega), hnat]

theorem kfifoAdvance_inCnt {k n : Nat} {fifo : Kfifo} (hk : k ≤ 15) (hsize : fifo.size.toNat = 2 ^ k)
    (hmask : fifo.mask = fifo.size - 1) (hin : fifo.inCnt.toNat < 2 ^ k) (hn : n ≤ 2 ^ k) :
    (kfifoAdvance fifo (BitVec.ofNat 16 n)).inCnt.toNat = (fifo.inCnt.toNat + n) % 2 ^ k := by
  have hle := two_pow_le hk
  have hsub : (fifo.size - 1).toNat = 2 ^ k - 1 := by
    have hpos := Nat.two_pow_pos k
    bv_omega
  simp only [kfifoAdvance]
  rw [hmask, BitVec.toNat_and, hsub, Nat.and_two_pow_sub_one_eq_mod, BitVec.toNat_add, BitVec.toNat_setWidth,
    BitVec.toNat_ofNat, Nat.mod_eq_of_lt (by omega : n < 2 ^ 16), Nat.mod_eq_of_lt (by omega : n < 2 ^ 32),
    Nat.mod_eq_of_lt (by omega : fifo.inCnt.toNat + n < 2 ^ 32)]

/-- `r` bytes have been read since the handler last ran, fewer than were in the kfifo: `w` are left of those before `in`
and those the DMA has added. -/
structure UartRxDma.Filling (k : Nat) (u : UartRxDma) (w r : Nat) : Prop where
  size : u.fifo.size.toNat = 2 ^ k
  mask : u.fifo.mask = u.fifo.size - 1
  outCnt : u.fifo.outCnt.toNat = r
  unread : r = 0 ∨ r < u.fifo.inCnt.toNat
  inCnt : u.fifo.inCnt.toNat < 2 ^ k
  transferLen : u.transferLen = 2 ^ k - u.fifo.inCnt.toNat
  stored : u.stored ≤ u.transferLen
  waiting : w + r = u.fifo.inCnt.toNat + u.stored

/-- A read has taken all the kfifo held and sent the DMA back to the start, over bytes nobody had counted. -/
structure UartRxDma.Drained (k : Nat) (u : UartRxDma) (w r : Nat) : Prop where
  size : u.fifo.size.toNat = 2 ^ k
  mask : u.fifo.mask = u.fifo.size - 1
  outCnt : u.fifo.outCnt = 0#32
  inCnt : u.fifo.inCnt = 0#32
  transferLen : u.transferLen = 2 ^ k
  stored : u.stored ≤ u.transferLen
  lost : u.stored < w
  read : 0 < r

theorem dmaStore_eq {u v : UartRxDma} {byte : BitVec 8} (hs : dmaStore u byte = some v) : u.stored < u.transferLen ∧
    v = { u with
      fifo := { u.fifo with
        buffer := Function.update u.fifo.buffer ((u.destStartAddr + u.stored) % u.fifo.size.toNat) byte }
      stored := u.stored + 1 } := by
  unfold dmaStore at hs
  by_cases hroom : u.started ∧ u.stored < u.transferLen
  · rw [if_pos hroom, Option.some.injEq] at hs
    exact ⟨hroom.2, hs.symm⟩
  · rw [if_neg hroom] at hs
    cases hs

theorem kfifoGet_all (fifo : Kfifo) : (kfifoGet fifo (kfifoDataSize fifo)).1.length = (kfifoDataSize fifo).toNat ∧
    (kfifoGet fifo (kfifoDataSize fifo)).2 = { fifo with inCnt := 0, outCnt := 0 } := by
  have hmin : uintMin (kfifoDataSize fifo) (fifo.inCnt - fifo.outCnt) = fifo.inCnt - fifo.outCnt := by
    refine BitVec.eq_of_toNat_eq ?_
    rw [toNat_uintMin]
    exact Nat.min_self _
  refine ⟨(kfifoGet_length fifo _).trans (Nat.min_self _), ?_⟩
  simp only [kfifoGet, hmin]
  exact if_pos (by bv_omega)

theorem kfifoGet_less {fifo : Kfifo} {len : BitVec 32} (h : len.toNat < (kfifoDataSize fifo).toNat) :
    (kfifoGet fifo len).1.length = len.toNat ∧ (kfifoGet fifo len).2 = { fifo with outCnt := fifo.outCnt + len } := by
  have hmin : uintMin len (fifo.inCnt - fifo.outCnt) = len := by
    refine BitVec.eq_of_toNat_eq ?_
    rw [toNat_uintMin]
    exact Nat.min_eq_left (Nat.le_of_lt h)
  refine ⟨(kfifoGet_length fifo len).trans (Nat.min_eq_left (Nat.le_of_lt h)), ?_⟩
  unfold kfifoDataSize at h
  simp only [kfifoGet, hmin]
  exact if_neg (by bv_omega)

namespace UartRxDma.Filling

variable {k w r : Nat} {u v : UartRxDma}

theorem start {size : BitVec 32} {fifo : Kfifo} (hsize : size.toNat = 2 ^ k)
    (halloc : kfifoAlloc true true size = some fifo) : (uartRxDmaInit fifo).Filling k 0 0 := by
  cases halloc
  exact ⟨hsize, rfl, rfl, .inl rfl, Nat.two_pow_pos k, hsize, Nat.zero_le _, rfl⟩

theorem store (h : u.Filling k w r) {byte : BitVec 8} (hs : dmaStore u byte = some v) : v.Filling k (w + 1) r := by
  obtain ⟨hroom, rfl⟩ := dmaStore_eq hs
  have hw := h.waiting
  exact ⟨h.size, h.mask, h.outCnt, h.unread, h.inCnt, h.transferLen, hroom, by
    show w + 1 + r = u.fifo.inCnt.toNat + (u.stored + 1)
    omega⟩

theorem dataSize (h : u.Filling k w r) : (kfifoDataSize u.fifo).toNat = u.fifo.inCnt.toNat - r := by
  have hout := h.outCnt
  have hunread := h.unread
  unfold kfifoDataSize
  bv_omega

theorem read (h : u.Filling k w r) {size : BitVec 32} {x : List (BitVec 8) × UartRxDma} (h0 : size ≠ 0)
    (hr : bkUartReadBytes u size = some x) (hw : x.1.length < w) :
    x.2.Filling k (w - x.1.length) (r + x.1.length) ∨ x.2.Drained k (w - x.1.length) (r + x.1.length) := by
  have hdata := h.dataSize
  have hout := h.outCnt
  have hin := h.inCnt
  have hunread := h.unread
  have hsize : 0 < size.toNat := by bv_omega
  have hwaiting := h.waiting
  unfold bkUartReadBytes at hr
  by_cases hempty : kfifoDataSize u.fifo = 0
  · rw [if_pos hempty] at hr
    cases hr
  · rw [if_neg hempty] at hr
    have hpos : 0 < u.fifo.inCnt.toNat - r := by bv_omega
    by_cases hall : size ≥ kfifoDataSize u.fifo
    · -- all the kfifo held: the counters go back to 0
      rw [if_pos hall, Option.some.injEq] at hr
      obtain ⟨hlen, hreset⟩ := kfifoGet_all u.fifo
      rw [hdata] at hlen
      subst hr
      simp only [hlen] at hw ⊢
      rw [hreset]
      exact .inr ⟨h.size, h.mask, rfl, rfl, h.size, Nat.zero_le _, by show 0 < _; omega, by omega⟩
    · rw [if_neg hall, Option.some.injEq] at hr
      have hless : size.toNat < u.fifo.inCnt.toNat - r := by
        rw [← hdata]
        exact Nat.not_le.1 fun hle => hall (BitVec.le_def.2 hle)
      obtain ⟨hlen, hmove⟩ := kfifoGet_less (hdata ▸ hless)
      subst hr
      simp only [hlen] at hw ⊢
      rw [hmove]
      exact .inl ⟨h.size, h.mask, by bv_omega, .inr (by show _ < u.fifo.inCnt.toNat; omega), h.inCnt,
        h.transferLen, h.stored,
        by show _ = u.fifo.inCnt.toNat + u.stored; omega⟩

variable (hk : k ≤ 15) (h : u.Filling k w r)
include hk h

theorem actualTransLen : u.actualTransLen = BitVec.ofNat 16 (u.stored + r) ∧ u.stored + r ≤ 2 ^ k := by
  have hle := two_pow_le hk
  have hlen := h.transferLen
  have hin := h.inCnt
  have hout := h.outCnt
  have hunread := h.unread
  have hstored := h.stored
  have hbefore := kfifoUnused_toInt hk h.size h.mask (by omega) (Nat.le_of_lt h.inCnt)
  have hremain : (BitVec.ofNat 16 (u.transferLen - u.stored)).toNat = u.transferLen - u.stored := by
    rw [BitVec.toNat_ofNat]
    omega
  refine ⟨?_, by omega⟩
  simp only [UartRxDma.actualTransLen, hbefore, hremain]
  rw [if_pos (by omega), ← BitVec.ofInt_natCast]
  congr 1
  omega

theorem handler_count : ∃ x, uartIdDmaReadFifoFrame u = some x ∧
    (kfifoDataSize x.2.fifo).toNat = (2 ^ 32 - r + (u.fifo.inCnt.toNat + (u.stored + r)) % 2 ^ k) % 2 ^ 32 ∧
    (r = 0 → u.fifo.inCnt.toNat + u.stored < 2 ^ k → x.2.Filling k w 0) := by
  obtain ⟨hactual, hfits⟩ := h.actualTransLen hk
  have hle := two_pow_le hk
  have hlen16 : (BitVec.ofNat 16 (u.stored + r)).toNat = u.stored + r := by
    rw [BitVec.toNat_ofNat]
    omega
  have hnew := kfifoAdvance_inCnt hk h.size h.mask h.inCnt hfits
  have hcount : (kfifoDataSize (kfifoAdvance u.fifo (BitVec.ofNat 16 (u.stored + r)))).toNat =
      (2 ^ 32 - r + (u.fifo.inCnt.toNat + (u.stored + r)) % 2 ^ k) % 2 ^ 32 := by
    rw [← hnew, ← h.outCnt]
    exact BitVec.toNat_sub _ _
  unfold uartIdDmaReadFifoFrame
  rw [hactual, hlen16, h.size, if_neg (by omega)]
  refine ⟨_, rfl, ?_, ?_⟩
  · rw [← hcount]
    -- the same kfifo, whichever way the DMA is left
    dsimp only
    split <;> rfl
  · intro hr hend
    have hw := h.waiting
    have hin' : (kfifoAdvance u.fifo (BitVec.ofNat 16 (u.stored + r))).inCnt.toNat = u.fifo.inCnt.toNat + u.stored := by
      rw [hnew, hr, Nat.add_zero, Nat.mod_eq_of_lt hend]
    have hout' : (kfifoAdvance u.fifo (BitVec.ofNat 16 (u.stored + r))).outCnt.toNat = 0 := h.outCnt.trans hr
    have hafter := @kfifoUnused_toInt k (kfifoAdvance u.fifo (BitVec.ofNat 16 (u.stored + r))) hk h.size h.mask
      (by omega) (by omega)
    simp only [hafter]
    rw [if_pos (by omega)]
    exact ⟨h.size, h.mask, hout', .inl rfl, hin' ▸ hend, by simp only [Int.toNat_natCast]; omega, Nat.zero_le _,
      by simp only [hin']; omega⟩

/-- So the count is right just when nothing was read and `in` stays below the end of the buffer. -/
theorem count_iff : (2 ^ 32 - r + (u.fifo.inCnt.toNat + (u.stored + r)) % 2 ^ k) % 2 ^ 32 = w ↔
    r = 0 ∧ u.fifo.inCnt.toNat + u.stored < 2 ^ k := by
  have hle := two_pow_le hk
  have hfits := (h.actualTransLen hk).2
  have hlen := h.transferLen
  have hin := h.inCnt
  have hunread := h.unread
  have hstored := h.stored
  have hw := h.waiting
  have hmod := Ring.add_mod_cases (k := u.stored + r) h.inCnt hfits
  omega

end UartRxDma.Filling

namespace UartRxDma.Drained

variable {k w r : Nat} {u v : UartRxDma}

theorem store (h : u.Drained k w r) {byte : BitVec 8} (hs : dmaStore u byte = some v) : v.Drained k (w + 1) r := by
  obtain ⟨hroom, rfl⟩ := dmaStore_eq hs
  exact ⟨h.size, h.mask, h.outCnt, h.inCnt, h.transferLen, hroom, Nat.succ_lt_succ h.lost, h.read⟩

theorem read_none (h : u.Drained k w r) (size : BitVec 32) : bkUartReadBytes u size = none := by
  unfold bkUartReadBytes kfifoDataSize
  rw [h.inCnt, h.outCnt]
  exact if_pos rfl

theorem handler (hk : k ≤ 15) (h : u.Drained k w r) :
    ∃ x, uartIdDmaReadFifoFrame u = some x ∧ (kfifoDataSize x.2.fifo).toNat ≠ w := by
  have hle := two_pow_le hk
  have hpos := Nat.two_pow_pos k
  have hin : u.fifo.inCnt.toNat = 0 := by rw [h.inCnt]; rfl
  have hout : u.fifo.outCnt.toNat = 0 := by rw [h.outCnt]; rfl
  -- but for the bytes that wait, the DMA has just been started on an empty kfifo
  obtain ⟨x, hx, hcount, -⟩ := UartRxDma.Filling.handler_count (w := u.stored) (r := 0) hk
    ⟨h.size, h.mask, hout, .inl rfl, by omega, by rw [hin]; exact h.transferLen, h.stored, by omega⟩
  have hlost := h.lost
  have hmod := Nat.mod_le u.stored (2 ^ k)
  have hlt := Nat.mod_lt u.stored hpos
  rw [hin, Nat.add_zero, Nat.zero_add] at hcount
  exact ⟨x, hx, by omega⟩

end UartRxDma.Drained

/-! ### Runs -/

namespace UartRxSys

variable {k : Nat} {s t : UartRxSys}

def Between (k : Nat) (s : UartRxSys) : Prop :=
  s.rx.Filling k s.waiting s.readSince ∨ s.rx.Drained k s.waiting s.readSince

theorem between_step {a : UartRxAct} (hk : k ≤ 15) (h : s.Between k) (hok : s.Counted a) (hs : s.step a = some t) :
    t.Between k := by
  cases a with
  | store byte =>
    obtain ⟨rx, hrx, rfl⟩ := Option.map_eq_some_iff.1 hs
    exact h.imp (fun hf => hf.store hrx) fun hd => hd.store hrx
  | handler =>
    obtain ⟨x, hx, rfl⟩ := Option.map_eq_some_iff.1 hs
    obtain ⟨hread, hend⟩ := hok.2 rfl
    rcases h with hf | hd
    · rw [hf.size] at hend
      obtain ⟨x', hx', -, hnext⟩ := hf.handler_count hk
      rw [hx, Option.some.injEq] at hx'
      exact .inl (hx' ▸ hnext hread hend)
    · exact absurd hread (Nat.pos_iff_ne_zero.1 hd.read)
  | read size =>
    obtain ⟨x, hx, rfl⟩ := Option.map_eq_some_iff.1 hs
    obtain ⟨h0, hshort⟩ := hok.1
    rw [hx] at hshort
    rcases h with hf | hd
    · exact hf.read h0 hx (of_decide_eq_true hshort)
    · rw [hd.read_none] at hx
      cases hx

end UartRxSys

/-- If the handler has so far run with nothing read since its last run and `in` below the end of the buffer, its next
run counts right just when that is so again. -/
theorem uart_dma_count {k : Nat} (hk : k ≤ 15) {size : BitVec 32} {fifo : Kfifo} (hsize : size.toNat = 2 ^ k)
    (halloc : kfifoAlloc true true size = some fifo) {s : UartRxSys}
    (hrun : Run UartRxSys.step UartRxSys.Counted (UartRxSys.start fifo) s) :
    ∃ t, s.step .handler = some t ∧ ((kfifoDataSize t.rx.fifo).toNat = t.waiting ↔ s.Counted .handler) := by
  have hinv : s.Between k :=
    hrun.invariant (I := fun t => t.Between k) (.inl (UartRxDma.Filling.start hsize halloc))
      fun _ _ _ _ hI hok hs => UartRxSys.between_step hk hI hok hs
  have hcond : s.Counted .handler ↔
      s.readSince = 0 ∧ s.rx.fifo.inCnt.toNat + s.rx.stored < s.rx.fifo.size.toNat :=
    ⟨fun hok => hok.2 rfl, fun hok => ⟨trivial, fun _ => hok⟩⟩
  rw [hcond]
  rcases hinv with hf | hd
  · obtain ⟨x, hx, hcount, -⟩ := hf.handler_count hk
    refine ⟨_, Option.map_eq_some_iff.2 ⟨x, hx, rfl⟩, ?_⟩
    rw [hcount, hf.size]
    exact hf.count_iff hk
  · obtain ⟨x, hx, hcount⟩ := hd.handler hk
    refine ⟨_, Option.map_eq_some_iff.2 ⟨x, hx, rfl⟩, iff_of_false hcount fun hok => ?_⟩
    exact absurd hok.1 (Nat.pos_iff_ne_zero.1 hd.read)

def Kfifo.four : Kfifo := ⟨0, 0, 3, 4, fun _ => 0⟩

theorem uart_dma_count_two : ∃ s t, Run UartRxSys.step UartRxSys.Counted (UartRxSys.start .four) s ∧
    s.step .handler = some t ∧ t.waiting = 2 ∧ (kfifoDataSize t.rx.fifo).toNat = t.waiting := by
  obtain ⟨s, hrun, hw, hok⟩ : ∃ s, Run UartRxSys.step UartRxSys.Counted (UartRxSys.start .four) s ∧
      s.waiting = 2 ∧ s.Counted .handler := Run.of_exec [.store 1, .handler, .store 2] (by decide)
  obtain ⟨t, ht, hcount⟩ := @uart_dma_count 2 (by decide) 4 .four rfl rfl s hrun
  have hwt : t.waiting = s.waiting := by
    obtain ⟨x, -, rfl⟩ := Option.map_eq_some_iff.1 ht
    rfl
  exact ⟨s, t, hrun, ht, hwt.trans hw, hcount.2 hok⟩

/-- Two bytes, one of them read between two runs of the handler, are counted as two; four bytes that fill the kfifo as
none. -/
theorem uart_dma_miscount :
    (∃ t, Run UartRxSys.step UartRxSys.ShortRead (UartRxSys.start .four) t ∧ t.readSince = 0 ∧ t.waiting = 1 ∧
      kfifoDataSize t.rx.fifo = 2) ∧
    ∃ t, Run UartRxSys.step UartRxSys.ShortRead (UartRxSys.start .four) t ∧ t.readSince = 0 ∧ t.waiting = 4 ∧
      kfifoDataSize t.rx.fifo = 0 :=
  ⟨Run.of_exec [.store 1, .store 2, .handler, .read 1, .handler] (by decide),
    Run.of_exec [.store 1, .store 2, .store 3, .store 4, .handler] (by decide)⟩

end Bk7258

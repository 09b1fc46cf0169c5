import Bk7258.Lib.Fifo
import Bk7258.Uart.Calls
import Bk7258.Uart.RxRing

/-!
# The two rings as queues

With the calls run one after the other, the transmit ring is a queue of 128 bytes, and the receive ring one of 256 bytes
with one exception: a command that fills it while `rx_rd_idx` is 0 sets `rx_wr_idx` to 0, and the ring is empty.
-/

namespace Bk7258
open Lts Ring

namespace MbUartCb

structure Keeps (cb cb' : MbUartCb) : Prop where
  accepted : cb'.accepted = cb.accepted
  stream : cb'.sent ++ cb'.txContents = cb.sent ++ cb.txContents
  rxBuf : cb'.rxBuf = cb.rxBuf
  rxRd : cb'.rxRdIdx = cb.rxRdIdx
  rxWr : cb'.rxWrIdx = cb.rxWrIdx
  arrived : cb'.arrived = cb.arrived
  returned : cb'.returned = cb.returned

namespace Keeps
variable {cb cb' cb'' : MbUartCb}

theorem refl (cb : MbUartCb) : cb.Keeps cb := ⟨rfl, rfl, rfl, rfl, rfl, rfl, rfl⟩

theorem trans (h : cb.Keeps cb') (h' : cb'.Keeps cb'') : cb.Keeps cb'' :=
  ⟨h'.accepted.trans h.accepted, h'.stream.trans h.stream, h'.rxBuf.trans h.rxBuf, h'.rxRd.trans h.rxRd,
    h'.rxWr.trans h.rxWr, h'.arrived.trans h.arrived, h'.returned.trans h.returned⟩

theorem rxContents (h : cb.Keeps cb') : cb'.rxContents = cb.rxContents := by
  simp only [MbUartCb.rxContents, h.rxBuf, h.rxRd, h.rxWr]

end Keeps

variable {cb : MbUartCb} {w w' : BkErr}

/-! ## The transmit ring -/

theorem txCount_le (cb : MbUartCb) : cb.txContents.length ≤ uartXchgDataMax := by
  have hlt := count_lt cb.txRdIdx.isLt cb.txWrIdx.isLt
  have hlen : uartTxBufLen = uartXchgDataMax + 1 := rfl
  rw [txContents_length, txCount]
  omega

theorem cpyLen_eq (cb : MbUartCb) : cb.cpyLen = cb.txContents.length := by
  have hle := cb.txCount_le
  rw [txContents_length, txCount] at hle ⊢
  exact Nat.min_eq_left hle

theorem slice_copyTx (cb : MbUartCb) : slice cb.copyTx.txXchgBuff 0 cb.cpyLen = cb.txContents := by
  have hle : cb.cpyLen ≤ count uartTxBufLen cb.txRdIdx cb.txWrIdx := Nat.min_le_left ..
  refine Eq.trans (slice_uartXchgCopy cb.txRdIdx.isLt cb.txWrIdx.isLt hle cb.txXchgBuff) ?_
  rw [cb.cpyLen_eq]
  exact List.take_length

theorem takeTx_copyTx (cb : MbUartCb) :
    cb.copyTx.takeTx.sent = cb.sent ++ cb.txContents ∧ cb.copyTx.takeTx.txContents = [] := by
  constructor
  · exact congrArg (cb.sent ++ ·) cb.slice_copyTx
  · have hle : cb.cpyLen ≤ count uartTxBufLen cb.txRdIdx cb.txWrIdx := Nat.min_le_left ..
    have hdrop : contents cb.txBuf uartTxBufLen ((cb.txRdIdx + cb.cpyLen) % uartTxBufLen) cb.txWrIdx = _ :=
      contents_drop cb.txRdIdx.isLt cb.txWrIdx.isLt hle
    refine Eq.trans hdrop ?_
    rw [cb.cpyLen_eq]
    exact List.drop_length

theorem keeps_sendData (cb : MbUartCb) (w : BkErr) : cb.Keeps (cb.mbUartSendData w).1 := by
  unfold mbUartSendData
  split
  · exact .refl cb
  split
  · exact .refl cb
  split
  · obtain ⟨hsent, hcont⟩ := cb.takeTx_copyTx
    refine ⟨rfl, ?_, rfl, rfl, rfl, rfl, rfl⟩
    rw [hsent, hcont, List.append_nil]
  · exact ⟨rfl, rfl, rfl, rfl, rfl, rfl, rfl⟩

theorem keeps_clearUnlessOk {r : MbUartCb × BkErr} (h : cb.Keeps r.1) : cb.Keeps (clearUnlessOk r).1 := by
  unfold clearUnlessOk
  split
  · exact h
  · exact h.trans ⟨rfl, rfl, rfl, rfl, rfl, rfl, rfl⟩

theorem keeps_claimTx (cb : MbUartCb) : cb.Keeps cb.claimTx := ⟨rfl, rfl, rfl, rfl, rfl, rfl, rfl⟩

theorem keeps_sendDataTrigger (cb : MbUartCb) (w : BkErr) : cb.Keeps (cb.mbUartSendDataTrigger w).1 := by
  unfold mbUartSendDataTrigger
  split
  · exact .refl cb
  · exact keeps_clearUnlessOk (cb.keeps_claimTx.trans (keeps_sendData _ w))

theorem keeps_sendState (cb : MbUartCb) (w : BkErr) : cb.Keeps (cb.mbUartSendState w).1 := by
  unfold mbUartSendState
  dsimp only
  split <;> exact ⟨rfl, rfl, rfl, rfl, rfl, rfl, rfl⟩

theorem keeps_sendStateTrigger (cb : MbUartCb) (w : BkErr) : cb.Keeps (cb.mbUartSendStateTrigger w).1 := by
  unfold mbUartSendStateTrigger
  split
  · exact ⟨rfl, rfl, rfl, rfl, rfl, rfl, rfl⟩
  · exact keeps_clearUnlessOk (cb.keeps_claimTx.trans (keeps_sendState _ w))

theorem keeps_txCmplIsr (cb : MbUartCb) (cmd : MbUartCmdId) (rsp : MbUartRsp) (w w' : BkErr) :
    cb.Keeps (cb.mbUartTxCmplIsr cmd rsp w w') := by
  unfold mbUartTxCmplIsr
  split
  · exact .refl cb
  have hcts : cb.Keeps { cb with statusCts := rsp.uartRts } := ⟨rfl, rfl, rfl, rfl, rfl, rfl, rfl⟩
  have hsend := hcts.trans (keeps_sendData { cb with statusCts := rsp.uartRts } w)
  generalize { cb with statusCts := rsp.uartRts }.mbUartSendData w = r at hsend
  unfold txCmplRetry
  split
  · exact hsend.trans ⟨rfl, rfl, rfl, rfl, rfl, rfl, rfl⟩
  split
  · have hstate := hsend.trans (keeps_sendState r.1 w')
    dsimp only
    split <;> exact hstate.trans ⟨rfl, rfl, rfl, rfl, rfl, rfl, rfl⟩
  · exact hsend.trans ⟨rfl, rfl, rfl, rfl, rfl, rfl, rfl⟩

theorem room_tx (cb : MbUartCb) :
    uartRoom uartTxBufLen cb.txRdIdx cb.txWrIdx = uartXchgDataMax - cb.txContents.length := by
  have hroom := uartRoom_eq cb.txRdIdx.isLt cb.txWrIdx.isLt
  have hlen : uartTxBufLen = uartXchgDataMax + 1 := rfl
  rw [txContents_length, txCount]
  omega

theorem writeTx_txContents (cb : MbUartCb) (data : List (BitVec 8)) :
    (cb.writeTx data).txContents = Fifo.put uartXchgDataMax cb.txContents data := by
  unfold Fifo.put
  rw [← cb.room_tx]
  have hroom := uartRoom_eq cb.txRdIdx.isLt cb.txWrIdx.isLt
  have hlen : (data.take (uartRoom uartTxBufLen cb.txRdIdx cb.txWrIdx)).length ≤
      uartRoom uartTxBufLen cb.txRdIdx cb.txWrIdx := by
    rw [List.length_take]
    exact Nat.min_le_left ..
  unfold writeTx txContents
  dsimp only
  generalize data.take (uartRoom uartTxBufLen cb.txRdIdx cb.txWrIdx) = bytes at hlen ⊢
  have hbuf : ∀ c < uartTxBufLen, uartTxCopy cb.txBuf cb.txRdIdx cb.txWrIdx bytes c =
      fill cb.txBuf uartTxBufLen cb.txWrIdx bytes c := fun c => uartTxCopy_eq cb.txRdIdx.isLt cb.txWrIdx.isLt hlen
  exact contents_append_fill cb.txRdIdx.isLt cb.txWrIdx.isLt (by omega) hbuf

theorem writeData_stream (cb : MbUartCb) (data : List (BitVec 8)) (w : BkErr) : (cb.mbUartWriteData data w).1.accepted =
        cb.accepted ++ data.take (uartXchgDataMax - cb.txContents.length) ∧
      (cb.mbUartWriteData data w).1.sent ++ (cb.mbUartWriteData data w).1.txContents =
        cb.sent ++ Fifo.put uartXchgDataMax cb.txContents data := by
  have hkeeps := keeps_sendDataTrigger (cb.writeTx data) w
  constructor
  · rw [← cb.room_tx]
    exact hkeeps.accepted
  · rw [← writeTx_txContents]
    exact hkeeps.stream

/-! ## The receive ring -/

theorem keeps_rxXit (cb : MbUartCb) (c : MbUartCmd) (txFail : Bool) (w : BkErr) : cb.Keeps (cb.rxXit c txFail w).1 := by
  have hcts : cb.Keeps { cb with statusCts := c.uartRts } := ⟨rfl, rfl, rfl, rfl, rfl, rfl, rfl⟩
  unfold rxXit
  dsimp only
  split
  · exact hcts.trans (keeps_sendDataTrigger _ w)
  · exact hcts

theorem keeps_rxDataXit (cb : MbUartCb) (c : MbUartCmd) (freeCnt : Nat) (txFail : Bool) (w : BkErr) :
    cb.Keeps (cb.rxDataXit c freeCnt txFail w).1 := by
  have hrts : cb.Keeps { cb with ctrlRts := if freeCnt ≤ uartXchgDataMax then true else cb.ctrlRts } :=
    ⟨rfl, rfl, rfl, rfl, rfl, rfl, rfl⟩
  exact hrts.trans (keeps_rxXit _ c txFail w)

theorem keeps_assertRts (cb : MbUartCb) (dataCnt : Nat) (w : BkErr) : cb.Keeps (cb.assertRts dataCnt w) := by
  have hrts : cb.Keeps { cb with ctrlRts := false } := ⟨rfl, rfl, rfl, rfl, rfl, rfl, rfl⟩
  unfold assertRts
  split
  · split
    · exact hrts.trans (keeps_sendStateTrigger _ w)
    · exact .refl cb
  · exact .refl cb

structure RxFifo (cb : MbUartCb) : Prop where
  rd_lt : cb.rxRdIdx < uartRxBufLen
  wr_lt : cb.rxWrIdx < uartRxBufLen
  stream : cb.arrived = cb.returned ++ cb.rxContents

theorem RxFifo.keeps {cb' : MbUartCb} (h : cb.RxFifo) (hk : cb.Keeps cb') : cb'.RxFifo where
  rd_lt := by rw [hk.rxRd]; exact h.rd_lt
  wr_lt := by rw [hk.rxWr]; exact h.wr_lt
  stream := by rw [hk.arrived, hk.returned, hk.rxContents]; exact h.stream

theorem uartRxBufLen_pos : 0 < uartRxBufLen := by decide

def LeavesRoom (cb : MbUartCb) (c : MbUartCmd) : Prop :=
  cb.rxRdIdx = 0 → c.cmdDataLen ≠ uartRoom uartRxBufLen cb.rxRdIdx cb.rxWrIdx

instance (c : MbUartCmd) : Decidable (cb.LeavesRoom c) :=
  inferInstanceAs (Decidable (_ → _))

variable {bytes : List (BitVec 8)}

theorem rxCopy_contents (hrd : cb.rxRdIdx < uartRxBufLen) (hwr : cb.rxWrIdx < uartRxBufLen)
    (hlen : bytes.length ≤ uartRoom uartRxBufLen cb.rxRdIdx cb.rxWrIdx)
    (hfit : cb.rxRdIdx = 0 → bytes.length < uartRoom uartRxBufLen cb.rxRdIdx cb.rxWrIdx) :
    (uartRxCopy cb.rxBuf cb.rxRdIdx cb.rxWrIdx bytes).2.apply cb.rxWrIdx = (cb.rxWrIdx + bytes.length) % uartRxBufLen ∧
      contents (uartRxCopy cb.rxBuf cb.rxRdIdx cb.rxWrIdx bytes).1 uartRxBufLen cb.rxRdIdx
        ((cb.rxWrIdx + bytes.length) % uartRxBufLen) = cb.rxContents ++ bytes := by
  have hroom := uartRoom_eq hrd hwr
  obtain ⟨hbuf, hidx⟩ :
      (∀ i < uartRxBufLen, (uartRxCopy cb.rxBuf cb.rxRdIdx cb.rxWrIdx bytes).1 i =
        fill cb.rxBuf uartRxBufLen cb.rxWrIdx bytes i) ∧ _ :=
    uartRxCopy_eq hrd hwr hlen hfit
  exact ⟨hidx, contents_append_fill hrd hwr (by omega) hbuf⟩

variable {c : MbUartCmd}

theorem LeavesRoom.lt (h : cb.LeavesRoom c)
    (hlen : c.cmdDataLen ≤ uartRoom uartRxBufLen cb.rxRdIdx cb.rxWrIdx) (hbytes : bytes.length = c.cmdDataLen)
    (hz : cb.rxRdIdx = 0) : bytes.length < uartRoom uartRxBufLen cb.rxRdIdx cb.rxWrIdx := by
  have hne := h hz
  omega

section
variable (hrd : cb.rxRdIdx < uartRxBufLen) (hwr : cb.rxWrIdx < uartRxBufLen)
  (hlen : c.cmdDataLen ≤ uartRoom uartRxBufLen cb.rxRdIdx cb.rxWrIdx) (hleave : cb.LeavesRoom c)
  (xchg : Nat → BitVec 8) (w : BkErr)
include hrd hwr hlen hleave

theorem rxIsrDataHandler_stored : ∃ buf' wr', wr' < uartRxBufLen ∧
    contents buf' uartRxBufLen cb.rxRdIdx wr' = cb.rxContents ++ slice xchg 0 c.cmdDataLen ∧
    Keeps { cb with rxBuf := buf', rxWrIdx := wr', arrived := cb.arrived ++ slice xchg 0 c.cmdDataLen }
      (cb.rxIsrDataHandler c xchg w).1 := by
  unfold rxIsrDataHandler
  dsimp only
  split
  · rename_i hzero
    rw [hzero, show slice xchg 0 0 = [] from rfl, List.append_nil, List.append_nil]
    exact ⟨cb.rxBuf, cb.rxWrIdx, hwr, rfl, cb.keeps_rxDataXit ..⟩
  rw [if_neg (by omega)]
  have hslice : (slice xchg 0 c.cmdDataLen).length = c.cmdDataLen := by simp [slice]
  obtain ⟨hidx, hcont⟩ := rxCopy_contents hrd hwr (Nat.le_trans (Nat.le_of_eq hslice) hlen) (hleave.lt hlen hslice)
  rw [hidx]
  exact ⟨_, _, add_mod_lt hwr, hcont, keeps_rxDataXit ..⟩

theorem rxIsrDataHandler_contents :
    (cb.rxIsrDataHandler c xchg w).1.rxContents = cb.rxContents ++ slice xchg 0 c.cmdDataLen := by
  obtain ⟨_, _, -, hcont, hk⟩ := rxIsrDataHandler_stored hrd hwr hlen hleave xchg w
  exact hk.rxContents.trans hcont

theorem rxIsrDataHandler_fits (hstream : cb.arrived = cb.returned ++ cb.rxContents) :
    (cb.rxIsrDataHandler c xchg w).1.RxFifo := by
  obtain ⟨buf', wr', hwr', hcont, hk⟩ := rxIsrDataHandler_stored hrd hwr hlen hleave xchg w
  refine RxFifo.keeps ?_ hk
  refine ⟨hrd, hwr', ?_⟩
  calc cb.arrived ++ _ = cb.returned ++ (cb.rxContents ++ _) := by rw [hstream, List.append_assoc]
    _ = _ := congrArg _ hcont.symm

end

theorem keeps_rxIsrDataHandler (hlen : uartRoom uartRxBufLen cb.rxRdIdx cb.rxWrIdx < c.cmdDataLen)
    (xchg : Nat → BitVec 8) (w : BkErr) : cb.Keeps (cb.rxIsrDataHandler c xchg w).1 := by
  have hover : cb.Keeps { cb with statusOverflow := true } := ⟨rfl, rfl, rfl, rfl, rfl, rfl, rfl⟩
  unfold rxIsrDataHandler
  dsimp only
  rw [if_neg (by omega), if_pos hlen]
  exact hover.trans (keeps_rxDataXit ..)

theorem readData_spec (h : cb.RxFifo) (bufLen : Nat) (w : BkErr) :
    (cb.mbUartReadData bufLen w).1.RxFifo ∧ (cb.mbUartReadData bufLen w).2 = cb.rxContents.take bufLen ∧
      (cb.mbUartReadData bufLen w).1.rxContents = cb.rxContents.drop bufLen := by
  have hcount : cb.rxContents.length = count uartRxBufLen cb.rxRdIdx cb.rxWrIdx := cb.rxContents_length
  unfold mbUartReadData
  dsimp only
  rcases Nat.eq_zero_or_pos (min (count uartRxBufLen cb.rxRdIdx cb.rxWrIdx) bufLen) with hz | hpos
  · rw [if_pos hz]
    have hnil : cb.rxContents = [] ∨ bufLen = 0 := by
      rw [← List.length_eq_zero_iff]
      omega
    refine ⟨h, ?_⟩
    rcases hnil with hnil | hnil
    · rw [hnil, List.take_nil, List.drop_nil]
      exact ⟨rfl, rfl⟩
    · rw [hnil]
      exact ⟨rfl, rfl⟩
  rw [if_neg (Nat.ne_of_gt hpos)]
  generalize hlen : min (count uartRxBufLen cb.rxRdIdx cb.rxWrIdx) bufLen = len
  have hle : len ≤ count uartRxBufLen cb.rxRdIdx cb.rxWrIdx := by omega
  obtain ⟨hbytes, hidx⟩ : (uartRxRead cb.rxBuf cb.rxRdIdx cb.rxWrIdx len).1 = cb.rxContents.take len ∧ _ :=
    uartRxRead_eq h.rd_lt h.wr_lt hle
  have hdrop : contents cb.rxBuf uartRxBufLen ((cb.rxRdIdx + len) % uartRxBufLen) cb.rxWrIdx = cb.rxContents.drop len :=
    contents_drop h.rd_lt h.wr_lt hle
  have htake : cb.rxContents.take len = cb.rxContents.take bufLen := by
    rw [← hlen, ← hcount, List.take_eq_take_iff]
    omega
  have hrest : cb.rxContents.drop len = cb.rxContents.drop bufLen := by
    rw [← hlen, ← hcount]
    rcases Nat.le_total cb.rxContents.length bufLen with hle | hle
    · rw [Nat.min_eq_left hle, List.drop_length, List.drop_of_length_le hle]
    · rw [Nat.min_eq_right hle]
  rw [hbytes, hidx]
  have hmid : RxFifo { cb with
      rxRdIdx := (cb.rxRdIdx + len) % uartRxBufLen, returned := cb.returned ++ cb.rxContents.take len } := by
    refine ⟨add_mod_lt h.rd_lt, h.wr_lt, ?_⟩
    calc cb.arrived = cb.returned ++ cb.rxContents := h.stream
      _ = cb.returned ++ cb.rxContents.take len ++ cb.rxContents.drop len := by
        rw [List.append_assoc, List.take_append_drop]
      _ = _ := congrArg _ hdrop.symm
  refine ⟨hmid.keeps (keeps_assertRts ..), htake, ?_⟩
  rw [(keeps_assertRts ..).rxContents, ← hrest]
  exact hdrop

def readSeq (cb : MbUartCb) : List (Nat × BkErr) → MbUartCb × List (List (BitVec 8))
  | [] => (cb, [])
  | (bufLen, w) :: ns =>
    let r := cb.mbUartReadData bufLen w
    let rs := r.1.readSeq ns
    (rs.1, r.2 :: rs.2)

theorem readSeq_spec (h : cb.RxFifo) (ns : List (Nat × BkErr)) :
    (cb.readSeq ns).2 = Fifo.gets cb.rxContents (ns.map (·.1)) ∧
      (cb.readSeq ns).1.rxContents = Fifo.rest cb.rxContents (ns.map (·.1)) := by
  induction ns generalizing cb with
  | nil => exact ⟨rfl, rfl⟩
  | cons n ns ih =>
    obtain ⟨hfifo, hbytes, hrest⟩ := readData_spec h n.1 n.2
    obtain ⟨hgets, hleft⟩ := ih hfifo
    rw [hrest] at hgets hleft
    exact ⟨congr (congrArg List.cons hbytes) hgets, hleft⟩

/-! ## Whole runs -/

structure TxGains (cb cb' : MbUartCb) (bytes : List (BitVec 8)) : Prop where
  accepted : cb'.accepted = cb.accepted ++ bytes
  stream : cb'.sent ++ cb'.txContents = cb.sent ++ cb.txContents ++ bytes

theorem Keeps.txGains {cb₁ cb' : MbUartCb} (h : cb₁.Keeps cb') (ha : cb₁.accepted = cb.accepted)
    (hs : cb₁.sent ++ cb₁.txContents = cb.sent ++ cb.txContents) : cb.TxGains cb' [] where
  accepted := by rw [h.accepted, ha, List.append_nil]
  stream := by rw [h.stream, hs, List.append_nil]

theorem readData_txGains (cb : MbUartCb) (bufLen : Nat) (w : BkErr) : cb.TxGains (cb.mbUartReadData bufLen w).1 [] := by
  unfold mbUartReadData
  dsimp only
  split
  · exact (Keeps.refl cb).txGains rfl rfl
  · exact (keeps_assertRts ..).txGains rfl rfl

theorem rxIsr_txGains (cb : MbUartCb) (c : MbUartCmd) (xchg : Nat → BitVec 8) (w : BkErr) :
    cb.TxGains (cb.mbUartRxIsr c xchg w).1 [] := by
  unfold mbUartRxIsr
  cases c.cmd with
  | sendState => exact (keeps_rxXit ..).txGains rfl rfl
  | sendData =>
    dsimp only
    unfold rxIsrDataHandler
    dsimp only
    split
    · exact (keeps_rxDataXit ..).txGains rfl rfl
    split
    · exact (keeps_rxDataXit ..).txGains rfl rfl
    · exact (keeps_rxDataXit ..).txGains rfl rfl

variable {a : UartCall}

theorem callStep_txGains {cb' : MbUartCb} (h : cb.callStep a = some cb') : ∃ bytes, cb.TxGains cb' bytes := by
  cases a with
  | write data w =>
    cases h
    obtain ⟨hacc, hstream⟩ := cb.writeData_stream data w
    exact ⟨_, hacc, by rw [hstream, Fifo.put, List.append_assoc]⟩
  | read bufLen w => cases h; exact ⟨[], cb.readData_txGains bufLen w⟩
  | devInit w => cases h; exact ⟨[], (cb.keeps_sendStateTrigger w).txGains rfl rfl⟩
  | rx c xchg w => cases h; exact ⟨[], cb.rxIsr_txGains c xchg w⟩
  | txCmpl cmd rsp w w' =>
    cases h
    exact ⟨[], (keeps_txCmplIsr { cb with written := none } cmd rsp w w').txGains rfl rfl⟩

def init (exceptionMode : Bool) : MbUartCb := { exceptionMode := exceptionMode }

variable {m : Bool}

theorem tx_stream (h : Run callStep (fun _ _ => True) (init m) cb) : cb.accepted = cb.sent ++ cb.txContents := by
  refine h.invariant (I := fun cb => cb.accepted = cb.sent ++ cb.txContents) rfl ?_
  intro t u a _ ht _ hs
  obtain ⟨bytes, hacc, hstream⟩ := callStep_txGains hs
  rw [hacc, hstream, ht]

theorem sendData_ok (hcts : cb.statusCts = false) (hne : cb.txContents ≠ []) : (cb.mbUartSendData .ok).2 = .ok ∧
      (cb.mbUartSendData .ok).1.written = some ⟨.sendData, cb.txContents.length, cb.ctrlRts⟩ ∧
      slice (cb.mbUartSendData .ok).1.txXchgBuff 0 cb.txContents.length = cb.txContents ∧
      (cb.mbUartSendData .ok).1.txContents = [] := by
  have hcnt : count uartTxBufLen cb.txRdIdx cb.txWrIdx ≠ 0 := by
    intro hz
    refine hne (List.length_eq_zero_iff.1 ?_)
    rw [txContents_length]
    exact hz
  have heq : cb.mbUartSendData .ok = (cb.copyTx.takeTx, .ok) := by
    unfold mbUartSendData
    rw [if_neg (by rw [hcts]; exact Bool.false_ne_true), if_neg hcnt, if_pos rfl]
  rw [heq]
  refine ⟨rfl, ?_, ?_, cb.takeTx_copyTx.2⟩
  · rw [← cb.cpyLen_eq]
    rfl
  · rw [← cb.cpyLen_eq]
    exact cb.slice_copyTx

theorem sendData_error (h : cb.statusCts ∨ cb.txContents = [] ∨ w ≠ .ok) :
    (cb.mbUartSendData w).2 ≠ .ok ∧ (cb.mbUartSendData w).1.txContents = cb.txContents ∧
      (cb.mbUartSendData w).1.sent = cb.sent := by
  unfold mbUartSendData
  split
  · exact ⟨nofun, rfl, rfl⟩
  · rename_i hcts
    split
    · exact ⟨nofun, rfl, rfl⟩
    · rename_i hcnt
      have hw : w ≠ .ok := by
        rcases h with h | h | h
        · exact absurd h hcts
        · exact absurd (cb.txContents_length.symm.trans (List.length_eq_zero_iff.2 h)) hcnt
        · exact h
      rw [if_neg hw]
      exact ⟨hw, rfl, rfl⟩

def RxCallOk (cb : MbUartCb) : UartCall → Prop
  | .rx c _ _ => c.cmd = .sendData → cb.LeavesRoom c
  | _ => True

instance : ∀ a, Decidable (cb.RxCallOk a)
  | .rx .. => inferInstanceAs (Decidable (_ → _))
  | .write .. | .read .. | .devInit _ | .txCmpl .. => .isTrue trivial

theorem RxFifo.rxIsr (h : cb.RxFifo) (hok : c.cmd = .sendData → cb.LeavesRoom c) (xchg : Nat → BitVec 8)
    (w : BkErr) : (cb.mbUartRxIsr c xchg w).1.RxFifo := by
  have hreq : RxFifo { cb with txStateReq := false } := ⟨h.rd_lt, h.wr_lt, h.stream⟩
  unfold mbUartRxIsr
  cases hc : c.cmd with
  | sendState => exact hreq.keeps (keeps_rxXit ..)
  | sendData =>
    rcases Nat.lt_or_ge (uartRoom uartRxBufLen cb.rxRdIdx cb.rxWrIdx) c.cmdDataLen with hlt | hle
    · exact hreq.keeps (keeps_rxIsrDataHandler (by exact hlt) xchg w)
    · exact rxIsrDataHandler_fits hreq.rd_lt hreq.wr_lt hle (hok hc) xchg w hreq.stream

theorem RxFifo.callStep {cb' : MbUartCb} (h : cb.RxFifo) (hok : cb.RxCallOk a)
    (hs : cb.callStep a = some cb') : cb'.RxFifo := by
  cases a with
  | write data w =>
    cases hs
    have hwrite : (cb.writeTx data).RxFifo := ⟨h.rd_lt, h.wr_lt, h.stream⟩
    exact hwrite.keeps (keeps_sendDataTrigger ..)
  | read bufLen w => cases hs; exact (readData_spec h bufLen w).1
  | devInit w => cases hs; exact h.keeps (keeps_sendStateTrigger ..)
  | rx c xchg w => cases hs; exact h.rxIsr hok xchg w
  | txCmpl cmd rsp w w' =>
    cases hs
    have hdone : RxFifo { cb with written := none } := ⟨h.rd_lt, h.wr_lt, h.stream⟩
    exact hdone.keeps (keeps_txCmplIsr ..)

theorem rxFifo_of_run (h : Run MbUartCb.callStep MbUartCb.RxCallOk (init m) cb) : cb.RxFifo := by
  refine h.invariant (I := RxFifo) ⟨uartRxBufLen_pos, uartRxBufLen_pos, rfl⟩ ?_
  intro t u a _ ht hok hs
  exact ht.callStep hok hs

end MbUartCb

theorem tx_ring_fifo {m : Bool} {cb : MbUartCb} (h : Run MbUartCb.callStep (fun _ _ => True) (.init m) cb) :
    ((cb.txRdIdx : Nat) < uartTxBufLen ∧ (cb.txWrIdx : Nat) < uartTxBufLen ∧ cb.txContents.length ≤ uartXchgDataMax ∧
      cb.accepted = cb.sent ++ cb.txContents) ∧
    (∀ data w, (cb.writeTx data).txContents = Fifo.put uartXchgDataMax cb.txContents data ∧
      (cb.mbUartWriteData data w).2 = min data.length (uartXchgDataMax - cb.txContents.length) ∧
      (cb.mbUartWriteData data w).1.sent ++ (cb.mbUartWriteData data w).1.txContents =
        cb.sent ++ Fifo.put uartXchgDataMax cb.txContents data) ∧
    (cb.statusCts = false → cb.txContents ≠ [] → (cb.mbUartSendData .ok).2 = .ok ∧
      (cb.mbUartSendData .ok).1.written = some ⟨.sendData, cb.txContents.length, cb.ctrlRts⟩ ∧
      slice (cb.mbUartSendData .ok).1.txXchgBuff 0 cb.txContents.length = cb.txContents ∧
      (cb.mbUartSendData .ok).1.txContents = []) ∧
    (∀ w, cb.statusCts = true ∨ cb.txContents = [] ∨ w ≠ .ok → (cb.mbUartSendData w).2 ≠ .ok ∧
      (cb.mbUartSendData w).1.txContents = cb.txContents ∧ (cb.mbUartSendData w).1.sent = cb.sent) := by
  refine ⟨⟨cb.txRdIdx.isLt, cb.txWrIdx.isLt, cb.txCount_le, MbUartCb.tx_stream h⟩, ?_, MbUartCb.sendData_ok,
    fun w => MbUartCb.sendData_error⟩
  intro data w
  refine ⟨cb.writeTx_txContents data, ?_, (cb.writeData_stream data w).2⟩
  rw [← cb.room_tx]
  rfl

theorem tx_ring_fifo_refused : ∃ cb, Run MbUartCb.callStep (fun _ _ => True) (.init false) cb ∧
    (cb.sent = [1, 2, 3] ∧ cb.txContents = [4, 5] ∧ cb.statusCts = false ∧ cb.txInProcess = false) ∧
    (cb.mbUartSendData .errBusy).1.txContents = [4, 5] ∧ (cb.mbUartSendData .ok).1.txContents = [] ∧
    (cb.mbUartWriteData (List.replicate 200 6) .errBusy).2 = 126 := by
  refine Run.of_exec_and [.write [1, 2, 3] .ok, .write [4, 5] .ok, .txCmpl .sendData ⟨false, false⟩ .errBusy .ok]
    (by decide +kernel) fun cb hr hcb => ?_
  obtain ⟨-, hwrite, hsend, hkeep⟩ := tx_ring_fifo hr
  have hne : cb.txContents ≠ [] := by rw [hcb.2.1]; exact List.cons_ne_nil _ _
  refine ⟨?_, (hsend hcb.2.2.1 hne).2.2.2, ?_⟩
  · rw [(hkeep .errBusy (.inr (.inr nofun))).2.1, hcb.2.1]
  · rw [(hwrite _ .errBusy).2.1, hcb.2.1, List.length_replicate]
    rfl

theorem rx_ring_fifo {m : Bool} {cb : MbUartCb} (h : Run MbUartCb.callStep MbUartCb.RxCallOk (.init m) cb) :
    (cb.rxRdIdx < uartRxBufLen ∧ cb.rxWrIdx < uartRxBufLen ∧ cb.arrived = cb.returned ++ cb.rxContents) ∧
    (∀ c xchg w, c.cmdDataLen ≤ uartRoom uartRxBufLen cb.rxRdIdx cb.rxWrIdx → cb.LeavesRoom c →
      (cb.rxIsrDataHandler c xchg w).1.rxContents = cb.rxContents ++ slice xchg 0 c.cmdDataLen ∧
      ∀ ns, ((cb.rxIsrDataHandler c xchg w).1.readSeq ns).2 =
        Fifo.gets (cb.rxContents ++ slice xchg 0 c.cmdDataLen) (ns.map (·.1))) ∧
    ∀ ns, (cb.readSeq ns).2 = Fifo.gets cb.rxContents (ns.map (·.1)) ∧
      (cb.readSeq ns).2.flatten ++ (cb.readSeq ns).1.rxContents = cb.rxContents := by
  have hfifo := MbUartCb.rxFifo_of_run h
  refine ⟨⟨hfifo.rd_lt, hfifo.wr_lt, hfifo.stream⟩, ?_, ?_⟩
  · intro c xchg w hlen hleave
    have hcont := MbUartCb.rxIsrDataHandler_contents hfifo.rd_lt hfifo.wr_lt hlen hleave xchg w
    have hnew := MbUartCb.rxIsrDataHandler_fits hfifo.rd_lt hfifo.wr_lt hlen hleave xchg w hfifo.stream
    refine ⟨hcont, ?_⟩
    intro ns
    rw [(MbUartCb.readSeq_spec hnew ns).1, hcont]
  · intro ns
    obtain ⟨hgets, hrest⟩ := MbUartCb.readSeq_spec hfifo ns
    refine ⟨hgets, ?_⟩
    rw [hgets, hrest]
    exact Fifo.gets_append_rest ..

theorem rx_ring_fifo_full : ∃ cb, Run MbUartCb.callStep MbUartCb.RxCallOk (.init false) cb ∧
    (cb.rxRdIdx = 1 ∧ cb.rxWrIdx = 128 ∧ uartRoom uartRxBufLen cb.rxRdIdx cb.rxWrIdx = 129 ∧
      cb.rxContents.length = 127) ∧
    (cb.rxIsrDataHandler ⟨.sendData, 129, false⟩ (fun _ => 7) .ok).1.rxContents =
      cb.rxContents ++ List.replicate 129 7 := by
  refine Run.of_exec_and [.rx ⟨.sendData, 128, false⟩ (fun _ => 5) .ok, .read 1 .ok] (by decide +kernel)
    fun cb hr hcb => ?_
  have hleave : cb.LeavesRoom ⟨.sendData, 129, false⟩ := fun hz => by rw [hcb.1] at hz; cases hz
  have hlen : 129 ≤ uartRoom uartRxBufLen cb.rxRdIdx cb.rxWrIdx := Nat.le_of_eq hcb.2.2.1.symm
  have happ := ((rx_ring_fifo hr).2.1 ⟨.sendData, 129, false⟩ (fun _ => 7) .ok hlen hleave).1
  exact happ.trans (congrArg _ (by decide +kernel))

theorem rx_ring_loses_all : ∃ cb, Run MbUartCb.callStep (fun _ _ => True) (.init false) cb ∧
    cb.rxContents.length = 128 ∧ 128 ≤ uartRoom uartRxBufLen cb.rxRdIdx cb.rxWrIdx ∧
    (cb.rxIsrDataHandler ⟨.sendData, 128, false⟩ (fun _ => 7) .ok).1.rxContents = [] ∧
    (cb.rxIsrDataHandler ⟨.sendData, 128, false⟩ (fun _ => 7) .ok).2.uartTxFail = false ∧
    ((cb.rxIsrDataHandler ⟨.sendData, 128, false⟩ (fun _ => 7) .ok).1.mbUartReadData 256 .ok).2 = [] :=
  Run.of_exec [.rx ⟨.sendData, 128, false⟩ (fun _ => 5) .ok] (by decide +kernel)

end Bk7258

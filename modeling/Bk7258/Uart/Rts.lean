import Bk7258.Uart.Fifo

/-!
# The room that `ctrl_rts` stands for

`rx_isr_data_handler` sets `ctrl_rts` when at most 128 bytes of the receive ring are free, and `mb_uart_read_data`
clears it when fewer than 102 bytes are left in the ring. So with the calls run one after the other there is room for
more than the largest command while `ctrl_rts` is 0.
-/

namespace Bk7258
open Lts Ring

namespace MbUartCb
variable {cb : MbUartCb} {w w' : BkErr}

/-! ## The sending side leaves `ctrl_rts` alone -/

@[simp] theorem sendData_ctrlRts (cb : MbUartCb) (w : BkErr) : (cb.mbUartSendData w).1.ctrlRts = cb.ctrlRts := by
  unfold mbUartSendData
  repeat' split
  all_goals rfl

@[simp] theorem sendState_ctrlRts (cb : MbUartCb) (w : BkErr) : (cb.mbUartSendState w).1.ctrlRts = cb.ctrlRts := by
  unfold mbUartSendState
  dsimp only
  split <;> rfl

@[simp] theorem clearUnlessOk_ctrlRts (r : MbUartCb × BkErr) : (clearUnlessOk r).1.ctrlRts = r.1.ctrlRts := by
  unfold clearUnlessOk
  split <;> rfl

@[simp] theorem sendDataTrigger_ctrlRts (cb : MbUartCb) (w : BkErr) :
    (cb.mbUartSendDataTrigger w).1.ctrlRts = cb.ctrlRts := by
  unfold mbUartSendDataTrigger
  split
  · rfl
  · rw [clearUnlessOk_ctrlRts, sendData_ctrlRts]
    rfl

@[simp] theorem sendStateTrigger_ctrlRts (cb : MbUartCb) (w : BkErr) :
    (cb.mbUartSendStateTrigger w).1.ctrlRts = cb.ctrlRts := by
  unfold mbUartSendStateTrigger
  split
  · rfl
  · rw [clearUnlessOk_ctrlRts, sendState_ctrlRts]
    rfl

theorem txCmplIsr_ctrlRts (cb : MbUartCb) (cmd : MbUartCmdId) (rsp : MbUartRsp) (w w' : BkErr) :
    (cb.mbUartTxCmplIsr cmd rsp w w').ctrlRts = cb.ctrlRts := by
  unfold mbUartTxCmplIsr
  split
  · rfl
  have hsend : ({ cb with statusCts := rsp.uartRts }.mbUartSendData w).1.ctrlRts = cb.ctrlRts := sendData_ctrlRts ..
  generalize { cb with statusCts := rsp.uartRts }.mbUartSendData w = r at hsend
  have hstate := sendState_ctrlRts r.1 w'
  unfold txCmplRetry
  split
  · exact hsend
  split
  · dsimp only
    split <;> exact hstate.trans hsend
  · exact hsend

theorem rxXit_ctrlRts (cb : MbUartCb) (c : MbUartCmd) (txFail : Bool) (w : BkErr) :
    (cb.rxXit c txFail w).1.ctrlRts = cb.ctrlRts := by
  unfold rxXit
  dsimp only
  split
  · exact sendDataTrigger_ctrlRts ..
  · rfl

/-! ## The invariant -/

structure RtsRoom (cb : MbUartCb) : Prop where
  rd_lt : cb.rxRdIdx < uartRxBufLen
  wr_lt : cb.rxWrIdx < uartRxBufLen
  room : cb.ctrlRts = false → uartXchgDataMax < uartRoom uartRxBufLen cb.rxRdIdx cb.rxWrIdx

theorem RtsRoom.keeps {cb' : MbUartCb} (h : cb.RtsRoom) (hk : cb.Keeps cb') (hrts : cb'.ctrlRts = cb.ctrlRts) :
    cb'.RtsRoom where
  rd_lt := by rw [hk.rxRd]; exact h.rd_lt
  wr_lt := by rw [hk.rxWr]; exact h.wr_lt
  room := by rw [hrts, hk.rxRd, hk.rxWr]; exact h.room

/-- Also when the command that fills the ring empties it, there is at least as much room as the handler thinks. -/
theorem room_uartRxCopy {rd wr : Nat} (hrd : rd < uartRxBufLen) (hwr : wr < uartRxBufLen) {bytes : List (BitVec 8)}
    (hlen : bytes.length ≤ uartRoom uartRxBufLen rd wr) (buf : Nat → BitVec 8) :
    (uartRxCopy buf rd wr bytes).2.apply wr < uartRxBufLen ∧
      uartRoom uartRxBufLen rd wr - bytes.length ≤ uartRoom uartRxBufLen rd
        ((uartRxCopy buf rd wr bytes).2.apply wr) := by
  by_cases hfill : rd = 0 ∧ bytes.length = uartRoom uartRxBufLen rd wr
  · obtain ⟨rfl, hfill⟩ := hfill
    have hidx : (uartRxCopy buf 0 wr bytes).2.apply wr < uartRxBufLen := by
      have hroom := uartRoom_eq hrd hwr
      have hcount := count_cases uartRxBufLen 0 wr
      unfold uartRxCopy
      rw [if_neg (Nat.not_lt_zero wr), if_pos rfl]
      dsimp only
      split
      · show wr + bytes.length < uartRxBufLen
        omega
      · show bytes.length - (uartRxBufLen - wr - 1) < uartRxBufLen
        omega
    exact ⟨hidx, by omega⟩
  · have hidx : (uartRxCopy buf rd wr bytes).2.apply wr = (wr + bytes.length) % uartRxBufLen :=
      (uartRxCopy_eq hrd hwr hlen (by omega)).2
    rw [hidx]
    have hlt : (wr + bytes.length) % uartRxBufLen < uartRxBufLen := add_mod_lt hwr
    have hroom := uartRoom_eq hrd hwr
    have hroom' := uartRoom_eq hrd hlt
    have hcount := count_write hrd hwr (k := bytes.length) (by omega)
    exact ⟨hlt, by omega⟩

theorem RtsRoom.rxDataXit {freeCnt : Nat} (hrd : cb.rxRdIdx < uartRxBufLen) (hwr : cb.rxWrIdx < uartRxBufLen)
    (hfree : freeCnt ≤ uartRoom uartRxBufLen cb.rxRdIdx cb.rxWrIdx) (c : MbUartCmd) (txFail : Bool) (w : BkErr) :
    (cb.rxDataXit c freeCnt txFail w).1.RtsRoom := by
  have hmid : RtsRoom { cb with ctrlRts := if freeCnt ≤ uartXchgDataMax then true else cb.ctrlRts } := by
    refine ⟨hrd, hwr, fun hrts => ?_⟩
    change (if freeCnt ≤ uartXchgDataMax then true else cb.ctrlRts) = false at hrts
    show uartXchgDataMax < uartRoom uartRxBufLen cb.rxRdIdx cb.rxWrIdx
    split at hrts
    · cases hrts
    · omega
  exact hmid.keeps (keeps_rxXit ..) (rxXit_ctrlRts ..)

theorem RtsRoom.rxIsrDataHandler (h : cb.RtsRoom) (c : MbUartCmd) (xchg : Nat → BitVec 8) (w : BkErr) :
    (cb.rxIsrDataHandler c xchg w).1.RtsRoom := by
  unfold MbUartCb.rxIsrDataHandler
  dsimp only
  split
  · exact RtsRoom.rxDataXit h.rd_lt h.wr_lt (Nat.le_refl _) c false w
  split
  · exact RtsRoom.rxDataXit (by exact h.rd_lt) (by exact h.wr_lt) (Nat.le_refl _) c true w
  have hslice : (slice xchg 0 c.cmdDataLen).length = c.cmdDataLen := by simp [slice]
  have hfits : (slice xchg 0 c.cmdDataLen).length ≤ uartRoom uartRxBufLen cb.rxRdIdx cb.rxWrIdx := by omega
  obtain ⟨hwr, hroom⟩ := room_uartRxCopy h.rd_lt h.wr_lt hfits cb.rxBuf
  rw [hslice] at hroom
  exact RtsRoom.rxDataXit (by exact h.rd_lt) (by exact hwr) (by exact hroom) c false w

theorem RtsRoom.rxIsr (h : cb.RtsRoom) (c : MbUartCmd) (xchg : Nat → BitVec 8) (w : BkErr) :
    (cb.mbUartRxIsr c xchg w).1.RtsRoom := by
  have hreq : RtsRoom { cb with txStateReq := false } := ⟨h.rd_lt, h.wr_lt, h.room⟩
  unfold mbUartRxIsr
  cases c.cmd with
  | sendState => exact hreq.keeps (keeps_rxXit ..) (rxXit_ctrlRts ..)
  | sendData => exact hreq.rxIsrDataHandler c xchg w

theorem RtsRoom.assertRts (h : cb.RtsRoom) (w : BkErr) :
    (cb.assertRts (count uartRxBufLen cb.rxRdIdx cb.rxWrIdx) w).RtsRoom := by
  unfold MbUartCb.assertRts
  split
  · rename_i hcnt
    split
    · have hroom := uartRoom_eq h.rd_lt h.wr_lt
      have hlow : (uartRxBufLen - 1 - uartXchgDataMax) * 8 / 10 + uartXchgDataMax < uartRxBufLen := by decide
      have hclear : RtsRoom { cb with ctrlRts := false } := by
        refine ⟨h.rd_lt, h.wr_lt, fun _ => ?_⟩
        show uartXchgDataMax < uartRoom uartRxBufLen cb.rxRdIdx cb.rxWrIdx
        omega
      exact hclear.keeps (keeps_sendStateTrigger ..) (sendStateTrigger_ctrlRts ..)
    · exact h
  · exact h

theorem RtsRoom.readData (h : cb.RtsRoom) (bufLen : Nat) (w : BkErr) : (cb.mbUartReadData bufLen w).1.RtsRoom := by
  unfold mbUartReadData
  dsimp only
  split
  · exact h
  generalize hlen : min (count uartRxBufLen cb.rxRdIdx cb.rxWrIdx) bufLen = len
  have hle : len ≤ count uartRxBufLen cb.rxRdIdx cb.rxWrIdx := by omega
  have hidx : (uartRxRead cb.rxBuf cb.rxRdIdx cb.rxWrIdx len).2.apply cb.rxRdIdx = (cb.rxRdIdx + len) % uartRxBufLen :=
    (uartRxRead_eq h.rd_lt h.wr_lt hle).2
  rw [hidx, ← count_read h.rd_lt h.wr_lt hle]
  generalize (uartRxRead cb.rxBuf cb.rxRdIdx cb.rxWrIdx len).1 = bytes
  have hlt : (cb.rxRdIdx + len) % uartRxBufLen < uartRxBufLen := add_mod_lt h.rd_lt
  have hmid : RtsRoom { cb with
      rxRdIdx := (cb.rxRdIdx + len) % uartRxBufLen, returned := cb.returned ++ bytes } := by
    refine ⟨hlt, h.wr_lt, fun hrts => ?_⟩
    have hold := h.room hrts
    have hroom := uartRoom_eq h.rd_lt h.wr_lt
    have hroom' := uartRoom_eq hlt h.wr_lt
    have hcount := count_read h.rd_lt h.wr_lt hle
    show uartXchgDataMax < uartRoom uartRxBufLen ((cb.rxRdIdx + len) % uartRxBufLen) cb.rxWrIdx
    omega
  exact hmid.assertRts w

theorem RtsRoom.callStep {cb' : MbUartCb} {a : UartCall} (h : cb.RtsRoom) (hs : cb.callStep a = some cb') :
    cb'.RtsRoom := by
  cases a with
  | write data w =>
    cases hs
    have hwrite : (cb.writeTx data).RtsRoom := ⟨h.rd_lt, h.wr_lt, h.room⟩
    exact hwrite.keeps (keeps_sendDataTrigger ..) (sendDataTrigger_ctrlRts ..)
  | read bufLen w => cases hs; exact h.readData bufLen w
  | devInit w => cases hs; exact h.keeps (keeps_sendStateTrigger ..) (sendStateTrigger_ctrlRts ..)
  | rx c xchg w => cases hs; exact h.rxIsr c xchg w
  | txCmpl cmd rsp w w' =>
    cases hs
    have hdone : RtsRoom { cb with written := none } := ⟨h.rd_lt, h.wr_lt, h.room⟩
    exact hdone.keeps (keeps_txCmplIsr ..) (txCmplIsr_ctrlRts ..)

theorem rtsRoom_of_run {m : Bool} (h : Run callStep (fun _ _ => True) (init m) cb) : cb.RtsRoom := by
  refine h.invariant (I := RtsRoom) ⟨uartRxBufLen_pos, uartRxBufLen_pos, fun _ => ?_⟩ ?_
  · show uartXchgDataMax < uartRoom uartRxBufLen 0 0
    decide
  · intro t u a _ ht _ hs
    exact ht.callStep hs

theorem rxIsrDataHandler_stores (h : cb.RtsRoom) {c : MbUartCmd}
    (hlt : c.cmdDataLen < uartRoom uartRxBufLen cb.rxRdIdx cb.rxWrIdx) (xchg : Nat → BitVec 8) (w : BkErr) :
    (cb.rxIsrDataHandler c xchg w).2.uartTxFail = false ∧
      (cb.rxIsrDataHandler c xchg w).1.rxContents = cb.rxContents ++ slice xchg 0 c.cmdDataLen := by
  constructor
  · unfold MbUartCb.rxIsrDataHandler
    dsimp only
    split
    · rfl
    · rw [if_neg (by omega)]
      rfl
  · exact rxIsrDataHandler_contents h.rd_lt h.wr_lt (Nat.le_of_lt hlt) (fun _ => Nat.ne_of_lt hlt) xchg w

end MbUartCb

/-- While `ctrl_rts` is 0 more than 128 bytes of the receive ring are free, so a command is stored. -/
theorem rts_leaves_room {m : Bool} {cb : MbUartCb} (h : Run MbUartCb.callStep (fun _ _ => True) (.init m) cb)
    (hrts : cb.ctrlRts = false) :
    uartXchgDataMax < uartRoom uartRxBufLen cb.rxRdIdx cb.rxWrIdx ∧
    ∀ c xchg w, c.cmdDataLen ≤ uartXchgDataMax → (cb.rxIsrDataHandler c xchg w).2.uartTxFail = false ∧
      (cb.rxIsrDataHandler c xchg w).1.rxContents = cb.rxContents ++ slice xchg 0 c.cmdDataLen := by
  have hinv := MbUartCb.rtsRoom_of_run h
  have hroom := hinv.room hrts
  exact ⟨hroom, fun c xchg w hlen => MbUartCb.rxIsrDataHandler_stores hinv (by omega) xchg w⟩

theorem rts_leaves_room_read : ∃ cb, Run MbUartCb.callStep (fun _ _ => True) (.init false) cb ∧ cb.ctrlRts = false ∧
    cb.rxContents.length = 101 ∧ uartXchgDataMax < uartRoom uartRxBufLen cb.rxRdIdx cb.rxWrIdx := by
  refine Run.of_exec_imp (p := fun cb => cb.ctrlRts = false ∧ cb.rxContents.length = 101)
    [.rx ⟨.sendData, 128, false⟩ (fun _ => 5) .ok, .read 27 .ok] (by decide +kernel) ?_
  exact fun cb hr ⟨hrts, hlen⟩ => ⟨hrts, hlen, (rts_leaves_room hr hrts).1⟩

end Bk7258

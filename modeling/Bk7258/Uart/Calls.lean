import Bk7258.Mailbox.Types
import Bk7258.Uart.End

/-!
# The calls of the mailbox UART

The functions of `mb_uart_driver.c` as they run when nothing comes between their steps, with what they return; `w` and
`w'` are results of `mb_chnl_write`.
-/

namespace Bk7258
open Ring

namespace MbUartCb
variable (cb : MbUartCb)

def cpyLen : Nat := min (count uartTxBufLen cb.txRdIdx cb.txWrIdx) uartXchgDataMax

/-- `mb_uart_send_data` up to its `mb_chnl_write`: the bytes are in the exchange buffer. -/
def copyTx : MbUartCb :=
  { cb with
    txXchgBuff := put cb.txXchgBuff 0 (uartXchgCopy cb.txBuf cb.txRdIdx cb.txWrIdx cb.cpyLen)
    txCmd := .sendData }

def takeTx : MbUartCb :=
  { cb with
    written := some ⟨.sendData, cb.cpyLen, cb.ctrlRts⟩
    sent := cb.sent ++ slice cb.txXchgBuff 0 cb.cpyLen
    txRdIdx := ⟨(cb.txRdIdx + cb.cpyLen) % uartTxBufLen, Nat.mod_lt _ uartTxBufLen_pos⟩ }

def mbUartSendData (w : BkErr) : MbUartCb × BkErr :=
  if cb.statusCts then (cb, .errBusy)
  else if count uartTxBufLen cb.txRdIdx cb.txWrIdx = 0 then (cb, .fail)
  else if w = .ok then (cb.copyTx.takeTx, .ok)
  else (cb.copyTx, w)

def clearUnlessOk (r : MbUartCb × BkErr) : MbUartCb × BkErr :=
  if r.2 = .ok then r else ({ r.1 with txInProcess := false }, r.2)

def mbUartSendDataTrigger (w : BkErr) : MbUartCb × BkErr :=
  if cb.txInProcess then (cb, .ok) else clearUnlessOk (cb.claimTx.mbUartSendData w)

def mbUartSendState (w : BkErr) : MbUartCb × BkErr :=
  let cb' := { cb with txCmd := .sendState }
  if w = .ok then ({ cb' with written := some ⟨.sendState, 0, cb.ctrlRts⟩ }, .ok) else (cb', w)

def mbUartSendStateTrigger (w : BkErr) : MbUartCb × BkErr :=
  if cb.txInProcess then ({ cb with txStateReq := true }, .ok) else clearUnlessOk (cb.claimTx.mbUartSendState w)

/-- The part of `mb_uart_write_data` before it triggers the send -/
def writeTx (data : List (BitVec 8)) : MbUartCb :=
  let bytes := data.take (uartRoom uartTxBufLen cb.txRdIdx cb.txWrIdx)
  { cb with
    txBuf := uartTxCopy cb.txBuf cb.txRdIdx cb.txWrIdx bytes
    txWrIdx := ⟨(cb.txWrIdx + bytes.length) % uartTxBufLen, Nat.mod_lt _ uartTxBufLen_pos⟩
    accepted := cb.accepted ++ bytes }

def mbUartWriteData (data : List (BitVec 8)) (w : BkErr) : MbUartCb × Nat :=
  (((cb.writeTx data).mbUartSendDataTrigger w).1, min data.length (uartRoom uartTxBufLen cb.txRdIdx cb.txWrIdx))

/-- The end of `mb_uart_read_data`, with `data_cnt` bytes left in the ring -/
def assertRts (dataCnt : Nat) (w : BkErr) : MbUartCb :=
  if dataCnt < (uartRxBufLen - 1 - uartXchgDataMax) * 8 / 10 then
    if cb.ctrlRts then ({ cb with ctrlRts := false }.mbUartSendStateTrigger w).1 else cb
  else cb

def mbUartReadData (bufLen : Nat) (w : BkErr) : MbUartCb × List (BitVec 8) :=
  let dataCnt := count uartRxBufLen cb.rxRdIdx cb.rxWrIdx
  let rdLen := min dataCnt bufLen
  if rdLen = 0 then (cb, [])
  else
    let r := uartRxRead cb.rxBuf cb.rxRdIdx cb.rxWrIdx rdLen
    ({ cb with rxRdIdx := r.2.apply cb.rxRdIdx, returned := cb.returned ++ r.1 }.assertRts (dataCnt - rdLen) w, r.1)

/-- The end of both receive handlers: `status_cts`, the response, and the send if the peer may be sent to again -/
def rxXit (c : MbUartCmd) (txFail : Bool) (w : BkErr) : MbUartCb × MbUartRsp :=
  let cb' := { cb with statusCts := c.uartRts }
  (if cb.statusCts && !c.uartRts then (cb'.mbUartSendDataTrigger w).1 else cb', ⟨cb.ctrlRts, txFail⟩)

def rxDataXit (c : MbUartCmd) (freeCnt : Nat) (txFail : Bool) (w : BkErr) : MbUartCb × MbUartRsp :=
  { cb with ctrlRts := if freeCnt ≤ uartXchgDataMax then true else cb.ctrlRts }.rxXit c txFail w

/-- `rx_isr_data_handler`; `xchg` is the exchange buffer of the peer. -/
def rxIsrDataHandler (c : MbUartCmd) (xchg : Nat → BitVec 8) (w : BkErr) : MbUartCb × MbUartRsp :=
  let freeCnt := uartRoom uartRxBufLen cb.rxRdIdx cb.rxWrIdx
  if c.cmdDataLen = 0 then cb.rxDataXit c freeCnt false w
  else if c.cmdDataLen > freeCnt then { cb with statusOverflow := true }.rxDataXit c freeCnt true w
  else
    let bytes := slice xchg 0 c.cmdDataLen
    let r := uartRxCopy cb.rxBuf cb.rxRdIdx cb.rxWrIdx bytes
    { cb with rxBuf := r.1, rxWrIdx := r.2.apply cb.rxWrIdx, arrived := cb.arrived ++ bytes }.rxDataXit c
      (freeCnt - c.cmdDataLen) false w

def mbUartRxIsr (c : MbUartCmd) (xchg : Nat → BitVec 8) (w : BkErr) : MbUartCb × MbUartRsp :=
  let cb' := { cb with txStateReq := false }
  match c.cmd with
  | .sendData => cb'.rxIsrDataHandler c xchg w
  | .sendState => cb'.rxXit c false w

def txCmplRetry (r : MbUartCb × BkErr) (w' : BkErr) : MbUartCb :=
  if r.2 = .ok then { r.1 with txStateReq := false }
  else if r.1.txStateReq then
    let r' := r.1.mbUartSendState w'
    if r'.2 = .ok then { r'.1 with txStateReq := false } else { r'.1 with txInProcess := false }
  else { r.1 with txInProcess := false }

def mbUartTxCmplIsr (cmd : MbUartCmdId) (rsp : MbUartRsp) (w w' : BkErr) : MbUartCb :=
  if cmd ≠ cb.txCmd ∨ cb.txInProcess = false then cb
  else txCmplRetry ({ cb with statusCts := rsp.uartRts }.mbUartSendData w) w'

end MbUartCb

inductive UartCall
  | write (data : List (BitVec 8)) (w : BkErr)
  | read (bufLen : Nat) (w : BkErr)
  | devInit (w : BkErr)
  | rx (c : MbUartCmd) (xchg : Nat → BitVec 8) (w : BkErr)
  /-- The channel has taken the command out before it calls `mb_uart_tx_cmpl_isr`. -/
  | txCmpl (cmd : MbUartCmdId) (rsp : MbUartRsp) (w w' : BkErr)

def MbUartCb.callStep (cb : MbUartCb) : UartCall → Option MbUartCb
  | .write data w => some (cb.mbUartWriteData data w).1
  | .read bufLen w => some (cb.mbUartReadData bufLen w).1
  | .devInit w => some (cb.mbUartSendStateTrigger w).1
  | .rx c xchg w => some (cb.mbUartRxIsr c xchg w).1
  | .txCmpl cmd rsp w w' => some ({ cb with written := none }.mbUartTxCmplIsr cmd rsp w w')

end Bk7258

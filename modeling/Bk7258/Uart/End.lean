import Bk7258.Lib.Lts
import Bk7258.Lib.Ring

/-!
# One end of the mailbox UART

`mb_uart_driver.c` at the granularity its races need: each critical section and each access to `status_cts`,
`tx_in_process` and the indices of the two rings is a step of its own. The contexts of an end are the tasks that call
the driver and the interrupt; a callback that reads or writes is one more task. While there is a `written` command,
`mb_chnl_write` returns `BK_ERR_BUSY`. The checksum is disabled.
-/

namespace Bk7258
open Ring

/-- `UART_XCHG_DATA_MAX` (`MB_CHNL_BUFF_LEN`), also `MB_UART_TX_FIFO_LEN` and `MB_UART_RX_FIFO_LEN` -/
def uartXchgDataMax : Nat := 128

def uartTxBufLen : Nat := uartXchgDataMax + 1

theorem uartTxBufLen_pos : 0 < uartTxBufLen := by decide

def uartRxBufLen : Nat := 2 * uartXchgDataMax + 1

inductive MbUartCmdId
  | sendData
  | sendState
deriving DecidableEq, Repr

structure MbUartCmd where
  cmd : MbUartCmdId
  cmdDataLen : Nat := 0
  uartRts : Bool
deriving DecidableEq, Repr

structure MbUartRsp where
  uartRts : Bool
  uartTxFail : Bool := false
deriving DecidableEq, Repr

/-- `mb_uart_cb_t`; the peer may send while `ctrlRts` is false. `accepted` are the bytes the write calls have taken,
`sent` those of the data commands, `arrived` those put in the receive ring and `returned` those the read calls have
given. -/
structure MbUartCb where
  ctrlRts : Bool := false
  statusCts : Bool := false
  statusOverflow : Bool := false
  txXchgBuff : Nat → BitVec 8 := fun _ => 0
  txBuf : Nat → BitVec 8 := fun _ => 0
  txRdIdx : Fin uartTxBufLen := ⟨0, uartTxBufLen_pos⟩
  txWrIdx : Fin uartTxBufLen := ⟨0, uartTxBufLen_pos⟩
  txInProcess : Bool := false
  txStateReq : Bool := false
  txCmd : MbUartCmdId := .sendData
  rxBuf : Nat → BitVec 8 := fun _ => 0
  rxRdIdx : Nat := 0
  rxWrIdx : Nat := 0
  exceptionMode : Bool := false
  written : Option MbUartCmd := none
  accepted : List (BitVec 8) := []
  sent : List (BitVec 8) := []
  arrived : List (BitVec 8) := []
  returned : List (BitVec 8) := []

/-! ## The copies -/

def uartRoom (n rd wr : Nat) : Nat := if rd > wr then rd - wr - 1 else n - (wr - rd) - 1

/-- An index is set, or the number of bytes is added to what it is. -/
inductive IdxStore
  | set (idx : Nat)
  | add (len : Nat)
deriving DecidableEq, Repr

def IdxStore.apply (idx : Nat) : IdxStore → Nat
  | .set idx' => idx'
  | .add len => idx + len

def uartTxCopy (buf : Nat → BitVec 8) (rd wr : Nat) (bytes : List (BitVec 8)) : Nat → BitVec 8 :=
  if wr < rd then put buf wr bytes
  else
    let remLen := if rd ≠ 0 then uartTxBufLen - wr else uartRoom uartTxBufLen rd wr
    if remLen ≥ bytes.length then put buf wr bytes
    else put (put buf wr (bytes.take remLen)) 0 (bytes.drop remLen)

def uartXchgCopy (buf : Nat → BitVec 8) (rd wr cpyLen : Nat) : List (BitVec 8) :=
  if rd < wr then slice buf rd cpyLen
  else
    let remLen := uartTxBufLen - rd
    if remLen ≥ cpyLen then slice buf rd cpyLen else slice buf rd remLen ++ slice buf 0 (cpyLen - remLen)

/-- The copy of `rx_isr_data_handler` and its write to `rx_wr_idx`. With `rd_idx` 0 and no room left afterwards the
index is set to 0, where an empty ring has it. -/
def uartRxCopy (buf : Nat → BitVec 8) (rd wr : Nat) (bytes : List (BitVec 8)) : (Nat → BitVec 8) × IdxStore :=
  if wr < rd then (put buf wr bytes, .add bytes.length)
  else
    let remLen := if rd = 0 then uartRxBufLen - wr - 1 else uartRxBufLen - wr
    if remLen > bytes.length then (put buf wr bytes, .add bytes.length)
    else (put (put buf wr (bytes.take remLen)) 0 (bytes.drop remLen), .set (bytes.length - remLen))

def uartRxRead (buf : Nat → BitVec 8) (rd wr rdLen : Nat) : List (BitVec 8) × IdxStore :=
  if rd < wr then (slice buf rd rdLen, .add rdLen)
  else
    let remLen := uartRxBufLen - rd
    if remLen > rdLen then (slice buf rd rdLen, .add rdLen)
    else (slice buf rd remLen ++ slice buf 0 (rdLen - remLen), .set (rdLen - remLen))

/-! ## The steps -/

inductive UartRet
  | task
  | rxIsr (rsp : MbUartRsp)
  | txCmplIsr
deriving DecidableEq, Repr

inductive UartPc
  | idle
  -- `mb_uart_write_data`
  | write (data : List (BitVec 8))
  | writeRd (data : List (BitVec 8)) (rd : Nat)
  | writeIdx (bytes : List (BitVec 8)) (wr : Nat)
  | dataTrigger (ret : UartRet)
  -- `mb_uart_send_data`
  | sendCts (ret : UartRet)
  | sendRd (ret : UartRet)
  | sendWr (ret : UartRet) (rd : Nat)
  | sendData (ret : UartRet) (rd cpyLen : Nat)
  | sendIdx (ret : UartRet) (rd cpyLen : Nat)
  | clear (ret : UartRet)
  -- `mb_uart_read_data`
  | read (bufLen : Nat)
  | readRd (bufLen rd : Nat)
  | readIdx (bytes : List (BitVec 8)) (store : IdxStore) (dataCnt wr : Nat)
  | readRts (wr : Nat)
  | stateTrigger
  | sendState (ret : UartRet)
  -- `mb_uart_rx_isr`
  | rx (c : MbUartCmd)
  | rxRd (c : MbUartCmd) (rd : Nat)
  | rxIdx (c : MbUartCmd) (bytes : List (BitVec 8)) (store : IdxStore) (freeCnt : Nat)
  | rxFree (c : MbUartCmd) (freeCnt : Nat) (txFail : Bool)
  | rxCts (c : MbUartCmd) (txFail : Bool)
  | rxRsp (rsp : MbUartRsp)
  -- `mb_uart_tx_cmpl_isr`
  | txCmpl (c : MbUartCmd) (rsp : MbUartRsp)
  | txCmplCts (rsp : MbUartRsp)
  | txCmplFail
  | txCmplOk
deriving DecidableEq, Repr

namespace UartRet

def done : UartRet → UartPc
  | .task | .txCmplIsr => .idle
  | .rxIsr rsp => .rxRsp rsp

def sent : UartRet → UartPc
  | .txCmplIsr => .txCmplOk
  | ret => ret.done

def failed : UartRet → UartPc
  | .txCmplIsr => .txCmplFail
  | ret => .clear ret

end UartRet

namespace MbUartCb
variable (cb : MbUartCb)

/-- The critical section of both triggers, entered with `tx_in_process` 0 -/
def claimTx : MbUartCb := { cb with txInProcess := if cb.exceptionMode then cb.txInProcess else true }

/-- The next step of a context; `xchg` is the exchange buffer of the peer. -/
def next (xchg : Nat → BitVec 8) : UartPc → Option (MbUartCb × UartPc)
  | .idle | .rxRsp _ => none
  -- mb_uart_write_data
  | .write data => some (cb, .writeRd data cb.txRdIdx)
  | .writeRd data rd =>
    let bytes := data.take (uartRoom uartTxBufLen rd cb.txWrIdx)
    some ({ cb with txBuf := uartTxCopy cb.txBuf rd cb.txWrIdx bytes }, .writeIdx bytes cb.txWrIdx)
  | .writeIdx bytes wr => some ({ cb with
      txWrIdx := ⟨(wr + bytes.length) % uartTxBufLen, Nat.mod_lt _ uartTxBufLen_pos⟩
      accepted := cb.accepted ++ bytes }, .dataTrigger .task)
  -- mb_uart_send_data_trigger
  | .dataTrigger ret => if cb.txInProcess then some (cb, ret.done) else some (cb.claimTx, .sendCts ret)
  -- mb_uart_send_data
  | .sendCts ret => some (cb, if cb.statusCts then ret.failed else .sendRd ret)
  | .sendRd ret => some (cb, .sendWr ret cb.txRdIdx)
  | .sendWr ret rd =>
    let cpyLen := count uartTxBufLen rd cb.txWrIdx
    if cpyLen = 0 then some (cb, ret.failed)
    else
      let cpyLen := min cpyLen uartXchgDataMax
      some ({ cb with
        txXchgBuff := put cb.txXchgBuff 0 (uartXchgCopy cb.txBuf rd cb.txWrIdx cpyLen)
        txCmd := .sendData }, .sendData ret rd cpyLen)
  | .sendData ret rd cpyLen =>
    if cb.written.isSome then some (cb, ret.failed)
    else some ({ cb with
      written := some ⟨.sendData, cpyLen, cb.ctrlRts⟩
      sent := cb.sent ++ slice cb.txXchgBuff 0 cpyLen }, .sendIdx ret rd cpyLen)
  | .sendIdx ret rd cpyLen =>
    some ({ cb with txRdIdx := ⟨(rd + cpyLen) % uartTxBufLen, Nat.mod_lt _ uartTxBufLen_pos⟩ }, ret.sent)
  | .clear ret => some ({ cb with txInProcess := false }, ret.done)
  -- mb_uart_read_data
  | .read bufLen => some (cb, .readRd bufLen cb.rxRdIdx)
  | .readRd bufLen rd =>
    let dataCnt := count uartRxBufLen rd cb.rxWrIdx
    let rdLen := min dataCnt bufLen
    if rdLen = 0 then some (cb, .idle)
    else
      let r := uartRxRead cb.rxBuf rd cb.rxWrIdx rdLen
      some (cb, .readIdx r.1 r.2 (dataCnt - rdLen) cb.rxWrIdx)
  | .readIdx bytes store dataCnt wr =>
    some ({ cb with rxRdIdx := store.apply cb.rxRdIdx, returned := cb.returned ++ bytes },
      if dataCnt < (uartRxBufLen - 1 - uartXchgDataMax) * 8 / 10 then .readRts wr else .idle)
  | .readRts _ => if cb.ctrlRts then some ({ cb with ctrlRts := false }, .stateTrigger) else some (cb, .idle)
  -- mb_uart_send_state_trigger
  | .stateTrigger =>
    if cb.txInProcess then some ({ cb with txStateReq := true }, .idle) else some (cb.claimTx, .sendState .task)
  -- mb_uart_send_state
  | .sendState ret =>
    if cb.written.isSome then some ({ cb with txCmd := .sendState }, .clear ret)
    else some ({ cb with txCmd := .sendState, written := some ⟨.sendState, 0, cb.ctrlRts⟩ }, ret.sent)
  -- mb_uart_rx_isr; a state command goes on where `rx_isr_state_handler` agrees with `rx_isr_data_handler`
  | .rx c => some ({ cb with txStateReq := false },
      match c.cmd with
      | .sendData => .rxRd c cb.rxRdIdx
      | .sendState => .rxCts c false)
  | .rxRd c rd =>
    let freeCnt := uartRoom uartRxBufLen rd cb.rxWrIdx
    if c.cmdDataLen = 0 then some (cb, .rxFree c freeCnt false)
    else if c.cmdDataLen > freeCnt then some ({ cb with statusOverflow := true }, .rxFree c freeCnt true)
    else
      let bytes := slice xchg 0 c.cmdDataLen
      let r := uartRxCopy cb.rxBuf rd cb.rxWrIdx bytes
      some ({ cb with rxBuf := r.1 }, .rxIdx c bytes r.2 (freeCnt - c.cmdDataLen))
  | .rxIdx c bytes store freeCnt =>
    some ({ cb with rxWrIdx := store.apply cb.rxWrIdx, arrived := cb.arrived ++ bytes }, .rxFree c freeCnt false)
  | .rxFree c freeCnt txFail =>
    some ({ cb with ctrlRts := if freeCnt ≤ uartXchgDataMax then true else cb.ctrlRts }, .rxCts c txFail)
  | .rxCts c txFail =>
    let rsp : MbUartRsp := ⟨cb.ctrlRts, txFail⟩
    some ({ cb with statusCts := c.uartRts },
      if cb.statusCts && !c.uartRts then .dataTrigger (.rxIsr rsp) else .rxRsp rsp)
  -- mb_uart_tx_cmpl_isr
  | .txCmpl c rsp => some (cb, if c.cmd ≠ cb.txCmd ∨ cb.txInProcess = false then .idle else .txCmplCts rsp)
  | .txCmplCts rsp => some ({ cb with statusCts := rsp.uartRts }, .sendCts .txCmplIsr)
  | .txCmplFail => some (cb, if cb.txStateReq then .sendState .txCmplIsr else .clear .txCmplIsr)
  | .txCmplOk => some ({ cb with txStateReq := false }, .idle)

end MbUartCb

/-- An end with its contexts, the tasks and the interrupt (`none`). -/
structure UartEnd (T : Type) where
  cb : MbUartCb := {}
  pc : Option T → UartPc := fun _ => .idle

inductive UartAct (T : Type)
  | write (t : T) (data : List (BitVec 8))
  | read (t : T) (bufLen : Nat)
  | devInit (t : T)
  | next (c : Option T) (xchg : Nat → BitVec 8)
  | rx (c : MbUartCmd)
  | rsp
  | txCmpl (rsp : MbUartRsp)

namespace UartEnd
variable {T : Type} [DecidableEq T] (s : UartEnd T)

def move (c : Option T) (cb : MbUartCb) (p : UartPc) : UartEnd T := ⟨cb, Function.update s.pc c p⟩

def call (t : T) (p : UartPc) : Option (UartEnd T) :=
  if s.pc (some t) = .idle then some (s.move (some t) s.cb p) else none

def step : UartAct T → Option (UartEnd T)
  | .write t data => s.call t (.write data)
  | .read t bufLen => s.call t (.read bufLen)
  | .devInit t => s.call t .stateTrigger
  | .next c xchg => (s.cb.next xchg (s.pc c)).map fun r => s.move c r.1 r.2
  | .rx c => if s.pc none = .idle then some (s.move none s.cb (.rx c)) else none
  | .rsp => match s.pc none with
    | .rxRsp _ => some (s.move none s.cb .idle)
    | _ => none
  | .txCmpl rsp => match s.cb.written with
    | some c => if s.pc none = .idle then
        some (s.move none { s.cb with written := none } (.txCmpl c rsp)) else none
    | none => none

variable {s} {s' : UartEnd T} {c d : Option T} {cb : MbUartCb} {p : UartPc}

@[simp] theorem move_cb : (s.move c cb p).cb = cb := rfl

@[simp] theorem move_self : (s.move c cb p).pc c = p := by simp [move]

theorem move_of_ne (h : d ≠ c) : (s.move c cb p).pc d = s.pc d := by simp [move, h]

theorem move_all {f : UartPc → Bool} {b : Bool} (h : ∀ d, d ≠ c → f (s.pc d) = b) (hp : f p = b) (d : Option T) :
    f ((s.move c cb p).pc d) = b := by
  by_cases hd : d = c
  · subst hd; rwa [move_self]
  · rw [move_of_ne hd]; exact h d hd

theorem move_pc {P : UartPc → Prop} (h : ∀ d, d ≠ c → P (s.pc d)) (hp : P p) (d : Option T) :
    P ((s.move c cb p).pc d) := by
  by_cases hd : d = c
  · subst hd; rwa [move_self]
  · rw [move_of_ne hd]; exact h d hd

theorem move_one {f : UartPc → Bool} (h : ∀ c d, f (s.pc c) → f (s.pc d) → c = d)
    (hp : f p = true → f (s.pc c) ∨ ∀ d, f (s.pc d) = false) (x y : Option T)
    (hx : f ((s.move c cb p).pc x)) (hy : f ((s.move c cb p).pc y)) : x = y := by
  by_cases hxc : x = c <;> by_cases hyc : y = c
  · rw [hxc, hyc]
  · subst hxc
    rw [move_self] at hx
    rw [move_of_ne hyc] at hy
    obtain hp | hp := hp hx
    · exact h _ _ hp hy
    · rw [hp y] at hy; cases hy
  · subst hyc
    rw [move_self] at hy
    rw [move_of_ne hxc] at hx
    obtain hp | hp := hp hy
    · exact h _ _ hx hp
    · rw [hp x] at hx; cases hx
  · rw [move_of_ne hxc] at hx
    rw [move_of_ne hyc] at hy
    exact h x y hx hy

theorem call_eq {t : T} (h : s.call t p = some s') : s.pc (some t) = .idle ∧ s' = s.move (some t) s.cb p := by
  unfold call at h
  split at h
  · exact ⟨‹_›, (Option.some.inj h).symm⟩
  · cases h

theorem next_eq {xchg : Nat → BitVec 8} (h : s.step (.next c xchg) = some s') :
    ∃ cb p, s.cb.next xchg (s.pc c) = some (cb, p) ∧ s' = s.move c cb p := by
  obtain ⟨⟨cb, p⟩, hn, rfl⟩ := Option.map_eq_some_iff.1 h
  exact ⟨cb, p, hn, rfl⟩

theorem rx_eq {k : MbUartCmd} (h : s.step (.rx k) = some s') : s.pc none = .idle ∧ s' = s.move none s.cb (.rx k) := by
  simp only [step] at h
  split at h
  · exact ⟨‹_›, (Option.some.inj h).symm⟩
  · cases h

theorem rsp_eq (h : s.step .rsp = some s') : ∃ r, s.pc none = .rxRsp r ∧ s' = s.move none s.cb .idle := by
  simp only [step] at h
  split at h
  · exact ⟨_, ‹_›, (Option.some.inj h).symm⟩
  · cases h

theorem txCmpl_eq {r : MbUartRsp} (h : s.step (.txCmpl r) = some s') : ∃ k, s.cb.written = some k ∧ s.pc none = .idle ∧
      s' = s.move none { s.cb with written := none } (.txCmpl k r) := by
  simp only [step] at h
  split at h
  · rename_i k hw
    split at h
    · exact ⟨k, hw, ‹_›, (Option.some.inj h).symm⟩
    · cases h
  · cases h

end UartEnd
end Bk7258

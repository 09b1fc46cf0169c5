import Bk7258.Mailbox.Types

/-!
# The mailbox channel layer (`mailbox_channel.c`)

The functions of `mailbox_channel.c` on one CPU, over an arbitrary mailbox below: `send` is `bk_mailbox_send`. All a
registered callback can do here is call the channel API. `tx_isr` is called inside the critical section of its caller,
so `mbPhyChnlTxCmd` takes its whole effect as a parameter. `rx_isr` and `tx_cmpl_isr` are called outside any critical
section; the two receive functions are therefore cut in two at the callback (`…Isr`, `…IsrExit`). `trace` records the
calls the layer accepts and makes.
-/

namespace Bk7258
open Function

inductive TxState
  | idle
  | busy
deriving DecidableEq, Repr

structure MbPhyChnlCb where
  txState : TxState := .idle
  txSeq : BitVec 8 := 0
  txLogChnl : BitVec 8 := 0
  txHdrCmd : BitVec 8 := 0
  rxFaultCnt : BitVec 32 := 0
  txFaultCnt : BitVec 32 := 0
  exceptionMode : BitVec 8 := 0
deriving DecidableEq, Repr

/-- `mb_log_chnl_cb_t`; a callback is its address, `none` is `NULL`. -/
structure MbLogChnlCb where
  txState : TxState := .idle
  inUsed : Bool := false
  rxIsr : Option Nat := none
  txIsr : Option Nat := none
  txCmplIsr : Option Nat := none
  isrParam : Nat := 0
  chnnlTxBuff : MailboxData := ⟨0, 0, 0, 0⟩
deriving DecidableEq, Repr

/-- What the layer did, oldest first; the two numbers are the physical and the logical channel index. -/
inductive Event
  | opened (phyChnlIdx logChnlIdx : Nat)
  | closed (phyChnlIdx logChnlIdx : Nat)
  /-- `mb_chnl_write` took the command into the channel buffer (and returns `BK_OK`). -/
  | written (phyChnlIdx logChnlIdx : Nat) (cmd : MailboxData)
  | sent (phyChnlIdx logChnlIdx : Nat) (cmd : MailboxData)
  | sendFailed (phyChnlIdx logChnlIdx : Nat) (cmd : MailboxData)
  | rxIsr (phyChnlIdx logChnlIdx : Nat) (cmd : MailboxData)
  | txCmplIsr (phyChnlIdx logChnlIdx : Nat) (ack : MailboxData)
  /-- The byte `MB_CHNL_GET_STATUS` stores through its parameter. -/
  | status (phyChnlIdx logChnlIdx : Nat) (txState : TxState)
deriving DecidableEq, Repr

/-- `PHY_CHNL_NUM = SYSTEM_CPU_NUM`, `CONFIG_CPU_CNT + 1` in the SMP project. -/
def phyChnlNum : Nat := 3

/-- What differs between the CPUs that run the layer: `SELF_CPU` and `phy_chnl_log_chnl_num`. The four
index bits of a channel id bound the tables ("max 16 channels"). -/
structure ChnlCfg where
  selfCpu : Nat
  logChnlNum : Nat → Nat
  selfCpu_lt : selfCpu < phyChnlNum
  logChnlNum_le : ∀ c, logChnlNum c ≤ 16

def apCfg : ChnlCfg where
  selfCpu := 1
  logChnlNum c := if c = 0 then 15 else 1
  selfCpu_lt := by decide
  logChnlNum_le c := by split <;> omega

/-- `bk_mailbox_send(data, src, dst)` on a mailbox with state `H`. -/
abbrev SendFn (H : Type) := H → (src dst : Nat) → MailboxData → BkErr × H

structure Chnl (H : Type) where
  phyChnlXCb : Nat → MbPhyChnlCb
  logChnlCb : Nat → Nat → MbLogChnlCb
  mbChnnlInitOk : Bool
  hw : H
  trace : List Event

namespace Chnl
variable {H : Type}

def updPhy (s : Chnl H) (p : Nat) (f : MbPhyChnlCb → MbPhyChnlCb) : Chnl H :=
  { s with phyChnlXCb := update s.phyChnlXCb p (f (s.phyChnlXCb p)) }

def updLog (s : Chnl H) (p i : Nat) (f : MbLogChnlCb → MbLogChnlCb) : Chnl H :=
  { s with logChnlCb := update s.logChnlCb p (update (s.logChnlCb p) i (f (s.logChnlCb p i))) }

def note (s : Chnl H) (e : Event) : Chnl H := { s with trace := s.trace ++ [e] }

def setHw (s : Chnl H) (h : H) : Chnl H := { s with hw := h }

end Chnl

/-- `CHNL_CTRL_ACK_BOX`, `CHNL_CTRL_SYNC_TX`, `CHNL_CTRL_RESET`, `CHNL_STATE_COM_FAIL` -/
def chnlCtrlAckBox : BitVec 4 := 0x1
def chnlCtrlSyncTx : BitVec 4 := 0x2
def chnlCtrlReset : BitVec 4 := 0x4
def chnlStateComFail : BitVec 4 := 0x1

section
variable {H : Type} (cfg : ChnlCfg) (send : SendFn H)

/-! ### Physical channel functions -/

def mbPhyChnlTxCmd (txIsr : Chnl H → Chnl H) (logChnl : BitVec 8) (s : Chnl H) : Nat × Chnl H :=
  let phyChnlIdx := getDstCpuId logChnl
  let logChnlIdx := getLogChnlId logChnl
  if cfg.selfCpu ≠ getSrcCpuId logChnl then (4, s)
  else if cfg.selfCpu = phyChnlIdx then (5, s)
  else if phyChnlNum ≤ phyChnlIdx then (3, s)
  else if cfg.logChnlNum phyChnlIdx ≤ logChnlIdx then (1, s)
  else
    let txSeq := (s.phyChnlXCb phyChnlIdx).txSeq + 1
    let buff := (s.logChnlCb phyChnlIdx logChnlIdx).chnnlTxBuff
    let cmd := buff.setHdr { buff.hdr with logicalChnl := logChnl, txSeq := txSeq, ctrl := 0, state := 0 }
    let s := s.updPhy phyChnlIdx fun c =>
      { c with txSeq := txSeq, txLogChnl := logChnl, txHdrCmd := cmd.hdr.cmd }
    let s := s.updLog phyChnlIdx logChnlIdx fun c => { c with chnnlTxBuff := cmd }
    let r := send s.hw cfg.selfCpu phyChnlIdx cmd
    let s := { s with hw := r.2 }
    if r.1 ≠ .ok then
      (2, (s.updPhy phyChnlIdx fun c =>
        { c with txFaultCnt := (c.txFaultCnt + 1) ||| 0x40000000#32 }).note
          (.sendFailed phyChnlIdx logChnlIdx cmd))
    else
      let s := (s.updLog phyChnlIdx logChnlIdx fun c => { c with txState := .idle }).note
        (.sent phyChnlIdx logChnlIdx cmd)
      if (s.logChnlCb phyChnlIdx logChnlIdx).txIsr.isSome then
        (0, txIsr s)
      else (0, s)

def mbPhyChnlStartTx (txIsr : Chnl H → Chnl H) (logChnl : BitVec 8) (s : Chnl H) : Chnl H :=
  let phyChnlIdx := getDstCpuId logChnl
  if cfg.selfCpu = phyChnlIdx then s
  else if phyChnlNum ≤ phyChnlIdx then s
  else if (s.phyChnlXCb phyChnlIdx).txState = .idle then
    -- busy before the command goes out, so that a write from `tx_isr` does not start another one
    let s := if (s.phyChnlXCb phyChnlIdx).exceptionMode = 0 then
      s.updPhy phyChnlIdx fun c => { c with txState := .busy } else s
    let r := mbPhyChnlTxCmd cfg send txIsr logChnl s
    if r.1 ≠ 0 then r.2.updPhy phyChnlIdx fun c => { c with txState := .idle } else r.2
  else s

inductive RxIsr
  | idle
  | ackExit (phyChnlIdx : Nat)
  | cmdExit (phyChnlIdx : Nat) (ack : MailboxData)
deriving DecidableEq, Repr

/-- `mb_phy_chnl_rx_ack_isr` up to and including the `tx_cmpl_isr` call. -/
def mbPhyChnlRxAckIsr (ack : MailboxData) (s : Chnl H) : RxIsr × Chnl H :=
  let logChnl := ack.hdr.logicalChnl
  let phyChnlIdx := getDstCpuId logChnl
  let logChnlIdx := getLogChnlId logChnl
  if cfg.selfCpu ≠ getSrcCpuId logChnl then (.idle, s)
  else if cfg.selfCpu = phyChnlIdx then (.idle, s)
  else if phyChnlNum ≤ phyChnlIdx then (.idle, s)
  else if cfg.logChnlNum phyChnlIdx ≤ logChnlIdx then (.idle, s)
  else if logChnl ≠ (s.phyChnlXCb phyChnlIdx).txLogChnl ∨ ack.hdr.txSeq ≠ (s.phyChnlXCb phyChnlIdx).txSeq then
    (.idle, s.updPhy phyChnlIdx fun c => { c with rxFaultCnt := (c.rxFaultCnt + 1) ||| 0x40000000#32 })
  else if (s.logChnlCb phyChnlIdx logChnlIdx).txCmplIsr.isSome then
    (.ackExit phyChnlIdx, s.note (.txCmplIsr phyChnlIdx logChnlIdx
      (ack.setHdr { ack.hdr with logicalChnl := 0, txSeq := 0, ctrl := 0 })))
  else (.ackExit phyChnlIdx, s)

/-- The priority search of `mb_phy_chnl_rx_ack_isr`: the first of the `n` channels that is not idle. -/
def searchBusy (log : Nat → MbLogChnlCb) (n : Nat) : Option Nat :=
  (List.range n).find? fun i => (log i).txState ≠ .idle

/-- The critical section at the end of `mb_phy_chnl_rx_ack_isr`. -/
def mbPhyChnlRxAckIsrExit (txIsr : Chnl H → Chnl H) (phyChnlIdx : Nat) (s : Chnl H) : Chnl H :=
  match searchBusy (s.logChnlCb phyChnlIdx) (cfg.logChnlNum phyChnlIdx) with
  | none => s.updPhy phyChnlIdx fun c => { c with txState := .idle }
  | some logChnlIdx =>
    let r := mbPhyChnlTxCmd cfg send txIsr (logChnlOf cfg.selfCpu phyChnlIdx logChnlIdx) s
    if r.1 ≠ 0 then r.2.updPhy phyChnlIdx fun c => { c with txState := .idle } else r.2

/-- `mb_phy_chnl_rx_cmd_isr` up to and including the `rx_isr` call; `rsp` is what `rx_isr` leaves in
the command buffer. -/
def mbPhyChnlRxCmdIsr (cmd rsp : MailboxData) (s : Chnl H) : RxIsr × Chnl H :=
  let logChnl := cmd.hdr.logicalChnl
  let phyChnlIdx := getSrcCpuId logChnl
  let logChnlIdx := getLogChnlId logChnl
  if cfg.selfCpu ≠ getDstCpuId logChnl then (.idle, s)
  else if cfg.selfCpu = phyChnlIdx then (.idle, s)
  else if phyChnlNum ≤ phyChnlIdx then (.idle, s)
  else if cfg.logChnlNum phyChnlIdx ≤ logChnlIdx then
    (.idle, s.updPhy phyChnlIdx fun c => { c with rxFaultCnt := (c.rxFaultCnt + 1) ||| 0x80000000#32 })
  else
    let chnlHdr := cmd.hdr
    let called := (s.logChnlCb phyChnlIdx logChnlIdx).rxIsr.isSome
    let s := if called then
      s.note (.rxIsr phyChnlIdx logChnlIdx
        (cmd.setHdr { cmd.hdr with logicalChnl := 0, txSeq := 0, ctrl := 0, state := 0 })) else s
    let buff := if called then rsp else cmd
    let chnlHdr := if called then chnlHdr else { chnlHdr with state := chnlHdr.state ||| chnlStateComFail }
    if chnlHdr.ctrl &&& chnlCtrlSyncTx ≠ 0 then (.idle, s)
    else
      (.cmdExit phyChnlIdx (buff.setHdr { chnlHdr with ctrl := chnlHdr.ctrl ||| chnlCtrlAckBox }), s)

/-- The end of `mb_phy_chnl_rx_cmd_isr`: the ACK goes out once. -/
def mbPhyChnlRxCmdIsrExit (phyChnlIdx : Nat) (ack : MailboxData) (s : Chnl H) : Chnl H :=
  let r := send s.hw cfg.selfCpu phyChnlIdx ack
  let s := { s with hw := r.2 }
  if r.1 ≠ .ok then
    s.updPhy phyChnlIdx fun c => { c with txFaultCnt := (c.txFaultCnt + 1) ||| 0x80000000#32 }
  else s

def mbPhyChnlRxIsr (m rsp : MailboxData) (s : Chnl H) : RxIsr × Chnl H :=
  if m.hdr.ctrl &&& chnlCtrlAckBox ≠ 0 then mbPhyChnlRxAckIsr cfg m s
  else mbPhyChnlRxCmdIsr cfg m rsp s

/-- One pass of the polling loop of `mb_phy_chnl_tx_cmd_sync`, which goes round again while it gets
`BK_ERR_MAILBOX_TIMEOUT`. -/
def mbPhyChnlTxCmdSync (logChnl : BitVec 8) (cmd : MailboxData) (s : Chnl H) : BkErr × Chnl H :=
  let phyChnlIdx := getDstCpuId logChnl
  if cfg.selfCpu ≠ getSrcCpuId logChnl then (.errParam, s)
  else if cfg.selfCpu = phyChnlIdx then (.errParam, s)
  else if phyChnlNum ≤ phyChnlIdx then (.errParam, s)
  else
    let r := send s.hw cfg.selfCpu phyChnlIdx
      (cmd.setHdr { cmd.hdr with logicalChnl := logChnl, txSeq := 0, ctrl := chnlCtrlSyncTx, state := 0 })
    (r.1, { s with hw := r.2 })

def mbPhyChnlReset (dstCpu : Nat) (s : Chnl H) : Chnl H :=
  if cfg.selfCpu = dstCpu then s
  else
    let cmdBuf : MailboxData := (⟨0, 0, 0, 0⟩ : MailboxData).setHdr
      ⟨0, 0, chnlCtrlReset ||| chnlCtrlAckBox, 0, cpxLogChnlStart dstCpu cfg.selfCpu⟩
    { s with hw := (send s.hw cfg.selfCpu dstCpu cmdBuf).2 }

/-! ### Logical channel APIs -/

def mbChnlInit (mailboxInit : BkErr) (s : Chnl H) : BkErr × Chnl H :=
  if s.mbChnnlInitOk then (.ok, s)
  else
    let s := { s with phyChnlXCb := fun _ => {}, logChnlCb := fun _ _ => {} }
    if mailboxInit ≠ .ok then (mailboxInit, s)
    else (.ok, { mbPhyChnlReset cfg send 0 s with mbChnnlInitOk := true })

def mbChnlOpen (logChnl : BitVec 8) (callbackParam : Nat) (mailboxInit : BkErr) (s : Chnl H) :
    BkErr × Chnl H :=
  let r := if s.mbChnnlInitOk then (.ok, s) else mbChnlInit cfg send mailboxInit s
  let s := r.2
  let phyChnlIdx := getDstCpuId logChnl
  let logChnlIdx := getLogChnlId logChnl
  if r.1 ≠ .ok then (r.1, s)
  else if cfg.selfCpu ≠ getSrcCpuId logChnl then (.errParam, s)
  else if cfg.selfCpu = phyChnlIdx then (.errParam, s)
  else if phyChnlNum ≤ phyChnlIdx then (.errParam, s)
  else if cfg.logChnlNum phyChnlIdx ≤ logChnlIdx then (.errParam, s)
  else if (s.logChnlCb phyChnlIdx logChnlIdx).inUsed then (.errOpen, s)
  else
    (.ok, (s.updLog phyChnlIdx logChnlIdx fun c =>
      { c with inUsed := true, isrParam := callbackParam }).note (.opened phyChnlIdx logChnlIdx))

def mbChnlClose (logChnl : BitVec 8) (s : Chnl H) : BkErr × Chnl H :=
  let phyChnlIdx := getDstCpuId logChnl
  let logChnlIdx := getLogChnlId logChnl
  if cfg.selfCpu ≠ getSrcCpuId logChnl then (.errParam, s)
  else if phyChnlNum ≤ phyChnlIdx then (.errParam, s)
  else if cfg.logChnlNum phyChnlIdx ≤ logChnlIdx then (.errParam, s)
  else if !(s.logChnlCb phyChnlIdx logChnlIdx).inUsed then (.errState, s)
  else
    (.ok, (s.updLog phyChnlIdx logChnlIdx fun c =>
      { c with inUsed := false, txState := .idle, rxIsr := none, txIsr := none, txCmplIsr := none }).note
        (.closed phyChnlIdx logChnlIdx))

def mbChnlWrite (txIsr : Chnl H → Chnl H) (logChnl : BitVec 8) (cmdBuf : MailboxData) (s : Chnl H) :
    BkErr × Chnl H :=
  let phyChnlIdx := getDstCpuId logChnl
  let logChnlIdx := getLogChnlId logChnl
  if cfg.selfCpu ≠ getSrcCpuId logChnl then (.errParam, s)
  else if cfg.selfCpu = phyChnlIdx then (.errParam, s)
  else if phyChnlNum ≤ phyChnlIdx then (.errParam, s)
  else if cfg.logChnlNum phyChnlIdx ≤ logChnlIdx then (.errParam, s)
  else if !(s.logChnlCb phyChnlIdx logChnlIdx).inUsed then (.errState, s)
  else if (s.logChnlCb phyChnlIdx logChnlIdx).txState ≠ .idle then (.errBusy, s)
  else
    let s := (s.updLog phyChnlIdx logChnlIdx fun c =>
      { c with chnnlTxBuff := cmdBuf, txState := .busy }).note (.written phyChnlIdx logChnlIdx cmdBuf)
    (.ok, mbPhyChnlStartTx cfg send txIsr logChnl s)

/-- The commands of `mb_chnl_ctrl` with their parameter; `none` is a `NULL` parameter. -/
inductive CtrlCmd
  | getStatus (paramNull : Bool)
  | setRxIsr (param : Option Nat)
  | setTxIsr (param : Option Nat)
  | setTxCmplIsr (param : Option Nat)
  | writeSync (param : Option MailboxData)
  | other (cmd : BitVec 8)
deriving DecidableEq, Repr

def mbChnlCtrl (logChnl : BitVec 8) (cmd : CtrlCmd) (s : Chnl H) : BkErr × Chnl H :=
  let phyChnlIdx := getDstCpuId logChnl
  let logChnlIdx := getLogChnlId logChnl
  if cfg.selfCpu ≠ getSrcCpuId logChnl then (.errParam, s)
  else if cfg.selfCpu = phyChnlIdx then (.errParam, s)
  else if phyChnlNum ≤ phyChnlIdx then (.errParam, s)
  else if cfg.logChnlNum phyChnlIdx ≤ logChnlIdx then (.errParam, s)
  else if !(s.logChnlCb phyChnlIdx logChnlIdx).inUsed then (.errState, s)
  else match cmd with
    | .getStatus true => (.errNullParam, s)
    | .getStatus false =>
      (.ok, s.note (.status phyChnlIdx logChnlIdx (s.logChnlCb phyChnlIdx logChnlIdx).txState))
    | .setRxIsr f => (.ok, s.updLog phyChnlIdx logChnlIdx fun c => { c with rxIsr := f })
    | .setTxIsr f => (.ok, s.updLog phyChnlIdx logChnlIdx fun c => { c with txIsr := f })
    | .setTxCmplIsr f => (.ok, s.updLog phyChnlIdx logChnlIdx fun c => { c with txCmplIsr := f })
    | .writeSync none => (.errNullParam, s)
    | .writeSync (some m) => mbPhyChnlTxCmdSync cfg send logChnl m s
    | .other _ => (.errNotSupport, s)

def mbChnlSetExceptionMode (phyChnlIdx : Nat) (exceptionMode : BitVec 8) (s : Chnl H) : BkErr × Chnl H :=
  (.ok, s.updPhy phyChnlIdx fun c => { c with exceptionMode := exceptionMode })

/-! ### Calls and what a callback does -/

inductive ApiCall
  | openChnl (logChnl : BitVec 8) (callbackParam : Nat) (mailboxInit : BkErr)
  | close (logChnl : BitVec 8)
  | ctrl (logChnl : BitVec 8) (cmd : CtrlCmd)
  | write (logChnl : BitVec 8) (cmdBuf : MailboxData)
  | setExceptionMode (phyChnlIdx : Nat) (exceptionMode : BitVec 8)
deriving DecidableEq, Repr

/-- What a `tx_isr` does: the API calls it makes, each with what the `tx_isr` of the transmission it may start does in
turn -/
inductive Script
  | done
  | call (c : ApiCall) (isr next : Script)
deriving DecidableEq, Repr

def ApiCall.run (txIsr : Chnl H → Chnl H) (s : Chnl H) : ApiCall → BkErr × Chnl H
  | .openChnl logChnl callbackParam mailboxInit => mbChnlOpen cfg send logChnl callbackParam mailboxInit s
  | .close logChnl => mbChnlClose cfg logChnl s
  | .ctrl logChnl cmd => mbChnlCtrl cfg send logChnl cmd s
  | .write logChnl cmdBuf => mbChnlWrite cfg send txIsr logChnl cmdBuf s
  | .setExceptionMode p v => mbChnlSetExceptionMode p v s

def Script.run : Script → Chnl H → Chnl H
  | .done, s => s
  | .call c isr next, s => next.run (c.run cfg send isr.run s).2

end

def Script.all (p : ApiCall → Bool) : Script → Bool
  | .done => true
  | .call c isr next => p c && isr.all p && next.all p

end Bk7258

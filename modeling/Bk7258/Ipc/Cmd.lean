import Bk7258.Lib.Lts
import Bk7258.Mailbox.Types

/-!
# Commands on the hardware-control channel

`ipc_send_cmd` and the interrupt callbacks of `mb_ipc_cmd.c`, with the mailbox channel and the peer. The answer to a
command comes with its ACK or, after an ACK in state `ACK_STATE_PENDING`, as a command of the peer with
`IPC_RSP_CMD_FLAG` set. `chnl_sema` lets one call at a time into the body of `ipc_send_cmd`, which is cut where an
interrupt can make a difference.
-/

namespace Bk7258

abbrev Bytes := List (BitVec 8)

def memcpy (dst src : Bytes) (len : Nat) : Bytes := src.take len ++ dst.drop len

inductive AckState
  | pending
  | complete
  | fail
deriving DecidableEq, Repr

def ipcRspCmdFlag : BitVec 8 := 0x80

def ipcRspCmdMask : BitVec 8 := 0x7F

/-- `IPC_XCHG_DATA_MAX`, the size of `rsp_buf` and `cmd_buf` -/
def ipcXchgDataMax : Nat := 40

/-- `ipc_cmd_t`; `cmdBuff` is what the pointer points to when the message is read, `none` for `NULL`. -/
structure IpcCmd where
  cmd : BitVec 8
  cmdBuff : Option Bytes
  cmdDataLen : Nat
deriving DecidableEq, Repr

/-- `ipc_rsp_t`; `comFail` is the bit `CHNL_STATE_COM_FAIL` of the header. -/
structure IpcRsp where
  cmd : BitVec 8
  comFail : Bool
  ackState : AckState
  rspBuff : Option Bytes
  rspDataLen : Nat
deriving DecidableEq, Repr

/-- `ipc_chnl_cb_t` of an initialised channel; `chnl_sema` is `IpcChnl.cur`. The port's semaphores have no
maximum, so `rspSema` is a count. -/
structure IpcChnlCb where
  rspSema : Nat
  txXchgBuff : Bytes
  txCmd : BitVec 8
  txCmdInProcess : Bool
  txCmdFailed : Bool
  rspBuf : Bytes
  rspLen : Nat
  rxXchgBuff : Bytes
  rxCmd : BitVec 8
  rxCmdInProcess : Bool
  cmdBuf : Bytes
  cmdLen : Nat
deriving DecidableEq, Repr

namespace IpcChnlCb
variable (cb : IpcChnlCb)

def takeRsp (buff : Option Bytes) (len : Nat) : IpcChnlCb :=
  let cb := { cb with txCmdFailed := false, txCmdInProcess := false }
  let cb :=
    if ipcXchgDataMax < len then { cb with txCmdFailed := true, rspLen := 0 }
    else
      match buff with
      | some src =>
        if 0 < len then { cb with rspBuf := memcpy cb.rspBuf src len, rspLen := len }
        else { cb with rspLen := 0 }
      | none => { cb with rspLen := 0 }
  { cb with rspSema := cb.rspSema + 1 }

def ipcCmdTxCmplIsr (ack : IpcRsp) : IpcChnlCb :=
  if ack.cmd = cb.txCmd then
    if !cb.txCmdInProcess then cb
    else if ack.comFail || ack.ackState = .fail then
      { cb with txCmdFailed := true, txCmdInProcess := false, rspSema := cb.rspSema + 1 }
    else if ack.ackState = .complete then cb.takeRsp ack.rspBuff ack.rspDataLen
    else cb
  else cb

/-- The second component is the ACK, which is built in the buffer of the command. `rxCmdHandler` maps a
command and its data to the state and the data of the answer. -/
def ipcCmdRxIsr (rxCmdHandler : BitVec 8 → Bytes → AckState × Bytes) (m : IpcCmd) : IpcChnlCb × IpcRsp :=
  let ack : IpcRsp := ⟨m.cmd, false, .fail, m.cmdBuff, m.cmdDataLen⟩
  if m.cmd &&& ipcRspCmdFlag ≠ 0 then
    if !cb.txCmdInProcess then (cb, ack)
    else if cb.txCmd ≠ m.cmd &&& ipcRspCmdMask then (cb, ack)
    else
      (cb.takeRsp m.cmdBuff m.cmdDataLen,
        { ack with ackState := .complete, rspBuff := none, rspDataLen := 0 })
  else
    let cb := { cb with rxCmd := m.cmd }
    if ipcXchgDataMax < m.cmdDataLen then ({ cb with rxCmdInProcess := false }, ack)
    else
      let cb :=
        match m.cmdBuff with
        | some src =>
          if 0 < m.cmdDataLen then
            { cb with cmdBuf := memcpy cb.cmdBuf src m.cmdDataLen, cmdLen := m.cmdDataLen }
          else { cb with cmdLen := 0 }
        | none => { cb with cmdLen := 0 }
      let r := rxCmdHandler cb.rxCmd (cb.cmdBuf.take cb.cmdLen)
      let cb := { cb with
        rxXchgBuff := memcpy cb.rxXchgBuff r.2 r.2.length
        rxCmdInProcess := decide (r.1 = .pending) }
      (cb, { ack with ackState := r.1, rspBuff := some cb.rxXchgBuff, rspDataLen := r.2.length })

end IpcChnlCb

/-- The arguments of `ipc_send_cmd`; `rspBufLen` is `none` for a `NULL` buffer. "cmd id can NOT great than
0x7F". -/
structure IpcArgs where
  cmd : BitVec 8
  cmdBuf : Option Bytes
  cmdLen : Nat
  rspBufLen : Option Nat
  cmd_flag : cmd &&& ipcRspCmdFlag = 0
deriving DecidableEq, Repr

namespace IpcArgs
variable (a : IpcArgs)

def fillXchg (xchg : Bytes) : Bytes :=
  match a.cmdBuf with
  | some buf => memcpy xchg buf a.cmdLen
  | none => xchg

/-- The end of `ipc_send_cmd` after `rsp_sema`: what it returns and what it copies to the caller's buffer. -/
def takeResult (cb : IpcChnlCb) : BkErr × Option Bytes :=
  if cb.txCmdFailed then (.fail, none)
  else
    match a.rspBufLen with
    | none | some 0 => (.ok, none)
    | some n => if n < cb.rspLen then (.errParam, none) else (.ok, some (cb.rspBuf.take cb.rspLen))

end IpcArgs

inductive IpcPc
  | started
  | filled
  | waiting
  | got
  | failed (ret : BkErr)
deriving DecidableEq, Repr

/-- The peer's ACK of a command; `noApp` is `CHNL_STATE_COM_FAIL`. -/
inductive IpcAnswer
  | noApp
  | fail
  | pending
  | complete (rsp : Bytes)
deriving DecidableEq, Repr

def IpcAnswer.ack (cmd : BitVec 8) (xchg : Bytes) : IpcAnswer → IpcRsp
  | .noApp => ⟨cmd, true, .fail, some xchg, 0⟩
  | .fail => ⟨cmd, false, .fail, some xchg, 0⟩
  | .pending => ⟨cmd, false, .pending, some xchg, 0⟩
  | .complete rsp => ⟨cmd, false, .complete, some xchg, rsp.length⟩

def IpcAnswer.rspData : IpcAnswer → Option Bytes
  | .complete rsp => some rsp
  | _ => none

/-- A call that has returned. `src` is the call whose answer posted `rsp_sema` last. -/
structure IpcResult where
  call : Nat
  ret : BkErr
  src : Option Nat
  copied : Option Bytes
deriving DecidableEq, Repr

/-- `written` is the command in the channel's buffer, `sent` the one the physical channel has taken, with the peer's ACK
when it is on its way back; `pending` are the commands the peer has still to answer, `rsps` the response commands on
their way. `rspOf`, `answers` and `results` record which call's answer was accepted last, what the peer has answered,
and the calls that have returned. -/
structure IpcChnl where
  cb : IpcChnlCb
  cur : Option (Nat × IpcPc)
  nextCall : Nat
  written : Option Nat
  sent : Option (Nat × Option IpcAnswer)
  pending : List Nat
  rsps : List (Nat × Bytes)
  rspOf : Option Nat
  answers : List (Nat × Bytes)
  results : List IpcResult
deriving DecidableEq, Repr

/-- `ackIsr`, `rspIsr` and `rxCmd` are the interrupts for the ACK, for the next response command and for a
command of the peer; `start`: the physical channel takes the written command. -/
inductive IpcAct
  | enter
  | fill
  | write
  | get
  | timeout
  | leave
  | start
  | peer (a : IpcAnswer)
  | rsp (data : Bytes)
  | ackIsr
  | rspIsr
  | rxCmd (cmd : BitVec 8) (data : Bytes)
deriving DecidableEq, Repr

namespace IpcChnl
variable (args : Nat → IpcArgs) (rxCmdHandler : BitVec 8 → Bytes → AckState × Bytes) (s : IpcChnl)

def setPc (c : Nat) (p : IpcPc) : IpcChnl := { s with cur := some (c, p) }

def interrupt (c : Nat) (cb : IpcChnlCb) : IpcChnl :=
  { s with cb, rspOf := if s.cb.txCmdInProcess && !cb.txCmdInProcess then some c else s.rspOf }

def finish (c : Nat) (r : BkErr × Option Bytes) : IpcChnl :=
  { s with
    cb := { s.cb with txCmdInProcess := false }
    cur := none
    results := s.results ++ [⟨c, r.1, s.rspOf, r.2⟩] }

def enterCall : IpcChnl :=
  { s.setPc s.nextCall .started with
    cb := { s.cb with txCmd := (args s.nextCall).cmd, txCmdFailed := false, txCmdInProcess := true }
    nextCall := s.nextCall + 1 }

def fill (c : Nat) : IpcChnl :=
  { s.setPc c .filled with cb := { s.cb with txXchgBuff := (args c).fillXchg s.cb.txXchgBuff } }

def write (c : Nat) : IpcChnl := { s.setPc c .waiting with written := some c }

def get (c : Nat) : IpcChnl := { s.setPc c .got with cb := { s.cb with rspSema := s.cb.rspSema - 1 } }

def peerAck (c : Nat) : IpcAnswer → IpcChnl
  | .pending => { s with sent := some (c, some .pending), pending := s.pending ++ [c] }
  | .complete rsp =>
    { s with
      sent := some (c, some (.complete rsp))
      cb := { s.cb with txXchgBuff := memcpy s.cb.txXchgBuff rsp rsp.length }
      answers := s.answers ++ [(c, rsp)] }
  | a => { s with sent := some (c, some a) }

def step : IpcAct → Option IpcChnl
  | .enter => if s.cur = none then some (s.enterCall args) else none
  | .fill =>
    match s.cur with
    | some (c, .started) =>
      if ipcXchgDataMax < (args c).cmdLen then some (s.setPc c (.failed .errParam)) else some (s.fill args c)
    | _ => none
  | .write =>
    match s.cur with
    | some (c, .filled) =>
      if s.written.isSome then some (s.setPc c (.failed .errBusy)) else some (s.write c)
    | _ => none
  | .get =>
    match s.cur with
    | some (c, .waiting) => if 0 < s.cb.rspSema then some (s.get c) else none
    | _ => none
  | .timeout =>
    match s.cur with
    | some (c, .waiting) => if s.cb.rspSema = 0 then some (s.setPc c (.failed .kTimeoutErr)) else none
    | _ => none
  | .leave =>
    match s.cur with
    | some (c, .got) => some (s.finish c ((args c).takeResult s.cb))
    | some (c, .failed ret) => some (s.finish c (ret, none))
    | _ => none
  | .start =>
    match s.written, s.sent with
    | some c, none => some { s with written := none, sent := some (c, none) }
    | _, _ => none
  | .peer a =>
    match s.sent with
    -- the peer answers in order: only an ACK without an answer may overtake a pending command
    | some (c, none) => if a = .pending ∨ s.pending = [] then some (s.peerAck c a) else none
    | _ => none
  | .rsp data =>
    match s.pending with
    | c :: rest =>
      some { s with pending := rest, rsps := s.rsps ++ [(c, data)], answers := s.answers ++ [(c, data)] }
    | [] => none
  | .ackIsr =>
    match s.sent with
    | some (c, some a) =>
      some { s.interrupt c (s.cb.ipcCmdTxCmplIsr (a.ack (args c).cmd s.cb.txXchgBuff)) with sent := none }
    | _ => none
  | .rspIsr =>
    match s.rsps with
    | (c, data) :: rest =>
      let m : IpcCmd := ⟨(args c).cmd ||| ipcRspCmdFlag, some data, data.length⟩
      some { s.interrupt c (s.cb.ipcCmdRxIsr rxCmdHandler m).1 with rsps := rest }
    | [] => none
  | .rxCmd cmd data =>
    if cmd &&& ipcRspCmdFlag = 0 then
      some { s with cb := (s.cb.ipcCmdRxIsr rxCmdHandler ⟨cmd, some data, data.length⟩).1 }
    else none

end IpcChnl

def IpcChnl.init : IpcChnl where
  cb := ⟨0, List.replicate 128 0, 0, false, false, List.replicate 40 0, 0, List.replicate 128 0, 0, false,
    List.replicate 40 0, 0⟩
  cur := none
  nextCall := 0
  written := none
  sent := none
  pending := []
  rsps := []
  rspOf := none
  answers := []
  results := []

/-! ### What the callbacks do -/

namespace IpcChnlCb
variable {cb : IpcChnlCb} {rsp : Bytes}

theorem take_memcpy {dst src : Bytes} {n : Nat} (h : n ≤ src.length) : (memcpy dst src n).take n = src.take n := by
  rw [memcpy, List.take_append_of_le_length (by simp [h]), List.take_take, Nat.min_self]

structure Accepted (cb cb' : IpcChnlCb) (rsp : Option Bytes) : Prop where
  rspSema : cb'.rspSema = cb.rspSema + 1
  txXchgBuff : cb'.txXchgBuff = cb.txXchgBuff
  inProcess : cb'.txCmdInProcess = false
  rsp : cb'.txCmdFailed = false → rsp = some (cb'.rspBuf.take cb'.rspLen)

theorem takeRsp_accepted {src : Bytes} (h : src.take rsp.length = rsp) :
    Accepted cb (cb.takeRsp (some src) rsp.length) rsp := by
  have hle : rsp.length ≤ src.length := by
    have := congrArg List.length h
    simp only [List.length_take] at this
    omega
  unfold takeRsp
  by_cases hmax : ipcXchgDataMax < rsp.length
  · simp only [hmax, if_true]
    exact ⟨rfl, rfl, rfl, fun h => nomatch h⟩
  · simp only [hmax, if_false]
    by_cases h0 : 0 < rsp.length
    · simp only [h0, if_true]
      refine ⟨rfl, rfl, rfl, fun _ => congrArg some ?_⟩
      exact h.symm.trans (take_memcpy hle).symm
    · simp only [h0, if_false]
      exact ⟨rfl, rfl, rfl, fun _ => congrArg some (List.length_eq_zero_iff.1 (by omega))⟩

theorem ipcCmdTxCmplIsr_ignored {ack : IpcRsp}
    (h : cb.txCmdInProcess = false ∨ ack.cmd ≠ cb.txCmd ∨ ack.comFail = false ∧ ack.ackState = .pending) :
    cb.ipcCmdTxCmplIsr ack = cb := by
  unfold ipcCmdTxCmplIsr
  rcases h with h | h | ⟨h₁, h₂⟩
  · simp [h]
  · simp [h]
  · simp [h₁, h₂]

theorem ipcCmdTxCmplIsr_accepted {a : IpcAnswer} (hp : cb.txCmdInProcess) (ha : a ≠ .pending)
    (hrsp : ∀ r, a = .complete r → cb.txXchgBuff.take r.length = r) :
    Accepted cb (cb.ipcCmdTxCmplIsr (a.ack cb.txCmd cb.txXchgBuff)) a.rspData := by
  cases a with
  | pending => exact absurd rfl ha
  | noApp | fail => simp only [ipcCmdTxCmplIsr, IpcAnswer.ack, hp]; exact ⟨rfl, rfl, rfl, fun h => nomatch h⟩
  | complete r => simpa [ipcCmdTxCmplIsr, IpcAnswer.ack, IpcAnswer.rspData, hp] using takeRsp_accepted (hrsp r rfl)

section
variable {rxCmdHandler : BitVec 8 → Bytes → AckState × Bytes} {cmd : BitVec 8}

private theorem rspCmd (h : cmd &&& ipcRspCmdFlag = 0) :
    (cmd ||| ipcRspCmdFlag) &&& ipcRspCmdFlag ≠ 0 ∧ (cmd ||| ipcRspCmdFlag) &&& ipcRspCmdMask = cmd := by
  revert cmd; decide

theorem ipcCmdRxIsr_rsp (hc : cmd &&& ipcRspCmdFlag = 0) (data : Bytes) :
    (cb.ipcCmdRxIsr rxCmdHandler ⟨cmd ||| ipcRspCmdFlag, some data, data.length⟩).1 =
      if cb.txCmdInProcess = true ∧ cb.txCmd = cmd then cb.takeRsp (some data) data.length else cb := by
  obtain ⟨hf, hm⟩ := rspCmd hc
  unfold ipcCmdRxIsr
  simp only [hf, hm, ne_eq, not_false_eq_true, if_true]
  cases cb.txCmdInProcess with
  | false => rfl
  | true => by_cases h : cb.txCmd = cmd <;> simp [h]

end

structure TxEq (cb cb' : IpcChnlCb) : Prop where
  rspSema : cb'.rspSema = cb.rspSema
  txXchgBuff : cb'.txXchgBuff = cb.txXchgBuff
  txCmd : cb'.txCmd = cb.txCmd
  inProcess : cb'.txCmdInProcess = cb.txCmdInProcess
  failed : cb'.txCmdFailed = cb.txCmdFailed
  rspBuf : cb'.rspBuf = cb.rspBuf
  rspLen : cb'.rspLen = cb.rspLen

theorem ipcCmdRxIsr_cmd {m : IpcCmd} (rxCmdHandler) (h : m.cmd &&& ipcRspCmdFlag = 0) :
    TxEq cb (cb.ipcCmdRxIsr rxCmdHandler m).1 := by
  unfold ipcCmdRxIsr
  simp only [h, ne_eq, not_true, if_false]
  split
  · exact ⟨rfl, rfl, rfl, rfl, rfl, rfl, rfl⟩
  · cases m.cmdBuff with
    | none => exact ⟨rfl, rfl, rfl, rfl, rfl, rfl, rfl⟩
    | some src => dsimp only; split <;> exact ⟨rfl, rfl, rfl, rfl, rfl, rfl, rfl⟩

end IpcChnlCb
end Bk7258

import Bk7258.Mailbox.Types

/-!
# Sockets of mb_ipc

The packets and sockets of `mb_ipc.c` and the functions that look at one socket. A command is acknowledged twice: the
mailbox ACK carries the `route_status`, and the answer of the peer's application comes as a packet of its own, with
`MB_IPC_RSP_FLAG` set. The functions return the packet they hand to `ipc_socket_tx_rsp` and the posts of
`tx_notify_sema`.
-/

namespace Bk7258

inductive MbIpcCmdId
  | connect
  | disconnect
  | send
  | other (id : Nat)
deriving DecidableEq, Repr

inductive IpcRouteStatus
  | statusOk
  | queueFull
  | unreachable
  | unsolicitedRsp
  | unmatchedRsp
  | rxBusy
deriving DecidableEq, Repr

inductive IpcApiImplStatus
  | statusOk
  | notInited
  | rxBusy
  | rxNotConnect
  | rxDataFailed
deriving DecidableEq, Repr

/-- `MB_IPC_*`; `routeFailed` and `apiFailed` are the codes from `MB_IPC_ROUTE_BASE_FAILED` and `MB_IPC_API_BASE_FAILED`
on. -/
inductive MbIpcStatus
  | txOk
  | txFailed
  | disconnected
  | invalidPort
  | invalidState
  | notInited
  | txTimeout
  | txBusy
  | rxDataFailed
  | routeFailed (r : IpcRouteStatus)
  | apiFailed (a : IpcApiImplStatus)
deriving DecidableEq, Repr

def isServerPort (port : Nat) : Bool := 1 ≤ port && port ≤ 4

def isClientPort (port : Nat) : Bool := 16 ≤ port && port ≤ 27

/-- `mb_ipc_cmd_t`: `rsp` is `MB_IPC_RSP_FLAG` of `hdr.cmd`, `comFail` the bit `CHNL_STATE_COM_FAIL` of
`hdr.state`. The default is the packet after `memset`. -/
structure MbIpcCmd where
  cmd : MbIpcCmdId := .connect
  rsp : Bool := false
  comFail : Bool := false
  dstPort : Nat := 0
  dstCpu : Nat := 0
  srcPort : Nat := 0
  srcCpu : Nat := 0
  tag : BitVec 8 := 0
  apiImplStatus : IpcApiImplStatus := .statusOk
  routeStatus : IpcRouteStatus := .statusOk
  cmdDataLen : Nat := 0
  cmdDataCrc8 : BitVec 8 := 0
  userCmd : BitVec 8 := 0
  cmdDataBuff : BitVec 32 := 0
deriving DecidableEq, Repr

/-- The comparison of a packet with an ACK: `hdr.cmd` and the bytes of `param1` under `IPC_PARAM1_MASK`. -/
def MbIpcCmd.sameCmd (c ack : MbIpcCmd) : Bool :=
  c.dstPort = ack.dstPort && c.dstCpu = ack.dstCpu && c.srcPort = ack.srcPort && c.srcCpu = ack.srcCpu &&
    c.tag = ack.tag && c.cmd = ack.cmd && c.rsp = ack.rsp

/-- The ACK of a packet: the same buffer with the status of its delivery. -/
def MbIpcCmd.ack (c : MbIpcCmd) (comFail : Bool) (status : IpcRouteStatus) : MbIpcCmd :=
  { c with comFail := comFail, routeStatus := status }

@[simp] theorem MbIpcCmd.sameCmd_ack (c : MbIpcCmd) (f : Bool) (st : IpcRouteStatus) :
    c.sameCmd (c.ack f st) := by simp [MbIpcCmd.sameCmd, MbIpcCmd.ack]

/-- `mb_ipc_socket_t`: the bits of `use_flag` and `run_state` are `allocated`, `connected`, `txInProcess`
and `rxInProcess`. -/
structure MbIpcSocket where
  allocated : Bool := false
  connected : Bool := false
  dstPort : Nat := 0
  dstCpu : Nat := 0
  srcPort : Nat
  srcCpu : Nat
  txInProcess : Bool := false
  rxInProcess : Bool := false
  rxTag : BitVec 8 := 0
  txTag : BitVec 8 := 0
  txStatus : MbIpcStatus := .txOk
  txCmd : MbIpcCmd := {}
  rxReadOffset : Nat := 0
  rxCmd : MbIpcCmd := {}
deriving DecidableEq, Repr

namespace MbIpcSocket
variable (s : MbIpcSocket)

def setAddr (c : MbIpcCmd) : MbIpcCmd :=
  { c with dstCpu := s.dstCpu, dstPort := s.dstPort, srcCpu := s.srcCpu, srcPort := s.srcPort }

/-- `ipc_socket_tx_cmpl_handler`; the second component is whether it posts `tx_notify_sema`. -/
def txCmplHandler (ack : MbIpcCmd) : MbIpcSocket × Bool :=
  if ack.rsp then
    let s := { s with rxInProcess := false }
    (if ack.cmd = .disconnect then { s with dstCpu := 0, dstPort := 0 } else s, false)
  else if !s.txCmd.sameCmd ack then (s, false)
  else if ack.comFail then ({ s with txStatus := .txFailed, txInProcess := false }, true)
  else if ack.routeStatus ≠ .statusOk then
    ({ s with txStatus := .routeFailed ack.routeStatus, txInProcess := false }, true)
  else (s, false)

/-- `ipc_socket_rx_rsp_handler` on a socket; the last component is whether it posts `tx_notify_sema`. -/
def rxRspHandler (rsp : MbIpcCmd) : IpcRouteStatus × MbIpcSocket × Bool :=
  if !s.txInProcess then (.unsolicitedRsp, s, false)
  else if s.txTag ≠ rsp.tag then (.unmatchedRsp, s, false)
  else if s.txCmd.rsp || s.txCmd.cmd ≠ rsp.cmd then (.unmatchedRsp, s, false)
  else if s.txCmd.tag ≠ rsp.tag then (.unmatchedRsp, s, false)
  else
    let status := if rsp.apiImplStatus ≠ .statusOk then .apiFailed rsp.apiImplStatus else .txOk
    (.statusOk, { s with txStatus := status, txInProcess := false }, true)

/-- What the receive side has decided: whether `rx_cmd` goes to `ipc_socket_tx_rsp`, whether the application is
notified, and whether `tx_notify_sema` is posted -/
structure RxRet where
  socket : MbIpcSocket
  rsp : Bool := false
  notify : Bool := false
  post : Bool := false

def rxCmdConnect : RxRet where
  socket := { s with connected := true, txInProcess := false, txStatus := .txOk }
  rsp := true

def rxCmdDisconnect : RxRet where
  socket := { s with
    txStatus := if s.txInProcess then .disconnected else s.txStatus
    connected := false
    txInProcess := false }
  rsp := true
  notify := isClientPort s.srcPort
  post := s.txInProcess

def rxCmdDefaultHandler : RxRet :=
  if !s.connected then ⟨{ s with rxCmd.apiImplStatus := .rxNotConnect }, true, false, false⟩
  else if s.rxTag = s.rxCmd.tag then ⟨s, true, false, false⟩
  else ⟨s, false, true, false⟩

/-- The part of `ipc_socket_rx_cmd_handler` for a socket that has no command in process. `rx_tag` is written
after the response is sent, which does not read it. -/
def rxCmdAccept (c : MbIpcCmd) : RxRet :=
  let s := { s with rxCmd := c, rxReadOffset := 0, rxInProcess := true }
  if !s.allocated then ⟨{ s with rxCmd.apiImplStatus := .notInited }, true, false, false⟩
  else
    let s := { s with rxCmd.apiImplStatus := .statusOk }
    let r :=
      match s.rxCmd.cmd with
      | .connect => s.rxCmdConnect
      | .disconnect => s.rxCmdDisconnect
      | _ => s.rxCmdDefaultHandler
    { r with socket.rxTag := r.socket.rxCmd.tag }

/-- `ipc_socket_rx_cmd_handler` on a socket: the route status, which the ACK carries, and the decision. -/
def rxCmdHandler (c : MbIpcCmd) : IpcRouteStatus × RxRet :=
  if s.rxInProcess then (.rxBusy, ⟨s, false, false, false⟩) else (.statusOk, s.rxCmdAccept c)

/-- `rx_cmd` as `ipc_socket_tx_rsp` hands it to the router. -/
def rspCmd : MbIpcCmd := s.setAddr { s.rxCmd with rsp := true }

/-- `ipc_socket_tx_rsp` to another CPU, when `ipc_router_send` returns `status`. -/
def txRsp (status : IpcRouteStatus) : MbIpcSocket :=
  { s with rxCmd := s.rspCmd, rxInProcess := s.rxInProcess && status = .statusOk }

/-- `tx_cmd` as `ipc_socket_tx_cmd` hands it to the router, with the next tag. -/
def nextCmd : MbIpcCmd := s.setAddr { s.txCmd with tag := s.txTag + 1 }

/-- `ipc_socket_tx_cmd` to another CPU, when `ipc_router_send` returns `status`. `MB_IPC_RETRY_MAX` is 1, so
`retry` is 0 in every call and each call takes a new tag. -/
def txCmdTo (status : IpcRouteStatus) : MbIpcSocket :=
  { s with txTag := s.txTag + 1, txCmd := s.nextCmd, txInProcess := status = .statusOk }

/-- `mb_ipc_send` up to the semaphore: its checks, and the command it fills in. -/
def sendStart (userCmd : BitVec 8) (len : Nat) (crc8 : BitVec 8) : MbIpcStatus × MbIpcSocket :=
  if !s.allocated then (.notInited, s)
  else if !s.connected then (.invalidState, s)
  else if s.txInProcess then (.txBusy, s)
  else
    (.txOk, { s with
      txCmd := { cmd := .send, userCmd := userCmd, cmdDataLen := len, cmdDataCrc8 := crc8 } })

/-- What `mb_ipc_recv_async` returns when it is not an error, the socket, and whether `rx_cmd` goes to
`ipc_socket_tx_rsp`. -/
structure RecvRet where
  ret : Except MbIpcStatus Nat
  socket : MbIpcSocket
  rsp : Bool

/-- `mb_ipc_recv_async` into a buffer of `buffLen` bytes; `crc8` is the checksum of what the command's buffer
holds now, which is memory of the sender. -/
def mbIpcRecvAsync (buffLen : Nat) (crc8 : BitVec 8) : RecvRet :=
  if !s.allocated then ⟨.error .notInited, s, false⟩
  else if !s.connected then ⟨.error .invalidState, s, false⟩
  else if !s.rxInProcess then ⟨.ok 0, s, false⟩
  else if s.rxCmd.rsp then ⟨.ok 0, s, false⟩
  else if s.rxCmd.cmd ≠ .send then ⟨.ok 0, { s with rxCmd.apiImplStatus := .rxDataFailed }, true⟩
  else if buffLen = 0 then ⟨.ok 0, s, true⟩
  else if s.rxCmd.cmdDataLen ≤ s.rxReadOffset then ⟨.ok 0, s, true⟩
  else
    let readLen := min (s.rxCmd.cmdDataLen - s.rxReadOffset) buffLen
    let s := { s with rxReadOffset := s.rxReadOffset + readLen }
    if crc8 ≠ s.rxCmd.cmdDataCrc8 then
      ⟨.error .rxDataFailed, { s with rxCmd.apiImplStatus := .rxDataFailed }, true⟩
    else ⟨.ok readLen, s, s.rxCmd.cmdDataLen ≤ s.rxReadOffset⟩

end MbIpcSocket

/-! ## What the functions do to a socket -/

namespace MbIpcSocket
variable {s : MbIpcSocket} {c : MbIpcCmd}

theorem rxCmdHandler_busy (h : s.rxInProcess) : s.rxCmdHandler c = (.rxBusy, ⟨s, false, false, false⟩) := by
  simp [rxCmdHandler, h]

theorem rxCmdHandler_new (hrx : s.rxInProcess = false) (ha : s.allocated) (hc : s.connected)
    (hcmd : c.cmd = .send) (htag : s.rxTag ≠ c.tag) : s.rxCmdHandler c = (.statusOk, ⟨{ s with
      rxCmd := { c with apiImplStatus := .statusOk }, rxReadOffset := 0, rxInProcess := true,
      rxTag := c.tag }, false, true, false⟩) := by
  simp [rxCmdHandler, hrx, rxCmdAccept, ha, hcmd, rxCmdDefaultHandler, hc, htag]

theorem sendStart_cases (s : MbIpcSocket) (userCmd : BitVec 8) (len : Nat) (crc8 : BitVec 8) :
    (∃ st ≠ .txOk, s.sendStart userCmd len crc8 = (st, s)) ∨ s.txInProcess = false ∧ s.sendStart userCmd len crc8 =
      (.txOk, { s with txCmd := { cmd := .send, userCmd := userCmd, cmdDataLen := len, cmdDataCrc8 := crc8 } }) := by
  unfold sendStart
  split
  · exact .inl ⟨.notInited, nofun, rfl⟩
  split
  · exact .inl ⟨.invalidState, nofun, rfl⟩
  split
  · exact .inl ⟨.txBusy, nofun, rfl⟩
  next htx => exact .inr ⟨by simpa using htx, rfl⟩

theorem sendStart_txOk {a : MbIpcSocket} {userCmd crc8 : BitVec 8} {len : Nat}
    (h : s.sendStart userCmd len crc8 = (.txOk, a)) : s.txInProcess = false ∧
      a = { s with txCmd := { cmd := .send, userCmd := userCmd, cmdDataLen := len, cmdDataCrc8 := crc8 } } := by
  rcases s.sendStart_cases userCmd len crc8 with ⟨st, hst, he⟩ | ⟨htx, he⟩
  · rw [he] at h
    exact absurd (Prod.ext_iff.1 h).1 hst
  · rw [he] at h
    exact ⟨htx, (Prod.ext_iff.1 h).2.symm⟩

theorem mbIpcRecvAsync_socket (s : MbIpcSocket) (len : Nat) (crc8 : BitVec 8) : ∃ o a,
    (s.mbIpcRecvAsync len crc8).socket = { s with rxReadOffset := o, rxCmd.apiImplStatus := a } := by
  -- one branch at a time: splitting the whole chain of tests copies it into every case
  have hif {p : Prop} [Decidable p] {x y : RecvRet}
      (hx : ∃ o a, x.socket = { s with rxReadOffset := o, rxCmd.apiImplStatus := a })
      (hy : ∃ o a, y.socket = { s with rxReadOffset := o, rxCmd.apiImplStatus := a }) :
      ∃ o a, (if p then x else y).socket = { s with rxReadOffset := o, rxCmd.apiImplStatus := a } := by
    split
    · exact hx
    · exact hy
  have hsame : ∃ o a, s = { s with rxReadOffset := o, rxCmd.apiImplStatus := a } := ⟨_, _, rfl⟩
  unfold mbIpcRecvAsync
  exact hif hsame (hif hsame (hif hsame (hif hsame (hif ⟨_, _, rfl⟩ (hif hsame (hif hsame
    (hif ⟨_, _, rfl⟩ ⟨_, _, rfl⟩)))))))

theorem mbIpcRecvAsync_rsp {len : Nat} {crc8 : BitVec 8} (h : (s.mbIpcRecvAsync len crc8).rsp) :
    s.rxInProcess ∧ s.rxCmd.rsp = false := by
  unfold mbIpcRecvAsync at h
  cases hrx : s.rxInProcess with
  | false =>
    simp only [hrx, Bool.not_false, if_true] at h
    split at h
    · cases h
    · split at h <;> cases h
  | true =>
    cases hrsp : s.rxCmd.rsp with
    | false => exact ⟨rfl, rfl⟩
    | true =>
      simp only [hrx, hrsp, Bool.not_true, Bool.false_eq_true, if_false, if_true] at h
      split at h
      · cases h
      · split at h <;> cases h

theorem rxRspHandler_cases (s : MbIpcSocket) (c : MbIpcCmd) : (∃ st, s.rxRspHandler c = (st, s, false)) ∨
    (∃ st, s.rxRspHandler c = (.statusOk, { s with txStatus := st, txInProcess := false }, true) ∧
      s.txInProcess ∧ s.txTag = c.tag ∧ s.txCmd.tag = c.tag ∧ (st = .txOk → c.apiImplStatus = .statusOk)) := by
  unfold rxRspHandler
  split
  · exact .inl ⟨_, rfl⟩
  next htx =>
    split
    · exact .inl ⟨_, rfl⟩
    next htag =>
      split
      · exact .inl ⟨_, rfl⟩
      · split
        · exact .inl ⟨_, rfl⟩
        next hcmd =>
          refine .inr ⟨_, rfl, by simpa using htx, by simpa using htag, by simpa using hcmd, fun hst => ?_⟩
          split at hst
          · cases hst
          next hapi => simpa using hapi

theorem txCmplHandler_cases (s : MbIpcSocket) (ack : MbIpcCmd) :
    (∃ cpu port, s.txCmplHandler ack = ({ s with rxInProcess := false, dstCpu := cpu, dstPort := port }, false) ∧
      ack.rsp ∧ (cpu = s.dstCpu ∧ port = s.dstPort ∨ port = 0 ∧ ack.cmd = .disconnect)) ∨
    s.txCmplHandler ack = (s, false) ∨
    (∃ st, s.txCmplHandler ack = ({ s with txStatus := st, txInProcess := false }, true) ∧ s.txCmd.sameCmd ack ∧
      (ack.comFail ∧ st = .txFailed ∨ ack.routeStatus ≠ .statusOk ∧ st = .routeFailed ack.routeStatus)) := by
  unfold txCmplHandler
  split
  next hrsp =>
    refine .inl ?_
    by_cases hcmd : ack.cmd = .disconnect
    · exact ⟨0, 0, by simp only [hcmd, if_true], hrsp, .inr ⟨rfl, hcmd⟩⟩
    · exact ⟨_, _, by simp only [hcmd, if_false], hrsp, .inl ⟨rfl, rfl⟩⟩
  split
  · exact .inr (.inl rfl)
  next hsame =>
    have hsame : s.txCmd.sameCmd ack := by simpa using hsame
    split
    next hfail => exact .inr (.inr ⟨_, rfl, hsame, .inl ⟨hfail, rfl⟩⟩)
    split
    next hst => exact .inr (.inr ⟨_, rfl, hsame, .inr ⟨hst, rfl⟩⟩)
    · exact .inr (.inl rfl)

theorem txCmplHandler_rsp (h : c.rsp) (hcmd : c.cmd = .send) :
    s.txCmplHandler c = ({ s with rxInProcess := false }, false) := by
  simp [txCmplHandler, h, hcmd]

theorem txCmplHandler_cmd (s : MbIpcSocket) (hrsp : c.rsp = false) (hfail : c.comFail = false) :
    s.txCmplHandler c = (s, false) ∨
    (∃ r, s.txCmplHandler c = ({ s with txStatus := .routeFailed r, txInProcess := false }, true) ∧
      c.routeStatus ≠ .statusOk ∧ s.txCmd.tag = c.tag ∧ s.txCmd.srcPort = c.srcPort) := by
  rcases s.txCmplHandler_cases c with ⟨_, _, -, hr, -⟩ | he | ⟨st, he, hsame, ⟨hf, -⟩ | ⟨hst, rfl⟩⟩
  · rw [hrsp] at hr; cases hr
  · exact .inl he
  · rw [hfail] at hf; cases hf
  · simp only [MbIpcCmd.sameCmd, Bool.and_eq_true, decide_eq_true_eq] at hsame
    obtain ⟨⟨⟨⟨⟨⟨-, -⟩, hport⟩, -⟩, htag⟩, -⟩, -⟩ := hsame
    exact .inr ⟨_, he, hst, htag, hport⟩

end MbIpcSocket
end Bk7258

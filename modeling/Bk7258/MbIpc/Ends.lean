import Bk7258.MbIpc.Data

/-!
# Calls on the two ends of a connection

The functions of the API on two sockets that are used with each other, cut where another task may run in between. They
do not look at where the two sockets are; an `IpcMedium` says what sending does. Two media that do the same up to the
numbers of the CPUs (`IpcMedium.Sim`, `erase`) give every call the same result.
-/

namespace Bk7258
open Lts Function

inductive PathOp
  | connect
  | disconnect
  | send
  | sendAsync
deriving DecidableEq, Repr

namespace MbIpcSocket
variable (a : MbIpcSocket)

def unbind : MbIpcSocket := { a with dstCpu := 0, dstPort := 0 }

def connectStart (dstCpu dstPort : Nat) : Option MbIpcStatus × MbIpcSocket :=
  if !isServerPort dstPort then (some .invalidPort, a)
  else if !a.allocated then (some .notInited, a)
  else if a.connected then (some .invalidState, a)
  else
    (none, { a with
      dstCpu := dstCpu % 4
      dstPort := dstPort
      txInProcess := false
      rxInProcess := false
      txStatus := .txOk
      rxReadOffset := 0
      txCmd := { cmd := .connect } })

def disconnectStart (dstCpu dstPort : Nat) : Option MbIpcStatus × MbIpcSocket :=
  if !a.allocated then (some .notInited, a)
  else if dstPort = 0 then (some .txOk, { a with connected := false })
  else
    (none, { a with
      dstCpu := dstCpu % 4
      dstPort := dstPort % 64
      txInProcess := false
      txCmd := { cmd := .disconnect } })

def sendBegin (mem : IpcMem) (userCmd : BitVec 8) (buff dataLen : BitVec 32) : Option MbIpcStatus × MbIpcSocket :=
  match a.sendData mem userCmd buff dataLen with
  | (.txOk, a) => (none, a)
  | (st, a) => (some st, a)

def woken : PathOp → MbIpcStatus × MbIpcSocket
  | .connect => if a.txStatus = .txOk then (.txOk, { a with connected := true }) else (a.txStatus, a.unbind)
  | .disconnect =>
    if a.dstPort = 0 then (.txOk, { a with connected := false })
    else if IpcCpu.disconnectDone a.txStatus then (.txOk, { a.unbind with connected := false })
    else (a.txStatus, a)
  | .send | .sendAsync => (a.txStatus, a)

def giveUp : PathOp → MbIpcSocket
  | .connect => a.unbind
  | _ => a

end MbIpcSocket

structure IpcMedium (M : Type) where
  port : Bool → IpcPort
  cpu : Bool → Nat
  sock : M → Bool → MbIpcSocket
  setSock : M → Bool → MbIpcSocket → M
  sema : M → Bool → Nat
  get : M → Bool → M
  rxSema : M → Bool → Nat
  rxGet : M → Bool → M
  txCmd : M → Bool → IpcRouteStatus × M
  txRsp : M → Bool → M

inductive PathTask
  | idle
  | started (op : PathOp) (e : Bool)
  | cleared (op : PathOp) (e : Bool)
  | waiting (op : PathOp) (e : Bool)
  | woken (op : PathOp) (e : Bool)
  | timedOut (op : PathOp) (e : Bool)
  | recv (e : Bool) (buffLen : Nat) (wantsCmd : Bool)
  | recvWait (e : Bool) (buffLen : Nat) (wantsCmd : Bool)
deriving DecidableEq, Repr

inductive PathRet
  | call (status : MbIpcStatus)
  | recv (ret : Except MbIpcStatus Nat) (userCmd : BitVec 8) (chunk : List (BitVec 8))
deriving DecidableEq

structure PathSys (M T : Type) where
  net : M
  mem : IpcMem
  task : T → PathTask := fun _ => .idle
  rets : List (T × PathRet) := []

inductive PathAct (T : Type)
  | connect (t : T) (e : Bool)
  /-- `mb_ipc_disconnect` with the address of the other socket, or with port 0 -/
  | disconnect (t : T) (e toPeer : Bool)
  | send (t : T) (e : Bool) (userCmd : BitVec 8) (buff dataLen : BitVec 32)
  | sendAsync (t : T) (e : Bool) (userCmd : BitVec 8) (buff dataLen : BitVec 32)
  | recv (t : T) (e : Bool) (buffLen : Nat) (wantsCmd : Bool)
  | next (t : T)
  | get (t : T)
  | timeout (t : T)
  | write (mem : IpcMem)

namespace PathSys
variable {M T : Type} [DecidableEq T] (m : IpcMedium M) (semaNotify : Bool → Bool) (s : PathSys M T)

def goOn (t : T) (q : PathTask) : PathSys M T := { s with task := update s.task t q }

def finish (t : T) (r : PathRet) : PathSys M T :=
  { s with task := update s.task t .idle, rets := s.rets ++ [(t, r)] }

def call (t : T) (e : Bool) (q : PathTask) (r : Option MbIpcStatus × MbIpcSocket) : Option (PathSys M T) :=
  if s.task t = .idle then
    let s := { s with net := m.setSock s.net e r.2 }
    some (match r.1 with
      | some st => s.finish t (.call st)
      | none => s.goOn t q)
  else none

def recvAsync (t : T) (e : Bool) (buffLen : Nat) (wantsCmd : Bool) : PathSys M T :=
  let a := m.sock s.net e
  let r := a.recvData s.mem buffLen
  let net := m.setSock s.net e r.socket
  let s' := { s with net := if r.rsp then m.txRsp net e else net }
  if recvWaits (semaNotify e) wantsCmd r.ret a.recvUserCmd then s'.goOn t (.recvWait e buffLen wantsCmd)
  else s'.finish t (.recv r.ret a.recvUserCmd (a.recvChunk s.mem buffLen))

def txCmd (t : T) (op : PathOp) (e : Bool) : PathSys M T :=
  let (status, net) := m.txCmd s.net e
  if status = .statusOk then
    let s := { s with net := net }
    if op = .sendAsync then s.finish t (.call .txOk) else s.goOn t (.waiting op e)
  else { s with net := m.setSock net e ((m.sock net e).giveUp op) }.finish t (.call (.routeFailed status))

def next (t : T) : Option (PathSys M T) :=
  match s.task t with
  | .started op e => some ({ s with net := m.get s.net e }.goOn t (.cleared op e))
  | .cleared op e => some (s.txCmd m t op e)
  | .woken op e =>
    let (st, a) := (m.sock s.net e).woken op
    some ({ s with net := m.setSock s.net e a }.finish t (.call st))
  | .timedOut op e =>
    let a := { m.sock s.net e with txInProcess := false }
    some ({ s with net := m.setSock s.net e (a.giveUp op) }.finish t (.call .txTimeout))
  | .recv e buffLen wantsCmd => some (s.recvAsync m semaNotify t e buffLen wantsCmd)
  | .idle | .waiting _ _ | .recvWait _ _ _ => none

def step (s : PathSys M T) : PathAct T → Option (PathSys M T)
  | .connect t e =>
    s.call m t e (.started .connect e) ((m.sock s.net e).connectStart (m.cpu !e) (m.port !e).num)
  | .disconnect t e toPeer =>
    s.call m t e (.started .disconnect e)
      ((m.sock s.net e).disconnectStart (m.cpu !e) (if toPeer then (m.port !e).num else 0))
  | .send t e userCmd buff dataLen =>
    s.call m t e (.started .send e) ((m.sock s.net e).sendBegin s.mem userCmd buff dataLen)
  | .sendAsync t e userCmd buff dataLen =>
    s.call m t e (.cleared .sendAsync e) ((m.sock s.net e).sendBegin s.mem userCmd buff dataLen)
  | .recv t e buffLen wantsCmd => if s.task t = .idle then some (s.goOn t (.recv e buffLen wantsCmd)) else none
  | .next t => s.next m semaNotify t
  | .get t =>
    match s.task t with
    | .waiting op e => if 0 < m.sema s.net e then some ({ s with net := m.get s.net e }.goOn t (.woken op e)) else none
    | .recvWait e buffLen wantsCmd =>
      if 0 < m.rxSema s.net e then some ({ s with net := m.rxGet s.net e }.goOn t (.recv e buffLen wantsCmd)) else none
    | _ => none
  | .timeout t =>
    match s.task t with
    | .waiting op e => if m.sema s.net e = 0 then some (s.goOn t (.timedOut op e)) else none
    | .recvWait e _ _ => if m.rxSema s.net e = 0 then some (s.finish t (.recv (.ok 0) 0xFF [])) else none
    | _ => none
  | .write mem => some { s with mem := mem }

end PathSys

/-- What can be seen of a socket: its connection and what it has in process -/
structure SockObs where
  connected : Bool
  dstPort : Nat
  txInProcess : Bool
  rxInProcess : Bool
deriving DecidableEq, Repr

def MbIpcSocket.obs (a : MbIpcSocket) : SockObs := ⟨a.connected, a.dstPort, a.txInProcess, a.rxInProcess⟩

structure PathObs (T : Type) where
  sock : Bool → SockObs
  task : T → PathTask
  rets : List (T × PathRet)

def PathSys.obs {M T : Type} (m : IpcMedium M) (s : PathSys M T) : PathObs T :=
  ⟨fun e => (m.sock s.net e).obs, s.task, s.rets⟩

/-! ## Without the numbers of the CPUs -/

def MbIpcCmd.erase (c : MbIpcCmd) : MbIpcCmd := { c with dstCpu := 0, srcCpu := 0 }

namespace MbIpcSocket
variable (a : MbIpcSocket) (c : MbIpcCmd)

def erase : MbIpcSocket := { a with dstCpu := 0, srcCpu := 0, txCmd := a.txCmd.erase, rxCmd := a.rxCmd.erase }

@[simp] theorem erase_obs : a.erase.obs = a.obs := rfl

theorem nextCmd_erase : a.erase.nextCmd = a.nextCmd.erase := rfl

theorem txCmdTo_erase (st : IpcRouteStatus) : a.erase.txCmdTo st = (a.txCmdTo st).erase := rfl

theorem rxRspHandler_erase : a.erase.rxRspHandler c.erase = (a.rxRspHandler c).map id (Prod.map erase id) := by
  unfold rxRspHandler
  simp only [apply_ite (Prod.map id (Prod.map erase id))]
  rfl

def RxRet.erase (r : RxRet) : RxRet := { r with socket := r.socket.erase }

theorem rxCmdAccept_erase : a.erase.rxCmdAccept c.erase = (a.rxCmdAccept c).erase := by
  by_cases ha : a.allocated
  · cases hc : c.cmd with
    | connect | disconnect => simp [rxCmdAccept, rxCmdConnect, rxCmdDisconnect, erase, MbIpcCmd.erase,
      RxRet.erase, ha, hc]
    | send | other =>
      by_cases hconn : a.connected
      · by_cases htag : a.rxTag = c.tag
        · simp [rxCmdAccept, rxCmdDefaultHandler, erase, MbIpcCmd.erase, RxRet.erase, ha, hc, hconn, htag]
        · simp [rxCmdAccept, rxCmdDefaultHandler, erase, MbIpcCmd.erase, RxRet.erase, ha, hc, hconn, htag]
      · simp [rxCmdAccept, rxCmdDefaultHandler, erase, MbIpcCmd.erase, RxRet.erase, ha, hc, hconn]
  · simp [rxCmdAccept, erase, MbIpcCmd.erase, RxRet.erase, ha]

theorem rxCmdHandler_erase : a.erase.rxCmdHandler c.erase = (a.rxCmdHandler c).map id RxRet.erase := by
  unfold rxCmdHandler
  rw [rxCmdAccept_erase, apply_ite (Prod.map id RxRet.erase)]
  rfl

def RecvRet.erase (r : RecvRet) : RecvRet := { r with socket := r.socket.erase }

theorem recvData_erase (mem : IpcMem) (n : Nat) : a.erase.recvData mem n = (a.recvData mem n).erase := by
  unfold recvData mbIpcRecvAsync
  simp only [apply_ite RecvRet.erase]
  rfl

theorem recvChunk_erase (mem : IpcMem) (n : Nat) : a.erase.recvChunk mem n = a.recvChunk mem n := by
  rw [recvChunk, recvChunk, recvData_erase]
  rfl

theorem recvUserCmd_erase : a.erase.recvUserCmd = a.recvUserCmd := rfl

theorem connectStart_erase (cpu port : Nat) : a.erase.connectStart 0 port = (a.connectStart cpu port).map id erase := by
  unfold connectStart
  simp only [apply_ite (Prod.map id erase)]
  rfl

theorem disconnectStart_erase (cpu port : Nat) :
    a.erase.disconnectStart 0 port = (a.disconnectStart cpu port).map id erase := by
  unfold disconnectStart
  simp only [apply_ite (Prod.map id erase)]
  rfl

theorem sendBegin_erase (mem : IpcMem) (userCmd : BitVec 8) (buff dataLen : BitVec 32) :
    a.erase.sendBegin mem userCmd buff dataLen = (a.sendBegin mem userCmd buff dataLen).map id erase := by
  have hstart : ∀ len crc8, a.erase.sendStart userCmd len crc8 = (a.sendStart userCmd len crc8).map id erase := by
    intro len crc8
    unfold sendStart
    simp only [apply_ite (Prod.map id erase)]
    rfl
  simp only [sendBegin, sendData, hstart]
  rcases a.sendStart_cases userCmd (dataLen.toNat % 0x10000)
    (calCrc8 mem buff dataLen.toNat) with ⟨st, hst, he⟩ | ⟨-, he⟩
  · rw [he]
    cases st with
    | txOk => exact absurd rfl hst
    | _ => rfl
  · rw [he]
    rfl

theorem woken_erase (op : PathOp) : a.erase.woken op = (a.woken op).map id erase := by
  cases op with
  | connect | disconnect =>
    simp only [woken, apply_ite (Prod.map id erase)]
    rfl
  | send | sendAsync => rfl

theorem giveUp_erase (op : PathOp) : a.erase.giveUp op = (a.giveUp op).erase := by
  cases op <;> rfl

end MbIpcSocket

/-! ## Media that do the same -/

theorem IpcPort.num_lt (port : IpcPort) : port.num < 64 := by
  cases port <;> simp only [num] <;> omega

theorem IpcPort.num_pos (port : IpcPort) : 0 < port.num := by
  cases port <;> simp only [num] <;> omega

/-- A socket of this port and CPU that is bound to its peer or to nobody, and has a command in `tx_cmd` -/
structure MbIpcSocket.Addressed (a : MbIpcSocket) (port peer : IpcPort) (cpu peerCpu : Nat) : Prop where
  src : a.srcPort = port.num ∧ a.srcCpu = cpu
  dst : a.dstPort = 0 ∧ a.dstCpu = 0 ∨ a.dstPort = peer.num ∧ a.dstCpu = peerCpu
  txCmd : a.txCmd.rsp = false

namespace MbIpcSocket.Addressed
variable {a : MbIpcSocket} {port peer : IpcPort} {cpu peerCpu : Nat} (h : a.Addressed port peer cpu peerCpu)
include h

theorem unbind : a.unbind.Addressed port peer cpu peerCpu := ⟨h.src, .inl ⟨rfl, rfl⟩, h.txCmd⟩

theorem connectStart (hcpu : peerCpu < 4) :
    (a.connectStart peerCpu peer.num).2.Addressed port peer cpu peerCpu := by
  unfold MbIpcSocket.connectStart
  split_ifs
  · exact h
  · exact h
  · exact h
  · exact ⟨h.src, .inr ⟨rfl, Nat.mod_eq_of_lt hcpu⟩, rfl⟩

theorem disconnectStart (hcpu : peerCpu < 4) (toPeer : Bool) :
    (a.disconnectStart peerCpu (if toPeer then peer.num else 0)).2.Addressed port peer cpu peerCpu := by
  cases toPeer with
  | false =>
    simp only [MbIpcSocket.disconnectStart, Bool.false_eq_true, if_false, if_true]
    split_ifs
    · exact h
    · exact ⟨h.src, h.dst, h.txCmd⟩
  | true =>
    simp only [MbIpcSocket.disconnectStart, if_true, if_neg (Nat.ne_of_gt peer.num_pos)]
    split_ifs
    · exact h
    · exact ⟨h.src, .inr ⟨Nat.mod_eq_of_lt peer.num_lt, Nat.mod_eq_of_lt hcpu⟩, rfl⟩

theorem sendBegin (mem : IpcMem) (userCmd : BitVec 8) (buff dataLen : BitVec 32) :
    (a.sendBegin mem userCmd buff dataLen).2.Addressed port peer cpu peerCpu := by
  simp only [MbIpcSocket.sendBegin, sendData]
  rcases a.sendStart_cases userCmd (dataLen.toNat % 0x10000)
    (calCrc8 mem buff dataLen.toNat) with ⟨st, hst, he⟩ | ⟨-, he⟩
  · rw [he]
    cases st with
    | txOk => exact absurd rfl hst
    | _ => exact h
  · rw [he]
    exact ⟨h.src, h.dst, rfl⟩

theorem woken (op : PathOp) : (a.woken op).2.Addressed port peer cpu peerCpu := by
  cases op with
  | connect =>
    simp only [MbIpcSocket.woken]
    split_ifs
    · exact ⟨h.src, h.dst, h.txCmd⟩
    · exact h.unbind
  | disconnect =>
    simp only [MbIpcSocket.woken]
    split_ifs
    · exact ⟨h.src, h.dst, h.txCmd⟩
    · exact ⟨h.src, .inl ⟨rfl, rfl⟩, h.txCmd⟩
    · exact h
  | send | sendAsync => exact h

theorem giveUp (op : PathOp) : (a.giveUp op).Addressed port peer cpu peerCpu := by
  cases op with
  | connect => exact h.unbind
  | disconnect | send | sendAsync => exact h

theorem recvData (mem : IpcMem) (n : Nat) :
    (a.recvData mem n).socket.Addressed port peer cpu peerCpu := by
  obtain ⟨o, st, he⟩ := a.mbIpcRecvAsync_socket n (a.recvCrc8 mem)
  rw [MbIpcSocket.recvData, he]
  exact ⟨h.src, h.dst, h.txCmd⟩

theorem rxCmdHandler (c : MbIpcCmd) :
    (a.rxCmdHandler c).2.socket.Addressed port peer cpu peerCpu := by
  have hsrc : ((a.rxCmdHandler c).2.socket.srcPort = a.srcPort ∧ (a.rxCmdHandler c).2.socket.srcCpu = a.srcCpu) ∧
      ((a.rxCmdHandler c).2.socket.dstPort = a.dstPort ∧ (a.rxCmdHandler c).2.socket.dstCpu = a.dstCpu) ∧
      (a.rxCmdHandler c).2.socket.txCmd = a.txCmd := by
    simp only [MbIpcSocket.rxCmdHandler, rxCmdAccept, rxCmdConnect, rxCmdDisconnect, rxCmdDefaultHandler]
    repeat' split
    all_goals exact ⟨⟨rfl, rfl⟩, ⟨rfl, rfl⟩, rfl⟩
  obtain ⟨⟨hsp, hsc⟩, ⟨hdp, hdc⟩, htx⟩ := hsrc
  refine ⟨?_, ?_, ?_⟩
  · rw [hsp, hsc]
    exact h.src
  · rw [hdp, hdc]
    exact h.dst
  · rw [htx]
    exact h.txCmd

end MbIpcSocket.Addressed

namespace IpcMedium
variable {M M' : Type}

def Addressed (m : IpcMedium M) (e : Bool) (a : MbIpcSocket) : Prop :=
  a.Addressed (m.port e) (m.port !e) (m.cpu e) (m.cpu !e)

/-- `m'` does the same as `m`, without the numbers of the CPUs, where `I` holds. -/
structure Sim (m : IpcMedium M) (m' : IpcMedium M') (I : M → Prop) (h : M → M') : Prop where
  port : m'.port = m.port
  cpu : ∀ e, m.cpu e < 4 ∧ m'.cpu e = 0
  sock : ∀ {s}, I s → ∀ e, m'.sock (h s) e = (m.sock s e).erase ∧ m.Addressed e (m.sock s e)
  setSock : ∀ {s}, I s → ∀ {e a}, m.Addressed e a → I (m.setSock s e a) ∧
    h (m.setSock s e a) = m'.setSock (h s) e a.erase
  sema : ∀ {s}, I s → ∀ e, m'.sema (h s) e = m.sema s e ∧ m'.rxSema (h s) e = m.rxSema s e
  get : ∀ {s}, I s → ∀ e, I (m.get s e) ∧ h (m.get s e) = m'.get (h s) e
  rxGet : ∀ {s}, I s → ∀ e, I (m.rxGet s e) ∧ h (m.rxGet s e) = m'.rxGet (h s) e
  txCmd : ∀ {s}, I s → ∀ e, I (m.txCmd s e).2 ∧ (m.txCmd s e).map id h = m'.txCmd (h s) e
  txRsp : ∀ {s}, I s → ∀ e, I (m.txRsp s e) ∧ h (m.txRsp s e) = m'.txRsp (h s) e

end IpcMedium

namespace PathSys
variable {M M' T : Type} [DecidableEq T]

def map (h : M → M') (s : PathSys M T) : PathSys M' T := ⟨h s.net, s.mem, s.task, s.rets⟩

def Follows (I : M → Prop) (h : M → M') (o : Option (PathSys M T)) (o' : Option (PathSys M' T)) : Prop :=
  o.map (map h) = o' ∧ ∀ u, o = some u → I u.net

variable {m : IpcMedium M} {m' : IpcMedium M'} {I : M → Prop} {h : M → M'} {semaNotify : Bool → Bool} {s : PathSys M T}

omit [DecidableEq T] in
theorem Follows.none : Follows (T := T) I h none none := ⟨rfl, nofun⟩

omit [DecidableEq T] in
theorem Follows.some {u : PathSys M T} {u' : PathSys M' T} (hI : I u.net) (hu : u.map h = u') :
    Follows I h (some u) (some u') :=
  ⟨congrArg Option.some hu, fun _ he => Option.some.inj he ▸ hI⟩

omit [DecidableEq T] in
theorem Follows.ite {p : Prop} [Decidable p] {u v : Option (PathSys M T)} {u' v' : Option (PathSys M' T)}
    (hu : Follows I h u u') (hv : Follows I h v v') : Follows I h (if p then u else v) (if p then u' else v') := by
  split
  · exact hu
  · exact hv

variable (hs : m.Sim m' I h) (hI : I s.net)
include hs hI

theorem follows_call {t : T} {e : Bool} {q : PathTask}
    {r : Option MbIpcStatus × MbIpcSocket} (ha : m.Addressed e r.2) :
    Follows I h (s.call m t e q r) ((s.map h).call m' t e q (r.map id MbIpcSocket.erase)) := by
  obtain ⟨hI', hset⟩ := hs.setSock hI ha
  refine .ite ?_ .none
  obtain ⟨o, a⟩ := r
  cases o with
  | none => exact .some hI' (by simp [map, goOn, hset])
  | some st => exact .some hI' (by simp [map, finish, hset])

theorem follows_txCmd (t : T) (op : PathOp) (e : Bool) :
    Follows I h (some (s.txCmd m t op e)) (some ((s.map h).txCmd m' t op e)) := by
  obtain ⟨hI', htx⟩ := hs.txCmd hI e
  obtain ⟨⟨status, net⟩, hr⟩ : ∃ r, m.txCmd s.net e = r := ⟨_, rfl⟩
  rw [hr] at hI' htx
  simp only [txCmd, map, hr, ← htx, Prod.map, id]
  by_cases hst : status = .statusOk
  · by_cases hop : op = .sendAsync
    · simp only [hst, hop, if_true]
      exact .some hI' rfl
    · simp only [hst, hop, if_true, if_false]
      exact .some hI' rfl
  · obtain ⟨hsock, ha⟩ := hs.sock hI' e
    obtain ⟨hI'', hset⟩ := hs.setSock hI' (ha.giveUp op)
    simp only [hst, if_false]
    refine .some hI'' ?_
    rw [hsock, MbIpcSocket.giveUp_erase, ← hset]
    rfl

theorem follows_recvAsync (t : T) (e : Bool) (n : Nat) (w : Bool) :
    Follows I h (some (s.recvAsync m semaNotify t e n w)) (some ((s.map h).recvAsync m' semaNotify t e n w)) := by
  obtain ⟨hsock, ha⟩ := hs.sock hI e
  obtain ⟨hI₁, hset⟩ := hs.setSock hI (ha.recvData s.mem n)
  obtain ⟨hI₂, hrsp⟩ := hs.txRsp hI₁ e
  simp only [recvAsync, map, hsock, MbIpcSocket.recvData_erase, MbIpcSocket.recvUserCmd_erase,
    MbIpcSocket.recvChunk_erase,
    MbIpcSocket.RecvRet.erase, ← hset, ← hrsp, ← apply_ite h]
  have hnet : I (if ((m.sock s.net e).recvData s.mem n).rsp = true
      then m.txRsp (m.setSock s.net e ((m.sock s.net e).recvData s.mem n).socket) e
      else m.setSock s.net e ((m.sock s.net e).recvData s.mem n).socket) := by
    split
    · exact hI₂
    · exact hI₁
  split
  · exact .some hnet rfl
  · exact .some hnet rfl

theorem follows_next (t : T) :
    Follows I h (s.next m semaNotify t) ((s.map h).next m' semaNotify t) := by
  simp only [next, show (s.map h).task t = s.task t from rfl]
  cases s.task t with
  | idle | waiting | recvWait => exact .none
  | started op e =>
    obtain ⟨hI', hget⟩ := hs.get hI e
    exact .some hI' (by simp [map, goOn, hget])
  | cleared op e => exact follows_txCmd hs hI t op e
  | woken op e =>
    obtain ⟨hsock, ha⟩ := hs.sock hI e
    obtain ⟨hI', hset⟩ := hs.setSock hI (ha.woken op)
    refine .some hI' ?_
    simp only [map, finish, hsock, MbIpcSocket.woken_erase, hset]
    rfl
  | timedOut op e =>
    obtain ⟨hsock, ha⟩ := hs.sock hI e
    have ha' : m.Addressed e { m.sock s.net e with txInProcess := false } := ⟨ha.src, ha.dst, ha.txCmd⟩
    obtain ⟨hI', hset⟩ := hs.setSock hI (ha'.giveUp op)
    refine .some hI' ?_
    simp only [map, finish, hsock, hset, ← MbIpcSocket.giveUp_erase]
    rfl
  | recv e n w => exact follows_recvAsync hs hI t e n w

theorem follows_step (a : PathAct T) :
    Follows I h (s.step m semaNotify a) ((s.map h).step m' semaNotify a) := by
  have hsock := hs.sock hI
  cases a with
  | connect t e =>
    simp only [step, map, (hsock e).1, hs.port, (hs.cpu !e).2]
    rw [MbIpcSocket.connectStart_erase _ (m.cpu !e)]
    exact follows_call hs hI ((hsock e).2.connectStart (hs.cpu !e).1)
  | disconnect t e toPeer =>
    simp only [step, map, (hsock e).1, hs.port, (hs.cpu !e).2]
    rw [MbIpcSocket.disconnectStart_erase _ (m.cpu !e)]
    exact follows_call hs hI ((hsock e).2.disconnectStart (hs.cpu !e).1 toPeer)
  | send t e userCmd buff dataLen | sendAsync t e userCmd buff dataLen =>
    simp only [step, map, (hsock e).1, MbIpcSocket.sendBegin_erase]
    exact follows_call hs hI ((hsock e).2.sendBegin s.mem userCmd buff dataLen)
  | recv t e n w => exact .ite (.some hI rfl) .none
  | next t => exact follows_next hs hI t
  | get t =>
    simp only [step, show (s.map h).task t = s.task t from rfl]
    cases s.task t with
    | waiting op e =>
      obtain ⟨hI', hget⟩ := hs.get hI e
      simp only [show (s.map h).net = h s.net from rfl, (hs.sema hI e).1]
      exact .ite (.some hI' (by simp [map, goOn, hget])) .none
    | recvWait e n w =>
      obtain ⟨hI', hget⟩ := hs.rxGet hI e
      simp only [show (s.map h).net = h s.net from rfl, (hs.sema hI e).2]
      exact .ite (.some hI' (by simp [map, goOn, hget])) .none
    | _ => exact .none
  | timeout t =>
    simp only [step, show (s.map h).task t = s.task t from rfl, show (s.map h).net = h s.net from rfl]
    cases s.task t with
    | waiting op e =>
      simp only [(hs.sema hI e).1]
      exact .ite (.some hI rfl) .none
    | recvWait e n w =>
      simp only [(hs.sema hI e).2]
      exact .ite (.some hI rfl) .none
    | _ => exact .none
  | write mem => exact .some hI rfl

theorem obs_exec (acts : List (PathAct T)) :
    (exec (step m semaNotify) (fun _ _ => True) s acts).map (obs m) =
      (exec (step m' semaNotify) (fun _ _ => True) (s.map h) acts).map (obs m') := by
  have hmap : (exec (step m semaNotify) (fun _ _ => True) s acts).map (map h) =
      exec (step m' semaNotify) (fun _ _ => True) (s.map h) acts :=
    exec_map (I := fun u => I u.net) (fun _ l hI => follows_step hs hI l) hI
  rw [← hmap, Option.map_map]
  cases he : exec (step m semaNotify) (fun _ _ => True) s acts with
  | none => rfl
  | some u =>
    have hIu : I u.net := (exec_run he).invariant (I := fun u => I u.net) hI
      fun _ _ l _ hI _ hstep => (follows_step hs hI l).2 _ hstep
    simp only [Option.map_some, comp, obs, map, (hs.sock hIu _).1, MbIpcSocket.erase_obs]

end PathSys

end Bk7258

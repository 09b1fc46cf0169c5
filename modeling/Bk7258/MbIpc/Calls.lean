import Bk7258.MbIpc.Cpu

/-!
# Calls of the mb_ipc API on one CPU

Any number of tasks call the functions of the API while the mailbox interrupts run the handlers of `IpcCpu`. A call is
cut where others may run in between. Received packets and ACKs are arbitrary.
-/

namespace Bk7258
open Lts Function

/-- Who calls `mb_ipc_disconnect`: the application, `mb_ipc_close`, or `mb_ipc_close` for
`mb_ipc_server_close`, which still has the connections `rest` to close. -/
inductive MbIpcCaller
  | app
  | close
  | serverClose (rest : List (Fin 3))
deriving DecidableEq, Repr

inductive MbIpcOp
  | connect
  | disconnect (caller : MbIpcCaller)
  | send
  | sendAsync
deriving DecidableEq, Repr

inductive MbIpcTask
  | idle
  | disconnect (x : SockId) (caller : MbIpcCaller) (dstCpu dstPort : Nat)
  | started (op : MbIpcOp) (x : SockId)
  | cleared (op : MbIpcOp) (x : SockId)
  | waiting (op : MbIpcOp) (x : SockId)
  | woken (op : MbIpcOp) (x : SockId)
  | timedOut (op : MbIpcOp) (x : SockId)
  | closed (p : Fin 12)
  | serverClose (p : Fin 4) (rest : List (Fin 3))
  | slotClosed (p : Fin 4) (i : Fin 3) (rest : List (Fin 3))
deriving DecidableEq, Repr

structure MbIpcSys (T : Type) where
  cpu : IpcCpu := {}
  task : T → MbIpcTask := fun _ => .idle

inductive MbIpcAct (T : Type)
  | socket (port : IpcPort)
  | connect (t : T) (x : SockId) (dstCpu dstPort : Nat)
  | disconnect (t : T) (x : SockId) (dstCpu dstPort : Nat)
  | close (t : T) (x : SockId)
  | send (t : T) (x : SockId) (userCmd : BitVec 8) (len : Nat) (crc8 : BitVec 8)
  | sendAsync (t : T) (x : SockId) (userCmd : BitVec 8) (len : Nat) (crc8 : BitVec 8)
  | recvAsync (x : SockId) (buffLen : Nat) (crc8 : BitVec 8)
  | getRecvDataLen (x : SockId)
  | serverClose (t : T) (p : Fin 4) (i : Fin 3)
  | next (t : T)
  | get (t : T)
  | timeout (t : T)
  | rx (c : MbIpcCmd)
  | txCmpl (ack : MbIpcCmd)
deriving DecidableEq

def MbIpcCaller.returned (ok : Bool) : MbIpcCaller → SockId → MbIpcTask
  | .close, .client p => if ok then .closed p else .idle
  | .serverClose rest, .server p i => .slotClosed p i rest
  | _, _ => .idle

def MbIpcOp.returned (ok : Bool) (x : SockId) : MbIpcOp → MbIpcTask
  | .disconnect caller => caller.returned ok x
  | _ => .idle

namespace IpcCpu
variable (s : IpcCpu)

def connectStart (x : SockId) (dstCpu dstPort : Nat) : IpcCpu × MbIpcTask :=
  let a := s.sock x
  if !isServerPort dstPort || !a.allocated || a.connected then (s, .idle)
  else
    (s.setSock x { a with
      dstCpu := dstCpu % 4
      dstPort := dstPort
      txInProcess := false
      rxInProcess := false
      txStatus := .txOk
      rxReadOffset := 0
      txCmd := { cmd := .connect } }, .started .connect x)

def disconnectStart (x : SockId) (caller : MbIpcCaller) (dstCpu dstPort : Nat) : IpcCpu × MbIpcTask :=
  let a := s.sock x
  if !a.allocated then (s, caller.returned false x)
  else if dstPort = 0 then (s.setSock x { a with connected := false }, caller.returned true x)
  else
    (s.setSock x { a with
      dstCpu := dstCpu % 4
      dstPort := dstPort % 64
      txInProcess := false
      txCmd := { cmd := .disconnect } }, .started (.disconnect caller) x)

def sendStart (x : SockId) (userCmd : BitVec 8) (len : Nat) (crc8 : BitVec 8) (q : MbIpcTask) : IpcCpu × MbIpcTask :=
  match (s.sock x).sendStart userCmd len crc8 with
  | (.txOk, a) => (s.setSock x a, q)
  | _ => (s, .idle)

def unbind (x : SockId) : IpcCpu := s.setSock x { s.sock x with dstCpu := 0, dstPort := 0 }

def giveUp (x : SockId) : MbIpcOp → IpcCpu
  | .connect => s.unbind x
  | _ => s

def disconnectDone : MbIpcStatus → Bool
  | .txOk | .routeFailed .unreachable => true
  | .apiFailed status => status ≠ .statusOk
  | _ => false

def wokenUp (x : SockId) : MbIpcOp → IpcCpu × MbIpcTask
  | .connect =>
    if (s.sock x).txStatus = .txOk then (s.setSock x { s.sock x with connected := true }, .idle)
    else (s.unbind x, .idle)
  | .disconnect caller =>
    if (s.sock x).dstPort = 0 then (s.setSock x { s.sock x with connected := false }, caller.returned true x)
    else if disconnectDone (s.sock x).txStatus then
      (s.setSock x { s.sock x with dstCpu := 0, dstPort := 0, connected := false }, caller.returned true x)
    else (s, caller.returned false x)
  | .send | .sendAsync => (s, .idle)

def free (x : SockId) : IpcCpu := s.setSock x { s.sock x with allocated := false, connected := false }

def next : MbIpcTask → Option (IpcCpu × MbIpcTask)
  | .disconnect x caller dstCpu dstPort => some (s.disconnectStart x caller dstCpu dstPort)
  | .started op x => some (s.get x, .cleared op x)
  | .cleared op x =>
    match s.txCmd x with
    | (.statusOk, s) => some (s, if op = .sendAsync then .idle else .waiting op x)
    | (_, s) => some (s.giveUp x op, op.returned false x)
  | .woken op x => some (s.wokenUp x op)
  | .timedOut op x =>
    some ((s.setSock x { s.sock x with txInProcess := false }).giveUp x op, op.returned false x)
  | .closed p => some (s.free (.client p), .idle)
  | .serverClose p (i :: rest) =>
    if (s.sock (.server p i)).connected then
      some (s, .disconnect (.server p i) (.serverClose rest) (s.sock (.server p i)).dstCpu
        (s.sock (.server p i)).dstPort)
    else some (s, .slotClosed p i rest)
  | .serverClose _ [] => some (s, .idle)
  | .slotClosed p i rest => some (s.free (.server p i), .serverClose p rest)
  | .idle | .waiting _ _ => none

end IpcCpu

namespace MbIpcSys
variable {T : Type} [DecidableEq T]

def setTask (s : MbIpcSys T) (t : T) (q : IpcCpu × MbIpcTask) : MbIpcSys T :=
  { s with cpu := q.1, task := update s.task t q.2 }

def call (s : MbIpcSys T) (t : T) (q : IpcCpu × MbIpcTask) : Option (MbIpcSys T) :=
  if s.task t = .idle then some (s.setTask t q) else none

def step : MbIpcSys T → MbIpcAct T → Option (MbIpcSys T)
  | s, .socket port => some { s with cpu := s.cpu.socket port }
  | s, .connect t x dstCpu dstPort => s.call t (s.cpu.connectStart x dstCpu dstPort)
  | s, .disconnect t x dstCpu dstPort => s.call t (s.cpu, .disconnect x .app dstCpu dstPort)
  | s, .close t x => s.call t (s.cpu, .disconnect x .close (s.cpu.sock x).dstCpu (s.cpu.sock x).dstPort)
  | s, .send t x userCmd len crc8 => s.call t (s.cpu.sendStart x userCmd len crc8 (.started .send x))
  | s, .sendAsync t x userCmd len crc8 => s.call t (s.cpu.sendStart x userCmd len crc8 (.cleared .sendAsync x))
  | s, .recvAsync x buffLen crc8 => some { s with cpu := s.cpu.recvAsync x buffLen crc8 }
  | s, .getRecvDataLen x => some { s with cpu := s.cpu.getRecvDataLen x }
  | s, .serverClose t p i =>
    s.call t (s.cpu, if (s.cpu.sock (.server p i)).allocated then .serverClose p connectIds else .idle)
  | s, .next t => (s.cpu.next (s.task t)).map (s.setTask t)
  | s, .get t =>
    match s.task t with
    | .waiting op x => if 0 < s.cpu.sema x.port then some (s.setTask t (s.cpu.get x, .woken op x)) else none
    | _ => none
  | s, .timeout t =>
    match s.task t with
    | .waiting op x => if s.cpu.sema x.port = 0 then some (s.setTask t (s.cpu, .timedOut op x)) else none
    | _ => none
  | s, .rx c => some { s with cpu := s.cpu.rxIsr c }
  | s, .txCmpl ack => some { s with cpu := s.cpu.txCmplIsr ack }

theorem setTask_self (s : MbIpcSys T) (t : T) (q : IpcCpu × MbIpcTask) : (s.setTask t q).task t = q.2 :=
  update_self ..

theorem setTask_of_ne (s : MbIpcSys T) {t u : T} (h : u ≠ t) (q : IpcCpu × MbIpcTask) :
    (s.setTask t q).task u = s.task u := update_of_ne h ..

theorem call_eq {s s' : MbIpcSys T} {t : T} {q : IpcCpu × MbIpcTask} (h : s.call t q = some s') :
    s.task t = .idle ∧ s' = s.setTask t q := by
  unfold call at h
  split at h
  next ht => cases h; exact ⟨ht, rfl⟩
  next => cases h

theorem get_eq {s s' : MbIpcSys T} {t : T} (h : s.step (.get t) = some s') :
    ∃ op x, s.task t = .waiting op x ∧ s' = s.setTask t (s.cpu.get x, .woken op x) := by
  simp only [step] at h
  split at h
  next op x ht =>
    split at h <;> cases h
    exact ⟨op, x, ht, rfl⟩
  next => cases h

theorem timeout_eq {s s' : MbIpcSys T} {t : T} (h : s.step (.timeout t) = some s') :
    ∃ op x, s.task t = .waiting op x ∧ s' = s.setTask t (s.cpu, .timedOut op x) := by
  simp only [step] at h
  split at h
  next op x ht =>
    split at h <;> cases h
    exact ⟨op, x, ht, rfl⟩
  next => cases h

theorem cpu_step {P : IpcCpu → Prop} {s s' : MbIpcSys T} {a : MbIpcAct T} (h : P s.cpu) (hs : s.step a = some s')
    (hsocket : ∀ port, P (s.cpu.socket port)) (hconnect : ∀ x dstCpu dstPort, P (s.cpu.connectStart x dstCpu dstPort).1)
    (hsend : ∀ x userCmd len crc8 q, P (s.cpu.sendStart x userCmd len crc8 q).1)
    (hrecv : ∀ x buffLen crc8, P (s.cpu.recvAsync x buffLen crc8)) (hlen : ∀ x, P (s.cpu.getRecvDataLen x))
    (hget : ∀ x, P (s.cpu.get x)) (hnext : ∀ t r, a = .next t → s.cpu.next (s.task t) = some r → P r.1)
    (hrx : ∀ c, a = .rx c → P (s.cpu.rxIsr c)) (hcmpl : ∀ ack, P (s.cpu.txCmplIsr ack)) : P s'.cpu := by
  cases a with
  | socket port =>
    cases hs
    exact hsocket port
  | connect t x dstCpu dstPort =>
    obtain ⟨-, rfl⟩ := call_eq hs
    exact hconnect x dstCpu dstPort
  | disconnect | close | serverClose =>
    obtain ⟨-, rfl⟩ := call_eq hs
    exact h
  | send t x userCmd len crc8 | sendAsync t x userCmd len crc8 =>
    obtain ⟨-, rfl⟩ := call_eq hs
    exact hsend x userCmd len crc8 _
  | recvAsync x buffLen crc8 =>
    cases hs
    exact hrecv x buffLen crc8
  | getRecvDataLen x =>
    cases hs
    exact hlen x
  | next t =>
    obtain ⟨r, hn, rfl⟩ := Option.map_eq_some_iff.1 hs
    exact hnext t r rfl hn
  | get t =>
    obtain ⟨op, x, -, rfl⟩ := get_eq hs
    exact hget x
  | timeout t =>
    obtain ⟨op, x, -, rfl⟩ := timeout_eq hs
    exact h
  | rx c =>
    cases hs
    exact hrx c rfl
  | txCmpl ack =>
    cases hs
    exact hcmpl ack

end MbIpcSys

def fromClient (cmd : MbIpcCmdId) (srcPort : Nat) : MbIpcCmd :=
  { cmd := cmd, dstPort := 1, dstCpu := currentCpu, srcPort := srcPort, srcCpu := 0 }

def ackOfRsp (c : MbIpcCmd) : MbIpcCmd :=
  { c with rsp := true, dstPort := c.srcPort, dstCpu := c.srcCpu, srcPort := c.dstPort, srcCpu := c.dstCpu }

end Bk7258

import Bk7258.Lib.Lts
import Bk7258.MbIpc.Socket

/-!
# A connected client and server

One connection of mb_ipc: `mb_ipc_send` on the client's socket, the mailbox between the two CPUs and the server's slot
with the application that reads from it. The mailbox keeps the order in which a CPU sends; the receive interrupt sends
the ACK after it has run its callback. Each call of `ipc_socket_tx_cmd` has a number, of which the tag are the lower 8
bits.
-/

namespace Bk7258
open Lts

structure PairMsg where
  isAck : Bool
  num : Nat
  pkt : MbIpcCmd
deriving DecidableEq, Repr

/-- What `mb_phy_chnl_rx_cmd_isr` sends back after the callback has returned `status`. -/
def PairMsg.ackOf (m : PairMsg) (status : IpcRouteStatus) : PairMsg := ⟨true, m.num, m.pkt.ack false status⟩

/-- `mb_ipc_send`: after its checks, after `rtos_get_semaphore(.., 0)`, waiting for `tx_notify_sema`, and
behind the wait. -/
inductive PairTask
  | idle
  | started
  | cleared
  | waiting
  | woken
  | timedOut
deriving DecidableEq, Repr

/-- `cIsr` and `sIsr` are the ACKs the receive interrupts have still to send. `queue` and `sQueue` are the packets in
the route queues that are not written, `outstanding` says that a command is not acknowledged, `c2s` and `s2c` are the
mailboxes. `attempts` is the number of the client's last command, `accepted` of the last one the server has saved in
`rx_cmd`; `delivered`, `resent` and `refused` are the commands passed to the application, answered as re-sent ones, and
refused. -/
structure IpcPair where
  client : MbIpcSocket
  sema : Nat
  task : PairTask
  cIsr : Option PairMsg
  queue : List PairMsg
  outstanding : Bool
  c2s : List PairMsg
  server : MbIpcSocket
  sIsr : Option PairMsg
  sQueue : List PairMsg
  s2c : List PairMsg
  attempts : Nat
  accepted : Nat
  delivered : List Nat
  resent : List Nat
  refused : List Nat
  results : List (Nat × MbIpcStatus)
deriving DecidableEq

inductive PairAct
  | send (userCmd : BitVec 8) (len : Nat) (crc8 : BitVec 8)
  | clear
  | tx (full : Bool)
  | get
  | ret
  | timeout
  /-- `STATE_TX_IN_PROCESS` is cleared after the timeout. -/
  | leave
  | wire
  | srvRx (full : Bool)
  | srvAck
  | recv (buffLen : Nat) (crc8 : BitVec 8) (full : Bool)
  | srvWire
  | cliRx
  | cliAck
deriving DecidableEq, Repr

def routerStatus (full : Bool) : IpcRouteStatus := if full then .queueFull else .statusOk

namespace IpcPair
variable (s : IpcPair)

def finish (ret : MbIpcStatus) : IpcPair :=
  { s with task := .idle, results := s.results ++ [(s.attempts, ret)] }

def txCmd (full : Bool) : IpcPair :=
  let s' := { s with attempts := s.attempts + 1, client := s.client.txCmdTo (routerStatus full) }
  if full then s'.finish (.routeFailed .queueFull)
  else { s' with task := .waiting, queue := s.queue ++ [⟨false, s.attempts + 1, s.client.nextCmd⟩] }

def txRsp (n : Nat) (full : Bool) : IpcPair :=
  { s with
    server := s.server.txRsp (routerStatus full)
    sQueue := if full then s.sQueue else s.sQueue ++ [⟨false, n, s.server.rspCmd⟩] }

def srvRxCmd (m : PairMsg) (full : Bool) : IpcPair :=
  let (status, r) := s.server.rxCmdHandler m.pkt
  let s' := { s with
    server := r.socket
    sIsr := some (m.ackOf status)
    accepted := if status = .statusOk then m.num else s.accepted
    delivered := if r.notify then s.delivered ++ [m.num] else s.delivered
    resent := if r.rsp then s.resent ++ [m.num] else s.resent
    refused := if status = .rxBusy then s.refused ++ [m.num] else s.refused }
  if r.rsp then s'.txRsp m.num full else s'

def srvTxCmpl (m : PairMsg) : IpcPair := { s with server := (s.server.txCmplHandler m.pkt).1 }

def recv (buffLen : Nat) (crc8 : BitVec 8) (full : Bool) : IpcPair :=
  let r := s.server.mbIpcRecvAsync buffLen crc8
  let s' := { s with server := r.socket }
  if r.rsp then s'.txRsp s.accepted full else s'

def cliRxRsp (m : PairMsg) : IpcPair :=
  let (status, c, post) := s.client.rxRspHandler m.pkt
  { s with client := c, sema := if post then s.sema + 1 else s.sema, cIsr := some (m.ackOf status) }

def cliTxCmpl (m : PairMsg) : IpcPair :=
  let (c, post) := s.client.txCmplHandler m.pkt
  { s with client := c, sema := if post then s.sema + 1 else s.sema, outstanding := false }

def step : IpcPair → PairAct → Option IpcPair
  | s, .send userCmd len crc8 =>
    if s.task = .idle then
      match s.client.sendStart userCmd len crc8 with
      | (.txOk, c) => some { s with client := c, task := .started }
      | _ => some s
    else none
  | s, .clear => if s.task = .started then some { s with sema := s.sema - 1, task := .cleared } else none
  | s, .tx full => if s.task = .cleared then some (s.txCmd full) else none
  | s, .get =>
    if s.task = .waiting ∧ 0 < s.sema then some { s with sema := s.sema - 1, task := .woken } else none
  | s, .ret => if s.task = .woken then some (s.finish s.client.txStatus) else none
  | s, .timeout => if s.task = .waiting ∧ s.sema = 0 then some { s with task := .timedOut } else none
  | s, .leave =>
    if s.task = .timedOut then some (finish { s with client.txInProcess := false } .txTimeout) else none
  | s, .wire =>
    match s.outstanding, s.queue with
    | false, m :: rest => some { s with queue := rest, outstanding := true, c2s := s.c2s ++ [m] }
    | _, _ => none
  | s, .srvRx full =>
    match s.sIsr, s.c2s with
    | none, m :: rest =>
      let s' := { s with c2s := rest }
      some (if m.isAck then s'.srvTxCmpl m else s'.srvRxCmd m full)
    | _, _ => none
  | s, .srvAck => s.sIsr.map fun m => { s with sIsr := none, s2c := s.s2c ++ [m] }
  | s, .recv buffLen crc8 full => some (s.recv buffLen crc8 full)
  | s, .srvWire =>
    match s.sQueue with
    | m :: rest => some { s with sQueue := rest, s2c := s.s2c ++ [m] }
    | [] => none
  | s, .cliRx =>
    match s.cIsr, s.s2c with
    | none, m :: rest =>
      let s' := { s with s2c := rest }
      some (if m.isAck then s'.cliTxCmpl m else s'.cliRxRsp m)
    | _, _ => none
  | s, .cliAck => s.cIsr.map fun m => { s with cIsr := none, c2s := s.c2s ++ [m] }

/-! ### The steps as cases -/

inductive Step (s : IpcPair) : PairAct → IpcPair → Prop
  | send {userCmd crc8 : BitVec 8} {len : Nat} {c : MbIpcSocket} (ht : s.task = .idle)
      (hc : s.client.sendStart userCmd len crc8 = (.txOk, c)) :
      Step s (.send userCmd len crc8) { s with client := c, task := .started }
  | sendFails (userCmd crc8 : BitVec 8) (len : Nat) : Step s (.send userCmd len crc8) s
  | clear (ht : s.task = .started) : Step s .clear { s with sema := s.sema - 1, task := .cleared }
  | tx (ht : s.task = .cleared) (full : Bool) : Step s (.tx full) (s.txCmd full)
  | get (ht : s.task = .waiting) (hpos : 0 < s.sema) : Step s .get { s with sema := s.sema - 1, task := .woken }
  | ret (ht : s.task = .woken) : Step s .ret (s.finish s.client.txStatus)
  | timeout (ht : s.task = .waiting) (h0 : s.sema = 0) : Step s .timeout { s with task := .timedOut }
  | leave (ht : s.task = .timedOut) : Step s .leave (finish { s with client.txInProcess := false } .txTimeout)
  | wire {m : PairMsg} {rest : List PairMsg} (hout : s.outstanding = false) (hq : s.queue = m :: rest) :
      Step s .wire { s with queue := rest, outstanding := true, c2s := s.c2s ++ [m] }
  | srvTxCmpl {m : PairMsg} {rest : List PairMsg} {full : Bool} (hc : s.c2s = m :: rest) (hack : m.isAck = true) :
      Step s (.srvRx full) (srvTxCmpl { s with c2s := rest } m)
  | srvRxCmd {m : PairMsg} {rest : List PairMsg} (hisr : s.sIsr = none) (hc : s.c2s = m :: rest)
      (hack : m.isAck = false) (full : Bool) : Step s (.srvRx full) (srvRxCmd { s with c2s := rest } m full)
  | srvAck {m : PairMsg} (hisr : s.sIsr = some m) : Step s .srvAck { s with sIsr := none, s2c := s.s2c ++ [m] }
  | recv (buffLen : Nat) (crc8 : BitVec 8) (full : Bool) : Step s (.recv buffLen crc8 full) (s.recv buffLen crc8 full)
  | srvWire {m : PairMsg} {rest : List PairMsg} (hq : s.sQueue = m :: rest) :
      Step s .srvWire { s with sQueue := rest, s2c := s.s2c ++ [m] }
  | cliTxCmpl {m : PairMsg} {rest : List PairMsg} (hc : s.s2c = m :: rest) (hack : m.isAck = true) :
      Step s .cliRx (cliTxCmpl { s with s2c := rest } m)
  | cliRxRsp {m : PairMsg} {rest : List PairMsg} (hisr : s.cIsr = none) (hc : s.s2c = m :: rest)
      (hack : m.isAck = false) : Step s .cliRx (cliRxRsp { s with s2c := rest } m)
  | cliAck {m : PairMsg} (hisr : s.cIsr = some m) : Step s .cliAck { s with cIsr := none, c2s := s.c2s ++ [m] }

theorem step_cases {s s' : IpcPair} {a : PairAct} (hs : s.step a = some s') : s.Step a s' := by
  cases a with
  | send userCmd len crc8 =>
    simp only [step] at hs
    split at hs
    next ht =>
      split at hs <;> cases hs
      next hc => exact .send ht hc
      next => exact .sendFails ..
    next => cases hs
  | clear =>
    simp only [step] at hs
    split at hs <;> cases hs
    next ht => exact .clear ht
  | tx full =>
    simp only [step] at hs
    split at hs <;> cases hs
    next ht => exact .tx ht full
  | get =>
    simp only [step] at hs
    split at hs <;> cases hs
    next hc => exact .get hc.1 hc.2
  | ret =>
    simp only [step] at hs
    split at hs <;> cases hs
    next ht => exact .ret ht
  | timeout =>
    simp only [step] at hs
    split at hs <;> cases hs
    next hc => exact .timeout hc.1 hc.2
  | leave =>
    simp only [step] at hs
    split at hs <;> cases hs
    next ht => exact .leave ht
  | wire =>
    simp only [step] at hs
    split at hs <;> cases hs
    next hout hq => exact .wire hout hq
  | srvRx full =>
    simp only [step] at hs
    split at hs <;> cases hs
    next m rest hisr hc =>
      cases hack : m.isAck with
      | true => exact .srvTxCmpl hc hack
      | false => exact .srvRxCmd hisr hc hack full
  | srvAck =>
    obtain ⟨m, hisr, rfl⟩ := Option.map_eq_some_iff.1 hs
    exact .srvAck hisr
  | recv buffLen crc8 full => cases hs; exact .recv ..
  | srvWire =>
    simp only [step] at hs
    split at hs <;> cases hs
    next hq => exact .srvWire hq
  | cliRx =>
    simp only [step] at hs
    split at hs <;> cases hs
    next m rest hisr hc =>
      cases hack : m.isAck with
      | true => exact .cliTxCmpl hc hack
      | false => exact .cliRxRsp hisr hc hack
  | cliAck =>
    obtain ⟨m, hisr, rfl⟩ := Option.map_eq_some_iff.1 hs
    exact .cliAck hisr

def tagOf (n : Nat) : BitVec 8 := BitVec.ofNat 8 n

theorem tagOf_inj {a b : Nat} (h : tagOf a = tagOf b) (hle : a ≤ b) (hlt : b < a + 256) : a = b := by
  have hmod : a % 256 = b % 256 := by simpa [tagOf] using congrArg BitVec.toNat h
  omega

theorem tagOf_succ (n : Nat) : tagOf (n + 1) = tagOf n + 1 := BitVec.ofNat_add n 1

/-- After `mb_ipc_connect`, the command with number `k`, between client port 16 of CPU 1 and server port 1 of
CPU 0. -/
def init (k : Nat) : IpcPair where
  client := { allocated := true, connected := true, dstPort := 1, dstCpu := 0, srcPort := 16, srcCpu := 1,
              txTag := tagOf k, txCmd := { cmd := .connect, dstPort := 1, srcPort := 16, srcCpu := 1, tag := tagOf k } }
  sema := 0
  task := .idle
  cIsr := none
  queue := []
  outstanding := false
  c2s := []
  server := { allocated := true, connected := true, dstPort := 16, dstCpu := 1, srcPort := 1, srcCpu := 0,
              rxTag := tagOf k }
  sIsr := none
  sQueue := []
  s2c := []
  attempts := k
  accepted := k
  delivered := []
  resent := []
  refused := []
  results := []

end IpcPair

/-- Fewer than 255 commands in a row of which the receiver has accepted none. -/
def TagFresh (s : IpcPair) : PairAct → Prop
  | .tx _ => s.attempts + 1 < s.accepted + 256
  | _ => True

instance (s : IpcPair) : (a : PairAct) → Decidable (TagFresh s a)
  | .tx _ => inferInstanceAs (Decidable (_ < _))
  | .send _ _ _ | .clear | .get | .ret | .timeout | .leave | .wire | .srvRx _ | .srvAck | .recv _ _ _ | .srvWire
  | .cliRx | .cliAck => .isTrue trivial

/-- A connection after `mb_ipc_connect`, the command with number `k`, has returned and its response is
acknowledged. -/
structure Connected (k : Nat) (s : IpcPair) : Prop where
  client : s.client.allocated = true ∧ s.client.connected = true ∧ isClientPort s.client.srcPort = true ∧
    s.client.txInProcess = false ∧ s.client.txTag = IpcPair.tagOf k ∧ s.client.txCmd.tag = IpcPair.tagOf k
  server : s.server.allocated = true ∧ s.server.connected = true ∧ s.server.rxInProcess = false ∧
    s.server.rxTag = IpcPair.tagOf k
  idle : s.sema = 0 ∧ s.task = .idle ∧ s.cIsr = none ∧ s.sIsr = none ∧ s.outstanding = false
  empty : s.queue = [] ∧ s.c2s = [] ∧ s.sQueue = [] ∧ s.s2c = []
  numbers : s.attempts = k ∧ s.accepted = k
  fresh : s.delivered = [] ∧ s.resent = [] ∧ s.refused = [] ∧ s.results = []

theorem IpcPair.init_connected (k : Nat) : Connected k (IpcPair.init k) :=
  ⟨⟨rfl, rfl, rfl, rfl, rfl, rfl⟩, ⟨rfl, rfl, rfl, rfl⟩, ⟨rfl, rfl, rfl, rfl, rfl⟩, ⟨rfl, rfl, rfl, rfl⟩,
    ⟨rfl, rfl⟩, ⟨rfl, rfl, rfl, rfl⟩⟩

end Bk7258

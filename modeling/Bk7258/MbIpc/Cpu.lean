import Mathlib.Data.Fintype.Sigma
import Mathlib.Data.Fintype.Sum
import Mathlib.Tactic.DeriveFintype
import Bk7258.MbIpc.Router

/-!
# The sockets of one CPU

The two socket tables of `mb_ipc.c`, the route to the other CPU and the functions that look a socket up. A server port
has three sockets, one for each connection, which share `tx_notify_sema`. A packet for a socket of this CPU does not go
through the route. The CPU is CPU 1, whose only route leads to CPU 0.

What the handlers do to the addresses is said once, by `Kept` and `Accepted`.
-/

namespace Bk7258
open Function

def currentCpu : Nat := 1

def routerSearchRoute (dstCpu : Nat) : Bool := dstCpu = 0

inductive IpcPort
  | server (p : Fin 4)
  | client (p : Fin 12)
deriving DecidableEq, Repr

def IpcPort.ofNum (port : Nat) : Option IpcPort :=
  if h : 1 ≤ port ∧ port ≤ 4 then some (.server ⟨port - 1, by omega⟩)
  else if h : 16 ≤ port ∧ port ≤ 27 then some (.client ⟨port - 16, by omega⟩)
  else none

def IpcPort.num : IpcPort → Nat
  | .server p => 1 + p
  | .client p => 16 + p

@[simp] theorem IpcPort.ofNum_num (port : IpcPort) : ofNum port.num = some port := by
  cases port with
  | server p => simp [ofNum, num, show 1 + p.val ≤ 4 by omega]
  | client p => simp [ofNum, num, show ¬ 16 + p.val ≤ 4 by omega, show 16 + p.val ≤ 27 by omega]

/-- `ipc_server_socket_tbl[p][i]` or `ipc_client_socket_tbl[p]` -/
inductive SockId
  | server (p : Fin 4) (i : Fin 3)
  | client (p : Fin 12)
deriving DecidableEq, Repr, Fintype

def SockId.port : SockId → IpcPort
  | .server p _ => .server p
  | .client p => .client p

def SockId.initSocket (x : SockId) : MbIpcSocket := { srcPort := x.port.num, srcCpu := currentCpu }

def connectIds : List (Fin 3) := List.finRange 3

theorem mem_connectIds (i : Fin 3) : i ∈ connectIds := List.mem_finRange i

theorem connectIds_pos : 0 < 3 := by decide

/-- The state of `mb_ipc.c`; `sema` is the count of `tx_notify_sema`. `rspStatus` records what
`ipc_router_send` has returned to `ipc_socket_tx_rsp`. -/
structure IpcCpu where
  sock : SockId → MbIpcSocket := SockId.initSocket
  sema : IpcPort → Nat := fun _ => 0
  route : MbIpcRoute := {}
  rspStatus : List IpcRouteStatus := []

namespace IpcCpu
variable (s : IpcCpu)

def setSock (x : SockId) (a : MbIpcSocket) : IpcCpu := { s with sock := update s.sock x a }

def post (x : SockId) : IpcCpu := { s with sema := update s.sema x.port (s.sema x.port + 1) }

def get (x : SockId) : IpcCpu := { s with sema := update s.sema x.port (s.sema x.port - 1) }

/-- The socket of `port` that is bound to `dstPort` of `dstCpu`; of a server, the first one. -/
def search (port dstCpu dstPort : Nat) : Option SockId :=
  match IpcPort.ofNum port with
  | some (.server p) =>
    (connectIds.find? fun i =>
      (s.sock (.server p i)).dstPort = dstPort ∧ (s.sock (.server p i)).dstCpu = dstCpu).map (.server p)
  | some (.client p) =>
    if (s.sock (.client p)).dstCpu ≠ dstCpu ∨ (s.sock (.client p)).dstPort ≠ dstPort then none
    else some (.client p)
  | none => none

def searchSender (srcPort dstCpu dstPort : Nat) : Option SockId := s.search srcPort dstCpu dstPort

def searchRecver (dstPort srcCpu srcPort : Nat) : Option SockId := s.search dstPort srcCpu srcPort

/-- The loop of `ipc_socket_server_accept`: the first connection without a client; it stops at a socket that is
not allocated. -/
def freeSlot (p : Fin 4) : List (Fin 3) → Option (Fin 3)
  | [] => none
  | i :: is =>
    if !(s.sock (.server p i)).allocated then none
    else if isClientPort (s.sock (.server p i)).dstPort then freeSlot p is
    else some i

def serverAccept (dstPort srcCpu srcPort : Nat) : Option (SockId × IpcCpu) :=
  match IpcPort.ofNum dstPort with
  | some (.server p) =>
    (s.freeSlot p connectIds).map fun i =>
      (.server p i, s.setSock (.server p i) { s.sock (.server p i) with
        dstCpu := srcCpu
        dstPort := srcPort
        txInProcess := false
        rxInProcess := false
        txStatus := .txOk
        rxReadOffset := 0 })
  | _ => none

def txCmplHandler (x : SockId) (ack : MbIpcCmd) : IpcCpu :=
  let (a, post) := (s.sock x).txCmplHandler ack
  if post then (s.setSock x a).post x else s.setSock x a

def rxRspHandler (x : Option SockId) (rsp : MbIpcCmd) : IpcRouteStatus × IpcCpu :=
  match x with
  | none => (.unreachable, s)
  | some x =>
    let (status, a, post) := (s.sock x).rxRspHandler rsp
    (status, if post then (s.setSock x a).post x else s.setSock x a)

/-- `ipc_socket_local_tx_rsp`: the receiver of the response is looked up before the connection may be cleared. -/
def localTxRsp (x : SockId) : IpcCpu :=
  let rsp := (s.sock x).rspCmd
  let s := s.setSock x { s.sock x with rxCmd := rsp }
  let peer := s.searchRecver rsp.dstPort rsp.srcCpu rsp.srcPort
  ((s.txCmplHandler x rsp).rxRspHandler peer rsp).2

def txRsp (x : SockId) : IpcCpu :=
  if (s.sock x).dstCpu = (s.sock x).srcCpu then s.localTxRsp x
  else if !routerSearchRoute (s.sock x).dstCpu then s
  else
    let (status, r) := s.route.enqueue (s.sock x).rspCmd
    { s.setSock x ((s.sock x).txRsp status) with route := r, rspStatus := s.rspStatus ++ [status] }

def rxCmdOn (x : SockId) (c : MbIpcCmd) : IpcRouteStatus × IpcCpu :=
  let (status, r) := (s.sock x).rxCmdHandler c
  let s := if r.post then (s.setSock x r.socket).post x else s.setSock x r.socket
  (status, if r.rsp then s.txRsp x else s)

/-- `ipc_socket_rx_cmd_handler`: a connect command that no socket is bound for takes a free one. -/
def rxCmdHandler (x : Option SockId) (c : MbIpcCmd) : IpcRouteStatus × IpcCpu :=
  match x with
  | some x => s.rxCmdOn x c
  | none =>
    if c.cmd = .connect then
      match s.serverAccept c.dstPort c.srcCpu c.srcPort with
      | some (x, s) => s.rxCmdOn x c
      | none => (.unreachable, s)
    else (.unreachable, s)

/-- `ipc_socket_local_tx_cmd` on `tx_cmd`, which has its tag -/
def localTxCmd (x : SockId) : IpcCpu :=
  let c := (s.sock x).nextCmd
  let s := s.setSock x ((s.sock x).txCmdTo .statusOk)
  let (status, s) := s.rxCmdHandler (s.searchRecver c.dstPort c.srcCpu c.srcPort) c
  s.txCmplHandler x (c.ack false status)

def txCmd (x : SockId) : IpcRouteStatus × IpcCpu :=
  let a := s.sock x
  if a.dstCpu = a.srcCpu then (.statusOk, s.localTxCmd x)
  else if !routerSearchRoute a.dstCpu then
    (.unreachable, s.setSock x { a with txTag := a.txTag + 1, txCmd.tag := a.txTag + 1 })
  else
    let (status, r) := s.route.enqueue a.nextCmd
    (status, { s.setSock x (a.txCmdTo status) with route := r })

def rxIsr (c : MbIpcCmd) : IpcCpu :=
  let x := s.searchRecver c.dstPort c.srcCpu c.srcPort
  if c.rsp then (s.rxRspHandler x c).2 else (s.rxCmdHandler x c).2

/-- `ipc_router_tx_cmpl_isr`, but for the write of the next packet -/
def txCmplIsr (ack : MbIpcCmd) : IpcCpu :=
  match s.route.txCmpl ack with
  | none => s
  | some r =>
    let s := { s with route := r }
    match s.searchSender ack.srcPort ack.dstCpu ack.dstPort with
    | none => s
    | some x => s.txCmplHandler x ack

def recvAsync (x : SockId) (buffLen : Nat) (crc8 : BitVec 8) : IpcCpu :=
  let r := (s.sock x).mbIpcRecvAsync buffLen crc8
  let s := s.setSock x r.socket
  if r.rsp then s.txRsp x else s

/-- `mb_ipc_get_recv_data_len`: a command that is not a send is answered with an error. -/
def getRecvDataLen (x : SockId) : IpcCpu :=
  let a := s.sock x
  if a.allocated && a.connected && a.rxInProcess && a.rxCmd.cmd ≠ .send && !a.rxCmd.rsp then
    (s.setSock x { a with rxCmd.apiImplStatus := .rxDataFailed }).txRsp x
  else s

def allocatePort : IpcPort → Bool
  | .server p =>
    let first := s.sock (.server p ⟨0, connectIds_pos⟩)
    !first.allocated && !first.connected
  | .client p => !(s.sock (.client p)).allocated && !(s.sock (.client p)).connected

def socket (port : IpcPort) : IpcCpu :=
  if s.allocatePort port then
    { s with
      sock := fun x =>
        if x.port = port then { s.sock x with allocated := true, connected := false } else s.sock x
      sema := update s.sema port 0 }
  else s

end IpcCpu

/-! ### Addresses -/

def MbIpcSocket.DstKept (a b : MbIpcSocket) : Prop :=
  b.dstPort = a.dstPort ∧ b.dstCpu = a.dstCpu ∨ b.dstPort = 0

structure MbIpcSocket.Kept (a b : MbIpcSocket) : Prop where
  allocated : b.allocated = a.allocated
  dst : a.DstKept b

namespace MbIpcSocket
variable {a b c : MbIpcSocket}

theorem Kept.of_eq (ha : b.allocated = a.allocated) (hp : b.dstPort = a.dstPort) (hc : b.dstCpu = a.dstCpu) :
    a.Kept b := ⟨ha, .inl ⟨hp, hc⟩⟩

theorem Kept.refl (a : MbIpcSocket) : a.Kept a := .of_eq rfl rfl rfl

theorem Kept.trans (h : a.Kept b) (h' : b.Kept c) : a.Kept c := by
  refine ⟨h'.allocated.trans h.allocated, ?_⟩
  rcases h'.dst with ⟨hp, hc⟩ | h0
  · rw [DstKept, hp, hc]
    exact h.dst
  · exact .inr h0

theorem kept_txCmplHandler (a : MbIpcSocket) (ack : MbIpcCmd) : a.Kept (a.txCmplHandler ack).1 := by
  rcases a.txCmplHandler_cases ack with ⟨cpu, port, he, -, hdst⟩ | he | ⟨st, he, -⟩ <;> rw [he]
  · refine ⟨rfl, ?_⟩
    rcases hdst with ⟨rfl, rfl⟩ | ⟨rfl, -⟩
    · exact .inl ⟨rfl, rfl⟩
    · exact .inr rfl
  · exact .refl a
  · exact .of_eq rfl rfl rfl

theorem kept_rxRspHandler (a : MbIpcSocket) (rsp : MbIpcCmd) : a.Kept (a.rxRspHandler rsp).2.1 := by
  rcases a.rxRspHandler_cases rsp with ⟨st, he⟩ | ⟨st, he, -⟩ <;> rw [he]
  · exact .refl a
  · exact .of_eq rfl rfl rfl

theorem kept_rxCmdAccept (a : MbIpcSocket) (c : MbIpcCmd) : a.Kept (a.rxCmdAccept c).socket := by
  simp only [rxCmdAccept, rxCmdConnect, rxCmdDisconnect, rxCmdDefaultHandler]
  split
  · exact .of_eq rfl rfl rfl
  split
  · exact .of_eq rfl rfl rfl
  · exact .of_eq rfl rfl rfl
  · repeat' split
    all_goals exact .of_eq rfl rfl rfl

theorem kept_rxCmdHandler (a : MbIpcSocket) (c : MbIpcCmd) : a.Kept (a.rxCmdHandler c).2.socket := by
  unfold rxCmdHandler
  split
  · exact .refl a
  · exact a.kept_rxCmdAccept c

theorem kept_sendStart (a : MbIpcSocket) (userCmd : BitVec 8) (len : Nat) (crc8 : BitVec 8) :
    a.Kept (a.sendStart userCmd len crc8).2 := by
  rcases a.sendStart_cases userCmd len crc8 with ⟨st, -, he⟩ | ⟨-, he⟩ <;> rw [he]
  · exact .refl a
  · exact .of_eq rfl rfl rfl

theorem kept_mbIpcRecvAsync (a : MbIpcSocket) (buffLen : Nat) (crc8 : BitVec 8) :
    a.Kept (a.mbIpcRecvAsync buffLen crc8).socket := by
  obtain ⟨o, st, he⟩ := a.mbIpcRecvAsync_socket buffLen crc8
  rw [he]
  exact .of_eq rfl rfl rfl

end MbIpcSocket

namespace IpcCpu

def Kept (s s' : IpcCpu) : Prop := ∀ x, (s.sock x).Kept (s'.sock x)

structure Accepted (s s' : IpcCpu) (c : MbIpcCmd) (p : Fin 4) (i : Fin 3) : Prop where
  cmd : c.cmd = .connect
  port : IpcPort.ofNum c.dstPort = some (.server p)
  new : ∀ j, ¬((s.sock (.server p j)).dstPort = c.srcPort ∧ (s.sock (.server p j)).dstCpu = c.srcCpu)
  allocated : (s.sock (.server p i)).allocated = true ∧ (s'.sock (.server p i)).allocated = true
  bound : (s'.sock (.server p i)).dstPort = c.srcPort ∧ (s'.sock (.server p i)).dstCpu = c.srcCpu
  other : ∀ x, x ≠ .server p i → s'.sock x = s.sock x

/-- What a handler does with a command: at most one connection is accepted. -/
def Handled (s s' : IpcCpu) (c : MbIpcCmd) : Prop :=
  s.Kept s' ∨ ∃ s₁ s₂ p i, s.Kept s₁ ∧ s₁.Accepted s₂ c p i ∧ s₂.Kept s'

variable {s s' s'' : IpcCpu} {x : SockId} {a : MbIpcSocket} {c : MbIpcCmd}

theorem setSock_self : (s.setSock x a).sock x = a := update_self ..

theorem setSock_of_ne {y : SockId} (h : y ≠ x) : (s.setSock x a).sock y = s.sock y := update_of_ne h ..

theorem socket_self {port : IpcPort} (h : s.allocatePort port) (hx : x.port = port) :
    (s.socket port).sock x = { s.sock x with allocated := true, connected := false } := by
  rw [socket, if_pos h]
  exact if_pos hx

theorem socket_of_ne {port : IpcPort} (hx : x.port ≠ port) : (s.socket port).sock x = s.sock x := by
  unfold socket
  split
  · exact if_neg hx
  · rfl

theorem Kept.refl (s : IpcCpu) : s.Kept s := fun x => .refl (s.sock x)

theorem Kept.trans (h : s.Kept s') (h' : s'.Kept s'') : s.Kept s'' := fun x => (h x).trans (h' x)

theorem Kept.setSock (h : (s.sock x).Kept a) : s.Kept (s.setSock x a) := by
  intro y
  by_cases hy : y = x
  · subst hy
    rw [setSock_self]
    exact h
  · rw [setSock_of_ne hy]
    exact .refl _

theorem Handled.of_kept (h : s.Kept s') (h' : s'.Handled s'' c) : s.Handled s'' c := by
  rcases h' with h' | ⟨s₁, s₂, p, i, h₁, hacc, h₂⟩
  · exact .inl (h.trans h')
  · exact .inr ⟨s₁, s₂, p, i, h.trans h₁, hacc, h₂⟩

theorem Handled.trans_kept (h : s.Handled s' c) (h' : s'.Kept s'') : s.Handled s'' c := by
  rcases h with h | ⟨s₁, s₂, p, i, h₁, hacc, h₂⟩
  · exact .inl (h.trans h')
  · exact .inr ⟨s₁, s₂, p, i, h₁, hacc, h₂.trans h'⟩

theorem kept_txCmplHandler (s : IpcCpu) (x : SockId) (ack : MbIpcCmd) : s.Kept (s.txCmplHandler x ack) := by
  have h : s.Kept (s.setSock x ((s.sock x).txCmplHandler ack).1) := .setSock (MbIpcSocket.kept_txCmplHandler ..)
  simp only [txCmplHandler]
  split
  · exact h
  · exact h

theorem kept_rxRspHandler (s : IpcCpu) (x : Option SockId) (rsp : MbIpcCmd) : s.Kept (s.rxRspHandler x rsp).2 := by
  cases x with
  | none => exact .refl s
  | some x =>
    have h : s.Kept (s.setSock x ((s.sock x).rxRspHandler rsp).2.1) := .setSock (MbIpcSocket.kept_rxRspHandler ..)
    simp only [rxRspHandler]
    split
    · exact h
    · exact h

theorem kept_localTxRsp (s : IpcCpu) (x : SockId) : s.Kept (s.localTxRsp x) := by
  have h : s.Kept (s.setSock x { s.sock x with rxCmd := (s.sock x).rspCmd }) := .setSock (.of_eq rfl rfl rfl)
  exact (h.trans (kept_txCmplHandler _ x _)).trans (kept_rxRspHandler _ _ _)

theorem kept_txRsp (s : IpcCpu) (x : SockId) : s.Kept (s.txRsp x) := by
  simp only [txRsp]
  split
  · exact s.kept_localTxRsp x
  split
  · exact .refl s
  · exact .setSock (.of_eq rfl rfl rfl)

theorem kept_rxCmdOn (s : IpcCpu) (x : SockId) (c : MbIpcCmd) : s.Kept (s.rxCmdOn x c).2 := by
  have h : s.Kept (s.setSock x ((s.sock x).rxCmdHandler c).2.socket) := .setSock (MbIpcSocket.kept_rxCmdHandler ..)
  simp only [rxCmdOn]
  split
  · refine Kept.trans ?_ (kept_txRsp _ x)
    split
    · exact h
    · exact h
  · split
    · exact h
    · exact h

theorem freeSlot_spec {p : Fin 4} {is : List (Fin 3)} {i : Fin 3} (h : s.freeSlot p is = some i) :
    (s.sock (.server p i)).allocated := by
  induction is with
  | nil => cases h
  | cons j is ih =>
    simp only [freeSlot] at h
    split at h
    next => cases h
    next hj =>
      split at h
      · exact ih h
      · cases h
        simpa using hj

theorem search_eq_none {port cpu dst : Nat} {p : Fin 4} (hp : IpcPort.ofNum port = some (.server p))
    (h : s.search port cpu dst = none) (j : Fin 3) :
    ¬((s.sock (.server p j)).dstPort = dst ∧ (s.sock (.server p j)).dstCpu = cpu) := by
  simp only [search, hp, Option.map_eq_none_iff, List.find?_eq_none] at h
  simpa using h j (mem_connectIds j)

theorem serverAccept_spec (hcmd : c.cmd = .connect) (hnone : s.searchRecver c.dstPort c.srcCpu c.srcPort = none)
    (h : s.serverAccept c.dstPort c.srcCpu c.srcPort = some (x, s')) :
      ∃ p i, x = .server p i ∧ s.Accepted s' c p i := by
  simp only [serverAccept] at h
  split at h
  next p hp =>
    obtain ⟨i, hi, he⟩ := Option.map_eq_some_iff.1 h
    cases he
    refine ⟨p, i, rfl, hcmd, hp, search_eq_none hp hnone, ⟨freeSlot_spec hi, ?_⟩, ?_, fun y hy => setSock_of_ne hy⟩
    · rw [setSock_self]
      exact freeSlot_spec hi
    · rw [setSock_self]
      exact ⟨rfl, rfl⟩
  next => cases h

theorem handled_rxCmdHandler (s : IpcCpu) (c : MbIpcCmd) :
    s.Handled (s.rxCmdHandler (s.searchRecver c.dstPort c.srcCpu c.srcPort) c).2 c := by
  cases hx : s.searchRecver c.dstPort c.srcCpu c.srcPort with
  | some x => exact .inl (s.kept_rxCmdOn x c)
  | none =>
    simp only [rxCmdHandler]
    split
    next hcmd =>
      split
      next y s₁ hacc =>
        obtain ⟨p, i, -, hacc⟩ := serverAccept_spec hcmd hx hacc
        exact .inr ⟨s, s₁, p, i, .refl s, hacc, kept_rxCmdOn _ _ _⟩
      next => exact .inl (.refl s)
    next => exact .inl (.refl s)

theorem handled_txCmd (s : IpcCpu) (x : SockId) : s.Handled (s.txCmd x).2 (s.sock x).nextCmd := by
  simp only [txCmd]
  split
  · have h : s.Kept (s.setSock x ((s.sock x).txCmdTo .statusOk)) := .setSock (.of_eq rfl rfl rfl)
    exact (Handled.of_kept h (handled_rxCmdHandler _ _)).trans_kept (kept_txCmplHandler _ _ _)
  split
  · exact .inl (.setSock (.of_eq rfl rfl rfl))
  · exact .inl (.setSock (.of_eq rfl rfl rfl))

theorem handled_rxIsr (s : IpcCpu) (c : MbIpcCmd) : s.Handled (s.rxIsr c) c := by
  simp only [rxIsr]
  split
  · exact .inl (s.kept_rxRspHandler _ c)
  · exact s.handled_rxCmdHandler c

theorem kept_txCmplIsr (s : IpcCpu) (ack : MbIpcCmd) : s.Kept (s.txCmplIsr ack) := by
  simp only [txCmplIsr]
  split
  next => exact .refl s
  next r _ =>
    split
    next => exact .refl s
    next x _ => exact kept_txCmplHandler { s with route := r } x ack

theorem kept_recvAsync (s : IpcCpu) (x : SockId) (buffLen : Nat) (crc8 : BitVec 8) :
    s.Kept (s.recvAsync x buffLen crc8) := by
  have h : s.Kept (s.setSock x ((s.sock x).mbIpcRecvAsync buffLen crc8).socket) :=
    .setSock (MbIpcSocket.kept_mbIpcRecvAsync ..)
  simp only [recvAsync]
  split
  · exact h.trans (kept_txRsp _ x)
  · exact h

theorem kept_getRecvDataLen (s : IpcCpu) (x : SockId) : s.Kept (s.getRecvDataLen x) := by
  simp only [getRecvDataLen]
  split
  · refine Kept.trans ?_ (kept_txRsp _ x)
    exact .setSock (.of_eq rfl rfl rfl)
  · exact .refl s

end IpcCpu
end Bk7258

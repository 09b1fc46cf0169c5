import Bk7258.MbIpc.Duo

/-!
# The local path and the route

Two sockets on one CPU reach each other directly, two sockets on different CPUs through the route. Here a route delivers
a packet as soon as it is written, and brings the ACK back when the receive interrupt of the other CPU has returned. A
socket that is bound to nobody has address 0, so what it sends goes to port 0 of CPU 0 and is unreachable. Wherever the
two sockets are, each packet does to them what it does in `Duo` (`Shows`).
-/

namespace Bk7258
open Lts Function

/-- The two CPUs; `rxSema` is the count of `rx_notify_sema`. -/
structure IpcNet where
  cpu : Fin 2 → IpcCpu
  rxSema : Fin 2 → IpcPort → Nat

namespace IpcNet
variable (n : IpcNet) (c : Fin 2)

def other (c : Fin 2) : Fin 2 := c.rev

def setCpu (s : IpcCpu) : IpcNet := { n with cpu := update n.cpu c s }

def setRxSema (port : IpcPort) (count : Nat) : IpcNet :=
  { n with rxSema := update n.rxSema c (update (n.rxSema c) port count) }

def rxNotify (x : SockId) : IpcNet := n.setRxSema c x.port (n.rxSema c x.port + 1)

def rxGet (x : SockId) : IpcNet := n.setRxSema c x.port (n.rxSema c x.port - 1)

def enqueue (p : MbIpcCmd) : IpcRouteStatus × IpcNet :=
  let (status, r) := (n.cpu c).route.enqueue p
  (status, n.setCpu c { n.cpu c with route := r })

/-- `ipc_router_send` has written a response of CPU `c`, as the only packet in the queue: `ipc_router_rx_isr` of the
other CPU, and `ipc_router_tx_cmpl_isr` with the ACK. -/
def deliverRsp (rsp : MbIpcCmd) : IpcNet :=
  let s := n.cpu (other c)
  let (status, s) := s.rxRspHandler (s.searchRecver rsp.dstPort rsp.srcCpu rsp.srcPort) rsp
  let n := n.setCpu (other c) s
  n.setCpu c ((n.cpu c).txCmplIsr (rsp.ack false status))

def txRsp (x : SockId) : IpcNet :=
  let s := n.cpu c
  let a := s.sock x
  if a.dstCpu = a.srcCpu then n.setCpu c (s.localTxRsp x)
  else if a.dstCpu ≠ other c then n
  else
    let (status, n) := n.enqueue c a.rspCmd
    let n := n.setCpu c ((n.cpu c).setSock x (a.txRsp status))
    if status = .statusOk && s.route.empty then n.deliverRsp c a.rspCmd else n

def rxCmdOn (x : SockId) (p : MbIpcCmd) : IpcRouteStatus × IpcNet :=
  let (status, r) := ((n.cpu c).sock x).rxCmdHandler p
  let s := (n.cpu c).setSock x r.socket
  let n := n.setCpu c (if r.post then s.post x else s)
  let n := if r.rsp then n.txRsp c x else n
  (status, if r.notify then n.rxNotify c x else n)

def rxCmdHandler (p : MbIpcCmd) : IpcRouteStatus × IpcNet :=
  match (n.cpu c).searchRecver p.dstPort p.srcCpu p.srcPort with
  | some x => n.rxCmdOn c x p
  | none =>
    if p.cmd = .connect then
      match (n.cpu c).serverAccept p.dstPort p.srcCpu p.srcPort with
      | some (x, s) => (n.setCpu c s).rxCmdOn c x p
      | none => (.unreachable, n)
    else (.unreachable, n)

def localTxCmd (x : SockId) : IpcNet :=
  let a := (n.cpu c).sock x
  let (status, n) := (n.setCpu c ((n.cpu c).setSock x (a.txCmdTo .statusOk))).rxCmdHandler c a.nextCmd
  n.setCpu c ((n.cpu c).txCmplHandler x (a.nextCmd.ack false status))

/-- `ipc_router_send` has written a command of CPU `c`, as the only packet in the queue. -/
def deliverCmd (p : MbIpcCmd) : IpcNet :=
  let (status, n) := n.rxCmdHandler (other c) p
  n.setCpu c ((n.cpu c).txCmplIsr (p.ack false status))

def txCmd (x : SockId) : IpcRouteStatus × IpcNet :=
  let s := n.cpu c
  let a := s.sock x
  if a.dstCpu = a.srcCpu then (.statusOk, n.localTxCmd c x)
  else if a.dstCpu ≠ other c then
    (.unreachable, n.setCpu c (s.setSock x { a with txTag := a.txTag + 1, txCmd.tag := a.txTag + 1 }))
  else
    let (status, n) := n.enqueue c a.nextCmd
    let n := n.setCpu c ((n.cpu c).setSock x (a.txCmdTo status))
    (status, if status = .statusOk && s.route.empty then n.deliverCmd c a.nextCmd else n)

def init : IpcNet where
  cpu := fun c => { sock := fun x => { srcPort := x.port.num, srcCpu := c }, route := .init }
  rxSema := fun _ _ => 0

end IpcNet

def IpcPort.sockId : IpcPort → SockId
  | .server p => .server p ⟨0, connectIds_pos⟩
  | .client p => .client p

@[simp] theorem IpcPort.port_sockId (port : IpcPort) : port.sockId.port = port := by
  cases port <;> rfl

structure IpcSetup where
  port : Bool → IpcPort
  port_ne : port false ≠ port true
  cpu : Bool → Fin 2

namespace IpcSetup
variable (S : IpcSetup)

def id (e : Bool) : SockId := (S.port e).sockId

def medium : IpcMedium IpcNet where
  port := S.port
  cpu := fun e => S.cpu e
  sock := fun n e => (n.cpu (S.cpu e)).sock (S.id e)
  setSock := fun n e a => n.setCpu (S.cpu e) ((n.cpu (S.cpu e)).setSock (S.id e) a)
  sema := fun n e => (n.cpu (S.cpu e)).sema (S.port e)
  get := fun n e => n.setCpu (S.cpu e) ((n.cpu (S.cpu e)).get (S.id e))
  rxSema := fun n e => n.rxSema (S.cpu e) (S.port e)
  rxGet := fun n e => n.rxGet (S.cpu e) (S.id e)
  txCmd := fun n e => n.txCmd (S.cpu e) (S.id e)
  txRsp := fun n e => n.txRsp (S.cpu e) (S.id e)

def socket (n : IpcNet) (e : Bool) : IpcNet := n.setCpu (S.cpu e) ((n.cpu (S.cpu e)).socket (S.port e))

def init : IpcNet := S.socket (S.socket .init false) true

def onOneCpu (port : Bool → IpcPort) (h : port false ≠ port true) (c : Fin 2) : IpcSetup := ⟨port, h, fun _ => c⟩

def onTwoCpus (port : Bool → IpcPort) (h : port false ≠ port true) (c : Fin 2) : IpcSetup :=
  ⟨port, h, fun e => if e then IpcNet.other c else c⟩

/-- What can be seen after the calls in `acts`; `none` if they are not in an order in which they can happen. -/
def run {T : Type} [DecidableEq T] (semaNotify : Bool → Bool) (mem : IpcMem) (acts : List (PathAct T)) :
    Option (PathObs T) :=
  (exec (PathSys.step S.medium semaNotify) (fun _ _ => True) { net := S.init, mem := mem } acts).map
    (PathSys.obs S.medium)

end IpcSetup

/-! ## The two sockets in the tables -/

namespace IpcNet
variable {n : IpcNet} {c : Fin 2} {s : IpcCpu}

@[simp] theorem cpu_setCpu : (n.setCpu c s).cpu c = s := update_self ..

theorem cpu_setCpu_of_ne {c' : Fin 2} (h : c' ≠ c) : (n.setCpu c s).cpu c' = n.cpu c' := update_of_ne h ..

@[simp] theorem setCpu_setCpu (t : IpcCpu) : (n.setCpu c s).setCpu c t = n.setCpu c t := by
  simp only [setCpu, update_idem]

theorem congr_setCpu {β : Type} (f : IpcCpu → β) (h : f s = f (n.cpu c)) (c' : Fin 2) :
    f ((n.setCpu c s).cpu c') = f (n.cpu c') := by
  by_cases hc : c' = c
  · rw [hc, cpu_setCpu, h]
  · rw [cpu_setCpu_of_ne hc]

theorem eq_other {c c' : Fin 2} (h : c' ≠ c) : c' = other c := by
  revert c c'
  decide

end IpcNet

namespace IpcSetup
variable {S : IpcSetup} {n : IpcNet} {d : Duo} {ρ : Fin 2 → List MbIpcCmd} {e : Bool}

theorem port_inj {e' : Bool} (h : S.port e' = S.port e) : e' = e := by
  cases e <;> cases e'
  · rfl
  · exact absurd h.symm S.port_ne
  · exact absurd h S.port_ne
  · rfl

theorem port_id (e : Bool) : (S.id e).port = S.port e := IpcPort.port_sockId _

theorem id_ne {e' : Bool} (h : e' ≠ e) : S.id e' ≠ S.id e := by
  intro he
  have hport := congrArg SockId.port he
  rw [port_id, port_id] at hport
  exact h (port_inj hport)

theorem server_ne_id {p : Fin 4} {i : Fin 3} (hi : i ≠ ⟨0, connectIds_pos⟩) : SockId.server p i ≠ S.id e := by
  intro he
  rw [id] at he
  cases hp : S.port e with
  | server q =>
    rw [hp] at he
    cases he
    exact hi rfl
  | client q =>
    rw [hp] at he
    cases he

/-- The two sockets are as in `d`, the other connections of a server are free, and `ρ` are the packets in the queues. -/
structure Shows (S : IpcSetup) (n : IpcNet) (d : Duo) (ρ : Fin 2 → List MbIpcCmd) : Prop where
  sock : ∀ e, (n.cpu (S.cpu e)).sock (S.id e) = d.sock e
  sema : ∀ e, (n.cpu (S.cpu e)).sema (S.port e) = d.sema e
  rxSema : ∀ e, n.rxSema (S.cpu e) (S.port e) = d.rxSema e
  rest : ∀ e p i, i ≠ ⟨0, connectIds_pos⟩ → ((n.cpu (S.cpu e)).sock (.server p i)).dstPort = 0
  route : ∀ c, (n.cpu c).route.packets = ρ c

namespace Shows

variable (h : S.Shows n d ρ)
include h

theorem setSock (e : Bool) (a : MbIpcSocket) :
    S.Shows (n.setCpu (S.cpu e) ((n.cpu (S.cpu e)).setSock (S.id e) a)) (d.set e a) ρ where
  sock := by
    intro e'
    by_cases he : e' = e
    · rw [he, IpcNet.cpu_setCpu, IpcCpu.setSock_self, Duo.set_self]
    · rw [Duo.set_of_ne he, ← h.sock e']
      exact IpcNet.congr_setCpu (·.sock (S.id e')) (IpcCpu.setSock_of_ne (id_ne he)) _
  sema := fun e' => by
    refine Eq.trans ?_ (h.sema e')
    exact IpcNet.congr_setCpu (·.sema (S.port e')) (by rfl) _
  rxSema := h.rxSema
  rest := fun e' p i hi => by
    rw [← h.rest e' p i hi]
    exact IpcNet.congr_setCpu (fun s => (s.sock (.server p i)).dstPort)
      (by rw [IpcCpu.setSock_of_ne (server_ne_id hi)]) _
  route := fun c => by
    rw [← h.route c]
    exact IpcNet.congr_setCpu (·.route.packets) (by rfl) _

theorem setSema (e : Bool) (k : Nat) :
    S.Shows (n.setCpu (S.cpu e) { n.cpu (S.cpu e) with sema := update (n.cpu (S.cpu e)).sema (S.port e) k })
      { d with sema := update d.sema e k } ρ where
  sock := fun e' => by
    rw [← h.sock e']
    exact IpcNet.congr_setCpu (·.sock (S.id e')) (by rfl) _
  sema := by
    intro e'
    by_cases he : e' = e
    · rw [he, IpcNet.cpu_setCpu]
      dsimp only
      rw [update_self, update_self]
    · dsimp only
      rw [update_of_ne he, ← h.sema e']
      exact IpcNet.congr_setCpu (·.sema (S.port e')) (update_of_ne (fun hp => he (port_inj hp)) ..) _
  rxSema := h.rxSema
  rest := fun e' p i hi => by
    rw [← h.rest e' p i hi]
    exact IpcNet.congr_setCpu (fun s => (s.sock (.server p i)).dstPort) (by rfl) _
  route := fun c => by
    rw [← h.route c]
    exact IpcNet.congr_setCpu (·.route.packets) (by rfl) _

theorem setRoute (c : Fin 2) (r : MbIpcRoute) :
    S.Shows (n.setCpu c { n.cpu c with route := r }) d (update ρ c r.packets) where
  sock := fun e' => by
    rw [← h.sock e']
    exact IpcNet.congr_setCpu (·.sock (S.id e')) (by rfl) _
  sema := fun e' => by
    rw [← h.sema e']
    exact IpcNet.congr_setCpu (·.sema (S.port e')) (by rfl) _
  rxSema := h.rxSema
  rest := fun e' p i hi => by
    rw [← h.rest e' p i hi]
    exact IpcNet.congr_setCpu (fun s => (s.sock (.server p i)).dstPort) (by rfl) _
  route := by
    intro c'
    by_cases hc : c' = c
    · rw [hc, IpcNet.cpu_setCpu, update_self]
    · rw [IpcNet.cpu_setCpu_of_ne hc, update_of_ne hc]
      exact h.route c'

theorem setRxSema (e : Bool) (k : Nat) :
    S.Shows (n.setRxSema (S.cpu e) (S.port e) k) { d with rxSema := update d.rxSema e k } ρ where
  sock := h.sock
  sema := h.sema
  rxSema := by
    intro e'
    dsimp only [IpcNet.setRxSema]
    by_cases he : e' = e
    · rw [he, update_self, update_self, update_self]
    · rw [update_of_ne he, ← h.rxSema e']
      by_cases hc : S.cpu e' = S.cpu e
      · rw [hc, update_self, update_of_ne (fun hp => he (port_inj hp))]
      · rw [update_of_ne hc]
  rest := h.rest
  route := h.route

theorem put (e : Bool) (a : MbIpcSocket) (p : Bool) :
    S.Shows (n.setCpu (S.cpu e) (if p then ((n.cpu (S.cpu e)).setSock (S.id e) a).post (S.id e)
      else (n.cpu (S.cpu e)).setSock (S.id e) a)) (if p then (d.set e a).post e else d.set e a) ρ := by
  have hset := h.setSock e a
  cases p with
  | false => exact hset
  | true =>
    have hpost := hset.setSema e (d.sema e + 1)
    rw [IpcNet.setCpu_setCpu, IpcNet.cpu_setCpu] at hpost
    simp only [if_true, IpcCpu.post, port_id]
    rw [show ((n.cpu (S.cpu e)).setSock (S.id e) a).sema (S.port e) = d.sema e from h.sema e]
    exact hpost

end Shows

/-! ## Looking the sockets up -/

def Addr (S : IpcSetup) (d : Duo) : Prop :=
  ∀ e, (d.sock e).Addressed (S.port e) (S.port !e) (S.cpu e) (S.cpu !e)

theorem connectIds_eq : connectIds = [0, 1, 2] := rfl

theorem id_server {p : Fin 4} (hp : S.port e = .server p) : S.id e = .server p 0 := by
  rw [id, hp]
  rfl

theorem id_client {p : Fin 12} (hp : S.port e = .client p) : S.id e = .client p := by
  rw [id, hp]
  rfl

theorem search_peer (h : S.Shows n d ρ) (ha : S.Addr d) (e : Bool) :
    (n.cpu (S.cpu e)).search (S.port e).num (S.cpu !e) (S.port !e).num =
      if (d.sock e).dstPort = (S.port !e).num then some (S.id e) else none := by
  have hsock := h.sock e
  have hpos := (S.port !e).num_pos
  have hcpu : (d.sock e).dstPort = (S.port !e).num → (d.sock e).dstCpu = S.cpu !e := by
    intro hport
    rcases (ha e).dst with ⟨h0, -⟩ | ⟨-, hc⟩
    · omega
    · exact hc
  rw [IpcCpu.search, IpcPort.ofNum_num]
  cases hp : S.port e with
  | client p =>
    rw [id_client hp] at hsock ⊢
    simp only [hsock]
    by_cases hport : (d.sock e).dstPort = (S.port !e).num
    · rw [if_neg (by simp [hport, hcpu hport]), if_pos hport]
    · rw [if_pos (.inr hport), if_neg hport]
  | server p =>
    rw [id_server hp] at hsock ⊢
    dsimp only
    by_cases hport : (d.sock e).dstPort = (S.port !e).num
    · rw [connectIds_eq, List.find?_cons_of_pos (by simp [hsock, hport, hcpu hport]), if_pos hport]
      rfl
    · rw [if_neg hport, Option.map_eq_none_iff, List.find?_eq_none]
      intro i _
      by_cases hi : i = 0
      · simp [hi, hsock, hport]
      · have hrest := h.rest e p i hi
        simp only [hrest, decide_eq_true_eq, not_and]
        omega

theorem search_self (h : S.Shows n d ρ) (e : Bool) :
    (n.cpu (S.cpu e)).search (S.port e).num (d.sock e).dstCpu (d.sock e).dstPort = some (S.id e) := by
  have hsock := h.sock e
  rw [IpcCpu.search, IpcPort.ofNum_num]
  cases hp : S.port e with
  | client p =>
    rw [id_client hp] at hsock ⊢
    simp [hsock]
  | server p =>
    rw [id_server hp] at hsock ⊢
    simp [connectIds_eq, hsock]

theorem search_zero (s : IpcCpu) (cpu port : Nat) : s.search 0 cpu port = none := rfl

theorem isServerPort_server : ∀ p : Fin 4, isServerPort (IpcPort.server p).num := by decide

theorem isServerPort_client : ∀ p : Fin 12, isServerPort (IpcPort.client p).num = false := by decide

theorem serverAccept_peer (h : S.Shows n d ρ) (e : Bool) (hdst : (d.sock e).dstPort = 0) (p : MbIpcCmd)
    (hport : p.dstPort = (S.port e).num) : (n.cpu (S.cpu e)).serverAccept p.dstPort p.srcCpu p.srcPort =
      if isServerPort (S.port e).num ∧ (d.sock e).allocated then
        some (S.id e, (n.cpu (S.cpu e)).setSock (S.id e) ((d.accept e p).sock e)) else none := by
  have hsock := h.sock e
  rw [hport, IpcCpu.serverAccept, IpcPort.ofNum_num]
  cases hp : S.port e with
  | client q => rw [isServerPort_client, if_neg (by simp)]
  | server q =>
    rw [id_server hp] at hsock ⊢
    cases halloc : (d.sock e).allocated with
    | false => simp [connectIds_eq, IpcCpu.freeSlot, hsock, halloc]
    | true => simp [connectIds_eq, IpcCpu.freeSlot, hsock, halloc, hdst, isServerPort_server, isClientPort, Duo.accept]

theorem Addr.dst (ha : S.Addr d) (e : Bool) : ∃ k : Fin 2, (d.sock e).dstCpu = k ∧
    ((d.sock e).dstPort = 0 ∨ (d.sock e).dstPort = (S.port !e).num ∧ k = S.cpu !e) := by
  rcases (ha e).dst with ⟨hport, hcpu⟩ | ⟨hport, hcpu⟩
  · exact ⟨0, hcpu, .inl hport⟩
  · exact ⟨S.cpu !e, hcpu, .inr ⟨hport, rfl⟩⟩

theorem Addr.set (ha : S.Addr d) {a : MbIpcSocket} (h : a.Addressed (S.port e) (S.port !e) (S.cpu e) (S.cpu !e)) :
    S.Addr (d.set e a) := by
  intro e'
  by_cases he : e' = e
  · rw [he, Duo.set_self]
    exact h
  · rw [Duo.set_of_ne he]
    exact ha e'

theorem search_rsp (h : S.Shows n d ρ) (ha : S.Addr d) (e : Bool) {k : Fin 2} (hk : (d.sock e).dstCpu = k) :
    (n.cpu k).search (d.sock e).dstPort (S.cpu e) (S.port e).num =
      (if (d.sock e).dstPort = (d.sock !e).srcPort ∧ (d.sock !e).dstPort = (S.port e).num then
        some (S.id !e) else none) ∧
    ((d.sock e).dstPort = (d.sock !e).srcPort → k = S.cpu !e) := by
  have hsrc := (ha !e).src.1
  have hpos := (S.port !e).num_pos
  rcases (ha e).dst with ⟨hport, -⟩ | ⟨hport, hcpu⟩
  · have hne : ¬(d.sock e).dstPort = (d.sock !e).srcPort := by
      rw [hport, hsrc]
      exact Nat.ne_of_lt hpos
    rw [if_neg fun hc => hne hc.1, hport]
    exact ⟨search_zero .., fun hc => absurd (hport.trans hc) hne⟩
  · have hkc : k = S.cpu !e := Fin.ext (hk.symm.trans hcpu)
    refine ⟨?_, fun _ => hkc⟩
    have hpeer := search_peer h ha (!e)
    rw [Bool.not_not] at hpeer
    rw [hkc, hport, hpeer, hsrc]
    simp only [true_and]

/-! ## Packets -/

end IpcSetup

namespace MbIpcSocket
variable (a : MbIpcSocket)

theorem answered_local : { a with rxCmd := a.rspCmd }.txCmplHandler a.rspCmd = (a.answered, false) := by
  by_cases hcmd : a.rxCmd.cmd = .disconnect
  · simp [txCmplHandler, answered, rspCmd, setAddr, hcmd]
  · simp [txCmplHandler, answered, rspCmd, setAddr, hcmd]

theorem answered_ack (st : IpcRouteStatus) :
    (a.txRsp .statusOk).txCmplHandler (a.rspCmd.ack false st) = (a.answered, false) := by
  by_cases hcmd : a.rxCmd.cmd = .disconnect
  · simp [txCmplHandler, answered, txRsp, rspCmd, setAddr, MbIpcCmd.ack, hcmd]
  · simp [txCmplHandler, answered, txRsp, rspCmd, setAddr, MbIpcCmd.ack, hcmd]

theorem txCmplHandler_ack (hrsp : a.txCmd.rsp = false) (st : IpcRouteStatus) : a.txCmplHandler (a.txCmd.ack false st) =
    if st = .statusOk then (a, false) else ({ a with txStatus := .routeFailed st, txInProcess := false }, true) := by
  by_cases hst : st = .statusOk
  · simp [txCmplHandler, MbIpcCmd.ack, hrsp, hst]
  · simp [txCmplHandler, MbIpcCmd.sameCmd, MbIpcCmd.ack, hrsp, hst]

end MbIpcSocket

namespace IpcSetup
variable {S : IpcSetup} {n : IpcNet} {d : Duo} {ρ : Fin 2 → List MbIpcCmd} {e : Bool}

namespace Shows

section
variable (h : S.Shows n d ρ)
include h

theorem txCmplHandler (e : Bool) {ack : MbIpcCmd} {a : MbIpcSocket} {p : Bool}
    (he : (d.sock e).txCmplHandler ack = (a, p)) :
    S.Shows (n.setCpu (S.cpu e) ((n.cpu (S.cpu e)).txCmplHandler (S.id e) ack))
      (if p then (d.set e a).post e else d.set e a) ρ := by
  rw [IpcCpu.txCmplHandler, h.sock, he]
  exact h.put e a p

theorem rxRspHandler (e : Bool) (rsp : MbIpcCmd) :
    S.Shows (n.setCpu (S.cpu e) ((n.cpu (S.cpu e)).rxRspHandler (some (S.id e)) rsp).2) (d.rxRsp e rsp) ρ := by
  rw [IpcCpu.rxRspHandler, h.sock]
  exact h.put e _ _

theorem enqueue {c : Fin 2} (hρ : ρ c = []) (p : MbIpcCmd) :
    ∃ n', n.enqueue c p = (.statusOk, n') ∧ S.Shows n' d (update ρ c [p]) := by
  have hpackets := (h.route c).trans hρ
  rcases (n.cpu c).route.enqueue_cases p with ⟨-, hfull⟩ | ⟨he, hpush, -⟩
  · rw [hpackets] at hfull
    exact absurd hfull (by decide)
  · refine ⟨n.setCpu c { n.cpu c with route := (n.cpu c).route.push p }, by rw [IpcNet.enqueue, he], ?_⟩
    have hroute := h.setRoute c ((n.cpu c).route.push p)
    rw [hpush, hpackets] at hroute
    exact hroute

theorem txCmplIsr {p : MbIpcCmd} (hρ : ρ (S.cpu e) = [p])
    (hp : p.srcPort = (S.port e).num ∧ p.dstCpu = (d.sock e).dstCpu ∧ p.dstPort = (d.sock e).dstPort)
    (st : IpcRouteStatus) {a : MbIpcSocket} {post : Bool} (he : (d.sock e).txCmplHandler (p.ack false st) = (a, post)) :
    S.Shows (n.setCpu (S.cpu e) ((n.cpu (S.cpu e)).txCmplIsr (p.ack false st)))
      (if post then (d.set e a).post e else d.set e a) (update ρ (S.cpu e) []) := by
  have hpackets := (h.route (S.cpu e)).trans hρ
  have hempty : (n.cpu (S.cpu e)).route.empty = false := by
    rw [Bool.eq_false_iff, ne_eq, MbIpcRoute.empty_iff, hpackets]
    nofun
  rw [MbIpcRoute.packets_eq_head_cons _ hempty, List.cons.injEq] at hpackets
  obtain ⟨hhead, hpop⟩ := hpackets
  have htx : (n.cpu (S.cpu e)).route.txCmpl (p.ack false st) = some (n.cpu (S.cpu e)).route.pop := by
    rw [MbIpcRoute.txCmpl, hempty, hhead, MbIpcCmd.sameCmd_ack]
    rfl
  have hroute := h.setRoute (S.cpu e) (n.cpu (S.cpu e)).route.pop
  rw [hpop] at hroute
  have hself := search_self hroute e
  have hcmpl := hroute.txCmplHandler e he
  rw [IpcNet.cpu_setCpu] at hself hcmpl
  rw [IpcNet.setCpu_setCpu] at hcmpl
  rw [IpcCpu.txCmplIsr, htx]
  dsimp only [IpcCpu.searchSender]
  rw [show (p.ack false st).srcPort = (S.port e).num from hp.1, show (p.ack false st).dstCpu = _ from hp.2.1,
    show (p.ack false st).dstPort = _ from hp.2.2, hself]
  exact hcmpl

theorem rxRsp (rsp : MbIpcCmd) {k : Fin 2} {x : Option SockId} {p : Prop} [Decidable p]
    (hx : x = if p then some (S.id !e) else none) (hk : p → k = S.cpu !e) :
    S.Shows (n.setCpu k ((n.cpu k).rxRspHandler x rsp).2) (if p then d.rxRsp (!e) rsp else d) ρ := by
  by_cases hp : p
  · rw [hx, if_pos hp, if_pos hp, hk hp]
    exact h.rxRspHandler (!e) rsp
  · rw [hx, if_neg hp, if_neg hp]
    show S.Shows (n.setCpu k (n.cpu k)) d ρ
    rw [IpcNet.setCpu, update_eq_self]
    exact h

theorem localTxRsp (ha : S.Addr d) (hlocal : (d.sock e).dstCpu = S.cpu e) :
    S.Shows (n.setCpu (S.cpu e) ((n.cpu (S.cpu e)).localTxRsp (S.id e))) (d.txRsp e) ρ := by
  have haddr := ha e
  have h₁ := h.setSock e { d.sock e with rxCmd := (d.sock e).rspCmd }
  have ha₁ : S.Addr (d.set e { d.sock e with rxCmd := (d.sock e).rspCmd }) := ha.set ⟨haddr.src, haddr.dst, haddr.txCmd⟩
  obtain ⟨hsearch, hk⟩ := search_rsp h₁ ha₁ e (k := S.cpu e) (by rw [Duo.set_self]; exact hlocal)
  have hans : ((d.set e { d.sock e with rxCmd := (d.sock e).rspCmd }).sock e).txCmplHandler (d.sock e).rspCmd =
      ((d.sock e).answered, false) := by
    rw [Duo.set_self]
    exact (d.sock e).answered_local
  have h₂ := h₁.txCmplHandler e hans
  simp only [Bool.false_eq_true, if_false, Duo.set_set, IpcNet.cpu_setCpu, IpcNet.setCpu_setCpu] at h₂
  rw [IpcNet.cpu_setCpu, Duo.set_self, Duo.set_peer] at hsearch
  rw [Duo.set_self, Duo.set_peer] at hk
  have h₃ := h₂.rxRsp (d.sock e).rspCmd hsearch fun hp => hk hp.1
  rw [IpcNet.cpu_setCpu, IpcNet.setCpu_setCpu] at h₃
  rw [IpcCpu.localTxRsp, h.sock]
  rw [← haddr.src.1, ← haddr.src.2] at h₃
  exact h₃

theorem deliverRsp (ha : S.Addr d) (hk : (d.sock e).dstCpu = IpcNet.other (S.cpu e))
    (hρ : ρ (S.cpu e) = [(d.sock e).rspCmd]) :
    S.Shows ((n.setCpu (S.cpu e) ((n.cpu (S.cpu e)).setSock (S.id e) ((d.sock e).txRsp .statusOk))).deliverRsp (S.cpu e)
      (d.sock e).rspCmd) (d.txRsp e) (update ρ (S.cpu e) []) := by
  have haddr := ha e
  have h₁ := h.setSock e ((d.sock e).txRsp .statusOk)
  have ha₁ : S.Addr (d.set e ((d.sock e).txRsp .statusOk)) := ha.set ⟨haddr.src, haddr.dst, haddr.txCmd⟩
  obtain ⟨hsearch, hcpu⟩ := search_rsp h₁ ha₁ e (k := IpcNet.other (S.cpu e)) (by rw [Duo.set_self]; exact hk)
  rw [Duo.set_self, Duo.set_peer] at hsearch hcpu
  obtain ⟨d₂, hd₂, h₂⟩ : ∃ d₂, (d₂.sock e = (d.sock e).txRsp .statusOk ∧ d₂.set e (d.sock e).answered = d.txRsp e) ∧
      S.Shows _ d₂ ρ := by
    refine ⟨_, ?_, h₁.rxRsp (d.sock e).rspCmd hsearch fun hp => hcpu hp.1⟩
    rw [Duo.txRsp, show (d.sock e).rspCmd.srcPort = (S.port e).num from haddr.src.1]
    split
    next hp =>
      refine ⟨by rw [Duo.rxRsp_peer, Duo.set_self], ?_⟩
      rw [← Duo.rxRsp_set, Duo.set_set]
      exact (if_pos hp).symm
    next hp =>
      refine ⟨Duo.set_self _, ?_⟩
      rw [Duo.set_set]
      exact (if_neg hp).symm
  have hans : ∀ st, (d₂.sock e).txCmplHandler ((d.sock e).rspCmd.ack false st) = ((d.sock e).answered, false) := by
    intro st
    rw [hd₂.1]
    exact (d.sock e).answered_ack st
  have h₃ := fun st => h₂.txCmplIsr hρ (by rw [hd₂.1]; exact ⟨haddr.src.1, rfl, rfl⟩) st (hans st)
  simp only [Bool.false_eq_true, if_false, hd₂.2] at h₃
  rw [← haddr.src.1, ← haddr.src.2] at h₃
  exact h₃ _

theorem txRsp (ha : S.Addr d) (hρ : ρ (S.cpu e) = []) :
    S.Shows (n.txRsp (S.cpu e) (S.id e)) (d.txRsp e) ρ := by
  have haddr := ha e
  obtain ⟨k, hk, -⟩ := ha.dst e
  unfold IpcNet.txRsp
  dsimp only
  rw [h.sock]
  by_cases hc : k = S.cpu e
  · rw [if_pos (by rw [hk, hc, haddr.src.2])]
    exact h.localTxRsp ha (hk.trans (congrArg Fin.val hc))
  · have hother := IpcNet.eq_other hc
    rw [if_neg (by rw [hk, haddr.src.2]; exact fun he => hc (Fin.ext he)),
      if_neg (by rw [hk, hother]; exact fun he => he rfl)]
    obtain ⟨n₁, he, h₁⟩ := h.enqueue hρ (d.sock e).rspCmd
    have hempty : (n.cpu (S.cpu e)).route.empty = true := by rw [MbIpcRoute.empty_iff, h.route, hρ]
    rw [he, hempty]
    have h₂ := h₁.deliverRsp ha (hk.trans (congrArg Fin.val hother)) (update_self ..)
    rw [update_idem, ← hρ, update_eq_self] at h₂
    exact h₂

theorem rxNotify (e : Bool) : S.Shows (n.rxNotify (S.cpu e) (S.id e)) (d.rxPost e) ρ := by
  rw [IpcNet.rxNotify, port_id, h.rxSema]
  exact h.setRxSema e _

theorem rxCmdOn (ha : S.Addr d) (hρ : ρ (S.cpu e) = []) (p : MbIpcCmd) :
    (n.rxCmdOn (S.cpu e) (S.id e) p).1 = (d.rxCmdOn e p).1 ∧
      S.Shows (n.rxCmdOn (S.cpu e) (S.id e) p).2 (d.rxCmdOn e p).2 ρ := by
  have hra := (ha e).rxCmdHandler p
  unfold IpcNet.rxCmdOn Duo.rxCmdOn
  rw [h.sock]
  obtain ⟨⟨status, sock, rsp, notify, post⟩, hr⟩ : ∃ q, (d.sock e).rxCmdHandler p = q := ⟨_, rfl⟩
  rw [hr] at hra ⊢
  refine ⟨rfl, ?_⟩
  have h₁ := h.put e sock post
  have ha₁ : S.Addr (if post then (d.set e sock).post e else d.set e sock) := by
    split
    · exact ha.set hra
    · exact ha.set hra
  have h₂ := h₁.txRsp ha₁ hρ
  cases rsp with
  | false =>
    cases notify with
    | false => exact h₁
    | true => exact h₁.rxNotify e
  | true =>
    cases notify with
    | false => exact h₂
    | true => exact h₂.rxNotify e

theorem rxCmd (ha : S.Addr d) {k : Fin 2} {p : MbIpcCmd}
    (hdst : p.dstPort = 0 ∨ p.dstPort = (S.port e).num ∧ k = S.cpu e)
    (hsrc : p.srcPort = (S.port !e).num ∧ p.srcCpu = S.cpu !e) (hρ : ρ k = []) :
    (n.rxCmdHandler k p).1 = (d.rxCmd e p).1 ∧ S.Shows (n.rxCmdHandler k p).2 (d.rxCmd e p).2 ρ := by
  have haddr := (ha e).src.1
  have hpos := (S.port e).num_pos
  unfold IpcNet.rxCmdHandler Duo.rxCmd
  rw [IpcCpu.searchRecver, hsrc.1, hsrc.2, haddr]
  rcases hdst with hport | ⟨hport, rfl⟩
  · -- nobody has port 0
    rw [hport, search_zero, if_pos (Nat.ne_of_lt hpos)]
    split_ifs
    · exact ⟨rfl, h⟩
    · exact ⟨rfl, h⟩
  rw [hport, search_peer h ha e, if_neg (show ¬(S.port e).num ≠ (S.port e).num from fun hne => hne rfl)]
  by_cases hbound : (d.sock e).dstPort = (S.port !e).num
  · rw [if_pos hbound, if_pos hbound]
    exact h.rxCmdOn ha hρ p
  rw [if_neg hbound, if_neg hbound]
  have hfree : (d.sock e).dstPort = 0 := by
    rcases (ha e).dst with ⟨h0, -⟩ | ⟨hb, -⟩
    · exact h0
    · exact absurd hb hbound
  have haccept := serverAccept_peer h e hfree p hport
  rw [hport, hsrc.1, hsrc.2] at haccept
  rw [haccept]
  by_cases hcmd : p.cmd = .connect
  · by_cases hserver : isServerPort (S.port e).num ∧ (d.sock e).allocated
    · rw [if_pos hcmd, if_pos hserver, if_pos ⟨hcmd, hserver.1, hserver.2⟩]
      have h₁ := h.setSock e ((d.accept e p).sock e)
      have hd : d.set e ((d.accept e p).sock e) = d.accept e p := by rw [Duo.accept, Duo.set_self]
      have ha₁ : S.Addr (d.accept e p) := ha.set ⟨(ha e).src, .inr hsrc, (ha e).txCmd⟩
      rw [hd] at h₁
      exact h₁.rxCmdOn ha₁ hρ p
    · rw [if_pos hcmd, if_neg hserver, if_neg fun hc => hserver hc.2]
      exact ⟨rfl, h⟩
  · rw [if_neg hcmd, if_neg fun hc => hcmd hc.1]
    exact ⟨rfl, h⟩

theorem sendCmd (ha : S.Addr d) {k : Fin 2} (hk : (d.sock e).dstCpu = k) (hρ : ρ k = []) :
    ∃ status n' d', (n.setCpu (S.cpu e) ((n.cpu (S.cpu e)).setSock (S.id e)
      ((d.sock e).txCmdTo .statusOk))).rxCmdHandler k
        (d.sock e).nextCmd = (status, n') ∧
      S.Shows n' d' ρ ∧ d.txCmd e = d'.refuse e status ∧ (d'.sock e).txCmd = (d.sock e).nextCmd ∧
      (d'.sock e).dstCpu = (d.sock e).dstCpu ∧ (d'.sock e).dstPort = (d.sock e).dstPort := by
  have haddr := ha e
  have h₁ := h.setSock e ((d.sock e).txCmdTo .statusOk)
  have ha₁ : S.Addr (d.set e ((d.sock e).txCmdTo .statusOk)) := ha.set ⟨haddr.src, haddr.dst, haddr.txCmd⟩
  have hdst : (d.sock e).dstPort = 0 ∨ (d.sock e).dstPort = (S.port !e).num ∧ k = S.cpu !e := by
    obtain ⟨k', hk', hdst⟩ := ha.dst e
    rwa [show k = k' from Fin.ext (hk.symm.trans hk')]
  obtain ⟨hst, h₂⟩ := h₁.rxCmd (e := !e) ha₁ (p := (d.sock e).nextCmd) hdst (by rw [Bool.not_not]; exact haddr.src) hρ
  obtain ⟨st, tx, htold⟩ := Duo.rxCmd_peer (d := d.set e ((d.sock e).txCmdTo .statusOk)) (e := !e)
    (c := (d.sock e).nextCmd)
  rw [Bool.not_not, Duo.set_self] at htold
  refine ⟨_, _, _, Prod.ext hst rfl, h₂, rfl, ?_⟩
  rw [htold]
  exact ⟨rfl, rfl, rfl⟩

end

theorem refuse_cases {p : MbIpcCmd} (hp : (d.sock e).txCmd = p) (hrsp : p.rsp = false) (st : IpcRouteStatus) : ∃ a post,
    (d.sock e).txCmplHandler (p.ack false st) = (a, post) ∧
      (if post then (d.set e a).post e else d.set e a) = d.refuse e st := by
  subst hp
  rw [MbIpcSocket.txCmplHandler_ack _ hrsp, Duo.refuse]
  by_cases hst : st = .statusOk
  · refine ⟨d.sock e, false, if_pos hst, ?_⟩
    rw [if_pos hst, Duo.set, update_eq_self]
    rfl
  · refine ⟨_, true, if_neg hst, ?_⟩
    rw [if_neg hst]
    rfl

theorem localTxCmd (h : S.Shows n d ρ) (ha : S.Addr d) (hk : (d.sock e).dstCpu = S.cpu e) (hρ : ρ (S.cpu e) = []) :
    S.Shows (n.localTxCmd (S.cpu e) (S.id e)) (d.txCmd e) ρ := by
  obtain ⟨status, n', d', hn, h', hd, htx, -⟩ := h.sendCmd ha hk hρ
  obtain ⟨a, post, he, hrefuse⟩ := refuse_cases htx (ha e).txCmd status
  have h₂ := h'.txCmplHandler e he
  rw [hrefuse, ← hd] at h₂
  rw [IpcNet.localTxCmd, h.sock, hn]
  exact h₂

theorem deliverCmd (h : S.Shows n d ρ) (ha : S.Addr d) (hk : (d.sock e).dstCpu = IpcNet.other (S.cpu e))
    (hρ : ρ (S.cpu e) = [(d.sock e).nextCmd]) (hpeer : ρ (IpcNet.other (S.cpu e)) = []) :
    S.Shows ((n.setCpu (S.cpu e) ((n.cpu (S.cpu e)).setSock (S.id e)
      ((d.sock e).txCmdTo .statusOk))).deliverCmd (S.cpu e)
      (d.sock e).nextCmd) (d.txCmd e) (update ρ (S.cpu e) []) := by
  obtain ⟨status, n', d', hn, h', hd, htx, hdst⟩ := h.sendCmd ha hk hpeer
  obtain ⟨a, post, he, hrefuse⟩ := refuse_cases htx (ha e).txCmd status
  have h₂ := h'.txCmplIsr hρ ⟨(ha e).src.1, hdst.1.symm, hdst.2.symm⟩ status he
  rw [hrefuse, ← hd] at h₂
  rw [IpcNet.deliverCmd, hn]
  exact h₂

theorem txCmd (h : S.Shows n d fun _ => []) (ha : S.Addr d) (e : Bool) :
    (n.txCmd (S.cpu e) (S.id e)).1 = .statusOk ∧ S.Shows (n.txCmd (S.cpu e) (S.id e)).2 (d.txCmd e) fun _ => [] := by
  have haddr := ha e
  obtain ⟨k, hk, -⟩ := ha.dst e
  unfold IpcNet.txCmd
  dsimp only
  rw [h.sock]
  by_cases hc : k = S.cpu e
  · rw [if_pos (by rw [hk, hc, haddr.src.2])]
    exact ⟨rfl, h.localTxCmd ha (hk.trans (congrArg Fin.val hc)) rfl⟩
  · have hother := IpcNet.eq_other hc
    rw [if_neg (by rw [hk, haddr.src.2]; exact fun he => hc (Fin.ext he)),
      if_neg (by rw [hk, hother]; exact fun he => he rfl)]
    obtain ⟨n₁, he, h₁⟩ := h.enqueue (c := S.cpu e) rfl (d.sock e).nextCmd
    have hempty : (n.cpu (S.cpu e)).route.empty = true := by rw [MbIpcRoute.empty_iff, h.route]
    rw [he, hempty]
    refine ⟨rfl, ?_⟩
    have h₂ := h₁.deliverCmd ha (hk.trans (congrArg Fin.val hother)) (update_self ..)
      (update_of_ne (hother ▸ hc) ..)
    rw [update_idem, update_eq_self_iff.2 rfl] at h₂
    exact h₂

end Shows

/-! ## One CPU or two -/

theorem Addr.told {d' : Duo} (ha : S.Addr d) (hself : (d'.sock e).Addressed (S.port e) (S.port !e) (S.cpu e) (S.cpu !e))
    (hpeer : Duo.Told d d' !e) : S.Addr d' := by
  intro e'
  by_cases he : e' = e
  · rw [he]
    exact hself
  · obtain rfl : e' = !e := Bool.eq_not_of_ne he
    obtain ⟨st, tx, htold⟩ := hpeer
    rw [htold]
    exact ⟨(ha _).src, (ha _).dst, (ha _).txCmd⟩

theorem Addr.txRsp (ha : S.Addr d) (e : Bool) : S.Addr (d.txRsp e) := by
  refine ha.told (e := e) ?_ Duo.txRsp_peer
  rw [Duo.txRsp_self]
  exact (ha e).answered

theorem Addr.refuse (ha : S.Addr d) (e : Bool) (st : IpcRouteStatus) : S.Addr (d.refuse e st) := by
  rw [Duo.refuse]
  split
  · exact ha
  · exact ha.set ⟨(ha e).src, (ha e).dst, (ha e).txCmd⟩

theorem Addr.txCmd (ha : S.Addr d) (e : Bool) : S.Addr (d.txCmd e) := by
  have ha₁ : S.Addr (d.set e ((d.sock e).txCmdTo .statusOk)) := ha.set ⟨(ha e).src, (ha e).dst, (ha e).txCmd⟩
  exact (ha₁.told (Duo.rxCmd_self (ha₁ !e) (by rw [Bool.not_not]; exact (ha e).src)) Duo.rxCmd_peer).refuse e _

def view (S : IpcSetup) (n : IpcNet) : Duo where
  sock := fun e => (n.cpu (S.cpu e)).sock (S.id e)
  sema := fun e => (n.cpu (S.cpu e)).sema (S.port e)
  rxSema := fun e => n.rxSema (S.cpu e) (S.port e)

def Quiet (S : IpcSetup) (n : IpcNet) : Prop := S.Shows n (S.view n) (fun _ => []) ∧ S.Addr (S.view n)

theorem Shows.view_eq (h : S.Shows n d ρ) : S.view n = d := by
  rw [view, funext h.sock, funext h.sema, funext h.rxSema]

theorem Shows.quiet (h : S.Shows n d fun _ => []) (ha : S.Addr d) : S.Quiet n ∧ (S.view n).erase = d.erase := by
  rw [Quiet, h.view_eq]
  exact ⟨⟨h, ha⟩, rfl⟩

theorem sim (S : IpcSetup) : S.medium.Sim (Duo.medium S.port fun _ => 0) S.Quiet fun n => (S.view n).erase where
  port := rfl
  cpu := fun e => ⟨Nat.lt_of_lt_of_le (S.cpu e).isLt (by decide), rfl⟩
  sock := fun h e => ⟨rfl, h.2 e⟩
  setSock := fun {_} h {e a} ha => by
    obtain ⟨hq, he⟩ := (h.1.setSock e a).quiet (h.2.set ha)
    exact ⟨hq, he.trans (Duo.erase_set ..)⟩
  sema := fun _ _ => ⟨rfl, rfl⟩
  get := fun {n} h e => by
    have hget := (h.1.setSema e ((S.view n).sema e - 1)).quiet h.2
    dsimp only [medium, IpcCpu.get]
    rw [port_id]
    exact hget
  rxGet := fun {n} h e => by
    have hget := (h.1.setRxSema e ((S.view n).rxSema e - 1)).quiet h.2
    dsimp only [medium, IpcNet.rxGet]
    rw [port_id]
    exact hget
  txCmd := fun h e => by
    obtain ⟨hst, h'⟩ := h.1.txCmd h.2 e
    obtain ⟨hq, he⟩ := h'.quiet (h.2.txCmd e)
    exact ⟨hq, Prod.ext hst (he.trans (Duo.erase_txCmd ..))⟩
  txRsp := fun h e => by
    obtain ⟨hq, he⟩ := (h.1.txRsp h.2 rfl).quiet (h.2.txRsp e)
    exact ⟨hq, he.trans (Duo.erase_txRsp ..)⟩

theorem Shows.socket (h : S.Shows n d ρ) (e : Bool)
    (hfree : (d.sock e).allocated = false ∧ (d.sock e).connected = false) :
    S.Shows (S.socket n e) { d.set e { d.sock e with allocated := true, connected := false } with
      sema := update d.sema e 0 } ρ := by
  have hsock := h.sock e
  have halloc : (n.cpu (S.cpu e)).allocatePort (S.port e) = true := by
    cases hp : S.port e with
    | server p =>
      rw [id_server hp] at hsock
      simp [IpcCpu.allocatePort, show (⟨0, connectIds_pos⟩ : Fin 3) = 0 from rfl, hsock, hfree]
    | client p =>
      rw [id_client hp] at hsock
      simp [IpcCpu.allocatePort, hsock, hfree]
  rw [IpcSetup.socket, IpcCpu.socket, if_pos halloc]
  refine ⟨?_, ?_, h.rxSema, ?_, ?_⟩
  · intro e'
    by_cases he : e' = e
    · rw [he, IpcNet.cpu_setCpu]
      dsimp only
      rw [if_pos (port_id e), hsock, Duo.set_self]
    · dsimp only
      rw [Duo.set_of_ne he, ← h.sock e']
      exact IpcNet.congr_setCpu (·.sock (S.id e')) (if_neg (by rw [port_id]; exact fun hp => he (port_inj hp))) _
  · intro e'
    by_cases he : e' = e
    · rw [he, IpcNet.cpu_setCpu]
      dsimp only
      rw [update_self, update_self]
    · dsimp only
      rw [update_of_ne he, ← h.sema e']
      exact IpcNet.congr_setCpu (·.sema (S.port e')) (update_of_ne (fun hp => he (port_inj hp)) ..) _
  · intro e' p i hi
    rw [← h.rest e' p i hi]
    refine IpcNet.congr_setCpu (fun s => (s.sock (.server p i)).dstPort) ?_ _
    dsimp only
    split
    · rfl
    · rfl
  · intro c
    rw [← h.route c]
    exact IpcNet.congr_setCpu (·.route.packets) (by rfl) _

theorem init_shows (S : IpcSetup) : S.Shows S.init (.init S.port fun e => S.cpu e) fun _ => [] := by
  have h₀ : S.Shows .init ⟨fun e => { srcPort := (S.port e).num, srcCpu := S.cpu e }, fun _ => 0,
      fun _ => 0⟩ fun _ => [] := by
    refine ⟨fun e => ?_, fun e => rfl, fun e => rfl, fun e p i hi => rfl, fun c => rfl⟩
    dsimp only [IpcNet.init]
    rw [port_id]
  have h₂ := (h₀.socket false ⟨rfl, rfl⟩).socket true ⟨rfl, rfl⟩
  have hd : S.view S.init = .init S.port fun e => S.cpu e := by
    rw [show S.view S.init = _ from h₂.view_eq, Duo.init, Duo.mk.injEq]
    refine ⟨funext fun e => ?_, funext fun e => ?_, rfl⟩
    · cases e <;> rfl
    · cases e <;> rfl
  rw [← hd, show S.view S.init = _ from h₂.view_eq]
  exact h₂

theorem run_eq_duo {T : Type} [DecidableEq T] (S : IpcSetup) (semaNotify : Bool → Bool) (mem : IpcMem)
    (acts : List (PathAct T)) : S.run semaNotify mem acts =
      (exec (PathSys.step (Duo.medium S.port fun _ => 0) semaNotify) (fun _ _ => True)
        { net := Duo.init S.port fun _ => 0, mem := mem } acts).map (PathSys.obs (Duo.medium S.port fun _ => 0)) := by
  obtain ⟨hq, he⟩ := S.init_shows.quiet fun _ => ⟨⟨rfl, rfl⟩, .inl ⟨rfl, rfl⟩, rfl⟩
  rw [run, PathSys.obs_exec S.sim hq, PathSys.map, he]
  rfl

end IpcSetup

/-- For every order of the calls of any tasks on two sockets: what they return, the bytes received, the connections and
the flags are the same on one CPU as on two. -/
theorem one_cpu_eq_two_cpus {T : Type} [DecidableEq T] (port : Bool → IpcPort) (h : port false ≠ port true)
    (c c' : Fin 2)
    (semaNotify : Bool → Bool) (mem : IpcMem) (acts : List (PathAct T)) :
    (IpcSetup.onOneCpu port h c).run semaNotify mem acts = (IpcSetup.onTwoCpus port h c').run semaNotify mem acts := by
  rw [IpcSetup.run_eq_duo, IpcSetup.run_eq_duo]
  rfl

theorem one_cpu_eq_two_cpus_session :
    let port : Bool → IpcPort := fun e => if e then .server ⟨0, by decide⟩ else .client ⟨0, by decide⟩
    let acts : List (PathAct Bool) := [.connect false false, .next false, .next false, .get false, .next false,
      .recv true true 2 false, .next true, .send false false 7 0x100 3, .next false, .next false, .get true, .next true,
      .recv true true 2 false, .next true, .get false, .next false,
      .disconnect false false true, .next false, .next false, .get false, .next false]
    ∃ h, (IpcSetup.onOneCpu port h 0).run (fun _ => true) countingMem acts =
        (IpcSetup.onTwoCpus port h 0).run (fun _ => true) countingMem acts ∧
      ((IpcSetup.onOneCpu port h 0).run (fun _ => true) countingMem acts).map
        (fun o => (o.rets, o.sock false, o.sock true)) =
        some ([(false, .call .txOk), (true, .recv (.ok 2) 7 [1, 2]), (true, .recv (.ok 1) 7 [3]), (false, .call .txOk),
          (false, .call .txOk)], ⟨false, 0, false, false⟩, ⟨false, 0, false, false⟩) :=
  ⟨by decide, one_cpu_eq_two_cpus _ (by decide) 0 0 _ _ _, by decide +kernel⟩

end Bk7258

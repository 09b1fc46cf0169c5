import Bk7258.Lib.Tally
import Bk7258.MbIpc.Calls

/-!
# Room for the responses

The route queue has one entry for each socket, but a socket can have a command and a response in it, and commands that
timed out stay in it until they are acknowledged. `Room n` says that the packets in the queue and the responses that are
due are at most `n`. The number grows when a command is sent and when one is received.
-/

namespace Bk7258
open Lts Tally

def MbIpcSocket.due (a : MbIpcSocket) : Nat := (a.rxInProcess && !a.rxCmd.rsp).toNat

namespace MbIpcSocket
variable (a : MbIpcSocket)

theorem due_le_one : a.due ≤ 1 := Bool.toNat_le _

theorem due_txCmplHandler (ack : MbIpcCmd) : (a.txCmplHandler ack).1.due ≤ a.due := by
  rcases a.txCmplHandler_cases ack with ⟨cpu, port, he, -⟩ | he | ⟨st, he, -⟩ <;> rw [he]
  · exact Nat.zero_le _
  · exact Nat.le_refl a.due

theorem due_rxRspHandler (rsp : MbIpcCmd) : (a.rxRspHandler rsp).2.1.due = a.due := by
  rcases a.rxRspHandler_cases rsp with ⟨st, he⟩ | ⟨st, he, -⟩ <;> rw [he]
  rfl

theorem due_sendStart (userCmd : BitVec 8) (len : Nat) (crc8 : BitVec 8) :
    (a.sendStart userCmd len crc8).2.due = a.due := by
  rcases a.sendStart_cases userCmd len crc8 with ⟨st, -, he⟩ | ⟨-, he⟩ <;> rw [he]
  rfl

theorem due_mbIpcRecvAsync (buffLen : Nat) (crc8 : BitVec 8) : (a.mbIpcRecvAsync buffLen crc8).socket.due = a.due ∧
      ((a.mbIpcRecvAsync buffLen crc8).rsp → a.due = 1) := by
  obtain ⟨o, st, he⟩ := a.mbIpcRecvAsync_socket buffLen crc8
  refine ⟨by rw [he]; rfl, fun hrsp => ?_⟩
  obtain ⟨hrx, hnot⟩ := mbIpcRecvAsync_rsp hrsp
  simp [due, hrx, hnot]

end MbIpcSocket

theorem MbIpcRoute.length_txCmpl {r r' : MbIpcRoute} {ack : MbIpcCmd} (h : r.txCmpl ack = some r') :
    r'.packets.length + 1 = r.packets.length := by
  unfold txCmpl at h
  split at h
  next => cases h
  next hne =>
    split at h
    · cases h
    · cases h
      rw [r.packets_eq_head_cons (by simpa using hne), List.length_cons]

def MbIpcTask.sends : MbIpcTask → Bool
  | .cleared _ _ => true
  | _ => false

namespace IpcCpu

def due (s : IpcCpu) : Nat := tally (fun _ => MbIpcSocket.due) s.sock

def load (s : IpcCpu) : Nat := s.route.packets.length + s.due

structure Room (s : IpcCpu) (n : Nat) : Prop where
  load : s.load ≤ n
  rsp : ∀ status ∈ s.rspStatus, status = .statusOk

variable {s s' : IpcCpu} {x : SockId} {a : MbIpcSocket} {n : Nat}

theorem due_setSock : (s.setSock x a).due + (s.sock x).due = s.due + a.due :=
  tally_update (fun _ => MbIpcSocket.due) s.sock x a

namespace Room

theorem init : Room {} 0 := by
  have hdue : due {} = 0 := tally_eq_zero fun _ => rfl
  exact ⟨by simp only [IpcCpu.load, hdue]; decide, by simp⟩

theorem mono {m : Nat} (h : s.Room n) (hm : n ≤ m) : s.Room m := ⟨Nat.le_trans h.load hm, h.rsp⟩

theorem post (h : s.Room n) (x : SockId) : (s.post x).Room n := ⟨h.load, h.rsp⟩

theorem of_due (h : s.Room n) (hroute : s'.route = s.route) (hrsp : s'.rspStatus = s.rspStatus)
    (hdue : s'.due ≤ s.due) : s'.Room n := by
  have hl := h.load
  refine ⟨?_, hrsp ▸ h.rsp⟩
  simp only [IpcCpu.load, hroute] at hl ⊢
  omega

theorem setSock (h : s.Room n) (ha : a.due ≤ (s.sock x).due) : (s.setSock x a).Room n := by
  have hd := s.due_setSock (x := x) (a := a)
  exact h.of_due rfl rfl (by omega)

theorem txCmplHandler (h : s.Room n) (x : SockId) (ack : MbIpcCmd) : (s.txCmplHandler x ack).Room n := by
  have hset := h.setSock ((s.sock x).due_txCmplHandler ack)
  simp only [IpcCpu.txCmplHandler]
  split
  · exact hset.post x
  · exact hset

theorem rxRspHandler (h : s.Room n) (x : Option SockId) (rsp : MbIpcCmd) : (s.rxRspHandler x rsp).2.Room n := by
  cases x with
  | none => exact h
  | some x =>
    have hset := h.setSock (Nat.le_of_eq ((s.sock x).due_rxRspHandler rsp))
    simp only [IpcCpu.rxRspHandler]
    split
    · exact hset.post x
    · exact hset

theorem localTxRsp (h : s.Room n) (x : SockId) : (s.localTxRsp x).Room n := by
  have hset : (s.setSock x { s.sock x with rxCmd := (s.sock x).rspCmd }).Room n := by
    refine h.setSock ?_
    simp [MbIpcSocket.due, MbIpcSocket.rspCmd, MbIpcSocket.setAddr]
  exact (hset.txCmplHandler x _).rxRspHandler _ _

theorem txRsp (h : s.Room (n + 1)) (hn : n < ipcSocketNum) (hx : s.load ≤ n + (s.sock x).due) :
    (s.txRsp x).Room (n + 1) := by
  have hle : (s.sock x).due ≤ s.due := le_tally (fun _ => MbIpcSocket.due) s.sock x
  simp only [IpcCpu.load] at hx
  simp only [IpcCpu.txRsp]
  split
  · exact h.localTxRsp x
  split
  · exact h
  · rcases s.route.enqueue_cases (s.sock x).rspCmd with ⟨-, hfull⟩ | ⟨he, hp, -⟩
    · omega
    · have hd := s.due_setSock (x := x) (a := (s.sock x).txRsp .statusOk)
      have hsent : ((s.sock x).txRsp .statusOk).due = 0 := by
        simp [MbIpcSocket.due, MbIpcSocket.txRsp, MbIpcSocket.rspCmd, MbIpcSocket.setAddr]
      rw [he]
      constructor
      · show (s.route.push _).packets.length + (s.setSock x ((s.sock x).txRsp .statusOk)).due ≤ n + 1
        rw [hp, List.length_append, List.length_singleton]
        omega
      · intro status hmem
        rcases List.mem_append.1 hmem with hmem | hmem
        · exact h.rsp status hmem
        · exact List.mem_singleton.1 hmem

theorem rxCmdOn (h : s.Room n) (hn : n < ipcSocketNum) (x : SockId) (c : MbIpcCmd) :
    (s.rxCmdOn x c).2.Room (n + 1) := by
  have hl := h.load
  have hd := s.due_setSock (x := x) (a := ((s.sock x).rxCmdHandler c).2.socket)
  have hone := ((s.sock x).rxCmdHandler c).2.socket.due_le_one
  simp only [IpcCpu.rxCmdOn]
  generalize ((s.sock x).rxCmdHandler c).2 = r at hd hone ⊢
  have hx : (s.setSock x r.socket).load ≤ n + r.socket.due := by
    show s.route.packets.length + (s.setSock x r.socket).due ≤ _
    simp only [IpcCpu.load] at hl
    omega
  have hset : (s.setSock x r.socket).Room (n + 1) := ⟨by omega, h.rsp⟩
  have hdue : ((s.setSock x r.socket).sock x).due = r.socket.due := by rw [setSock_self]
  split
  · split
    · exact (hset.post x).txRsp hn (hdue ▸ hx)
    · exact hset.txRsp hn (hdue ▸ hx)
  · split
    · exact hset.post x
    · exact hset

theorem rxCmdHandler (h : s.Room n) (hn : n < ipcSocketNum) (x : Option SockId) (c : MbIpcCmd) :
    (s.rxCmdHandler x c).2.Room (n + 1) := by
  cases x with
  | some x => exact h.rxCmdOn hn x c
  | none =>
    simp only [IpcCpu.rxCmdHandler]
    split
    · split
      next y s₁ hacc =>
        refine Room.rxCmdOn ?_ hn y c
        simp only [IpcCpu.serverAccept] at hacc
        split at hacc
        next =>
          obtain ⟨i, -, he⟩ := Option.map_eq_some_iff.1 hacc
          cases he
          exact h.setSock (Nat.zero_le _)
        next => cases hacc
      next => exact h.mono (Nat.le_succ n)
    · exact h.mono (Nat.le_succ n)

theorem txCmd (h : s.Room n) (hn : n < ipcSocketNum) (x : SockId) : (s.txCmd x).2.Room (n + 1) := by
  have hset (status : IpcRouteStatus) : (s.setSock x ((s.sock x).txCmdTo status)).Room n := h.setSock (Nat.le_refl _)
  simp only [IpcCpu.txCmd]
  split
  · exact ((hset .statusOk).rxCmdHandler hn _ _).txCmplHandler x _
  split
  · refine Room.mono (h.setSock ?_) (Nat.le_succ n)
    exact Nat.le_refl _
  · rcases s.route.enqueue_cases (s.sock x).nextCmd with ⟨he, -⟩ | ⟨he, hp, -⟩
    · rw [he]
      exact ⟨Nat.le_succ_of_le (hset .queueFull).load, h.rsp⟩
    · rw [he]
      have hl := (hset .statusOk).load
      refine ⟨?_, h.rsp⟩
      show (s.route.push _).packets.length + (s.setSock x ((s.sock x).txCmdTo .statusOk)).due ≤ n + 1
      rw [hp, List.length_append, List.length_singleton]
      have hroute : (s.setSock x ((s.sock x).txCmdTo .statusOk)).route = s.route := rfl
      simp only [IpcCpu.load, hroute] at hl
      omega

theorem rxIsr (h : s.Room ipcSocketNum) {c : MbIpcCmd} (hlt : c.rsp = false → s.load < ipcSocketNum) :
    (s.rxIsr c).Room ipcSocketNum := by
  simp only [IpcCpu.rxIsr]
  split
  next => exact h.rxRspHandler _ c
  next hc =>
    have hroom : s.Room 23 := ⟨Nat.le_of_lt_succ (hlt (by simpa using hc)), h.rsp⟩
    exact hroom.rxCmdHandler (by decide) _ c

theorem txCmplIsr (h : s.Room n) (ack : MbIpcCmd) : (s.txCmplIsr ack).Room n := by
  simp only [IpcCpu.txCmplIsr]
  split
  next => exact h
  next r hr =>
    have hpop : ({ s with route := r } : IpcCpu).Room n := by
      have hl := h.load
      have hlen := s.route.length_txCmpl hr
      refine ⟨?_, h.rsp⟩
      show r.packets.length + s.due ≤ n
      simp only [IpcCpu.load] at hl
      omega
    split
    next => exact hpop
    next x _ => exact hpop.txCmplHandler x ack

theorem txRsp_of_due (h : s.Room ipcSocketNum) (hdue : (s.sock x).due = 1) : (s.txRsp x).Room ipcSocketNum := by
  have hl := h.load
  refine txRsp (n := 23) h (by decide) ?_
  rw [hdue]
  exact hl

theorem recvAsync (h : s.Room ipcSocketNum) (x : SockId) (buffLen : Nat) (crc8 : BitVec 8) :
    (s.recvAsync x buffLen crc8).Room ipcSocketNum := by
  obtain ⟨hdue, hrsp⟩ := (s.sock x).due_mbIpcRecvAsync buffLen crc8
  have hset := h.setSock (Nat.le_of_eq hdue)
  simp only [IpcCpu.recvAsync]
  split
  next hr =>
    refine hset.txRsp_of_due ?_
    rw [setSock_self, hdue, hrsp hr]
  next => exact hset

theorem getRecvDataLen (h : s.Room ipcSocketNum) (x : SockId) : (s.getRecvDataLen x).Room ipcSocketNum := by
  simp only [IpcCpu.getRecvDataLen]
  split
  next hc =>
    have hdue : (s.sock x).due = 1 := by
      simp only [Bool.and_eq_true] at hc
      simp [MbIpcSocket.due, hc.1.1.2, hc.2]
    refine txRsp_of_due (h.setSock ?_) ?_
    · exact Nat.le_refl (s.sock x).due
    · rw [setSock_self]
      exact hdue
  next => exact h

theorem connectStart (h : s.Room n) (x : SockId) (dstCpu dstPort : Nat) :
    (s.connectStart x dstCpu dstPort).1.Room n := by
  simp only [IpcCpu.connectStart]
  split
  · exact h
  · exact h.setSock (Nat.zero_le _)

theorem disconnectStart (h : s.Room n) (x : SockId) (caller : MbIpcCaller) (dstCpu dstPort : Nat) :
    (s.disconnectStart x caller dstCpu dstPort).1.Room n := by
  simp only [IpcCpu.disconnectStart]
  repeat' split
  · exact h
  · refine h.setSock ?_
    exact Nat.le_refl _
  · refine h.setSock ?_
    exact Nat.le_refl _

theorem sendStart (h : s.Room n) (x : SockId) (userCmd : BitVec 8) (len : Nat) (crc8 : BitVec 8) (q : MbIpcTask) :
    (s.sendStart x userCmd len crc8 q).1.Room n := by
  have hdue := (s.sock x).due_sendStart userCmd len crc8
  unfold IpcCpu.sendStart
  split
  next a ha =>
    rw [ha] at hdue
    exact h.setSock (Nat.le_of_eq hdue)
  next => exact h

theorem giveUp (h : s.Room n) (x : SockId) (op : MbIpcOp) : (s.giveUp x op).Room n := by
  cases op with
  | connect => exact h.setSock (Nat.le_refl (s.sock x).due)
  | disconnect | send | sendAsync => exact h

theorem wokenUp (h : s.Room n) (x : SockId) (op : MbIpcOp) : (s.wokenUp x op).1.Room n := by
  have hset {a : MbIpcSocket} (ha : a.due = (s.sock x).due) : (s.setSock x a).Room n := h.setSock (Nat.le_of_eq ha)
  cases op with
  | connect =>
    simp only [IpcCpu.wokenUp]
    split
    · exact hset rfl
    · exact hset rfl
  | disconnect caller =>
    simp only [IpcCpu.wokenUp]
    repeat' split
    · exact hset rfl
    · exact hset rfl
    · exact h
  | send | sendAsync => exact h

theorem socket (h : s.Room n) (port : IpcPort) : (s.socket port).Room n := by
  unfold IpcCpu.socket
  split
  · refine h.of_due rfl rfl (Nat.le_of_eq (tally_congr fun x => ?_))
    dsimp only
    split
    · rfl
    · rfl
  · exact h

theorem next (h : s.Room ipcSocketNum) {q : MbIpcTask} {r : IpcCpu × MbIpcTask}
    (hok : q.sends → s.load < ipcSocketNum) (hn : s.next q = some r) : r.1.Room ipcSocketNum := by
  cases q with
  | idle | waiting => cases hn
  | disconnect x caller dstCpu dstPort => cases hn; exact h.disconnectStart x caller dstCpu dstPort
  | started op x => cases hn; exact ⟨h.load, h.rsp⟩
  | cleared op x =>
    have hlt : s.Room 23 := ⟨Nat.le_of_lt_succ (hok rfl), h.rsp⟩
    have htx := hlt.txCmd (by decide) x
    simp only [IpcCpu.next] at hn
    split at hn
    next s₁ hs => cases hn; rw [hs] at htx; exact htx
    next st s₁ _ hs => cases hn; rw [hs] at htx; exact htx.giveUp x op
  | woken op x => cases hn; exact h.wokenUp x op
  | timedOut op x =>
    cases hn
    refine giveUp ?_ x op
    exact h.setSock (Nat.le_refl (s.sock x).due)
  | closed p => cases hn; exact h.setSock (Nat.le_refl (s.sock (.client p)).due)
  | serverClose p rest =>
    cases rest with
    | nil => cases hn; exact h
    | cons i rest =>
      simp only [IpcCpu.next] at hn
      split at hn
      · cases hn; exact h
      · cases hn; exact h
  | slotClosed p i rest => cases hn; exact h.setSock (Nat.le_refl (s.sock (.server p i)).due)

end Room
end IpcCpu

/-- A command is sent or received only while the packets in the queue and the responses that are due are fewer than
the entries of the queue. -/
def RoomLeft {T : Type} (s : MbIpcSys T) : MbIpcAct T → Prop
  | .next t => (s.task t).sends = true → s.cpu.load < ipcSocketNum
  | .rx c => c.rsp = false → s.cpu.load < ipcSocketNum
  | _ => True

instance {T : Type} (s : MbIpcSys T) : (a : MbIpcAct T) → Decidable (RoomLeft s a)
  | .next t => inferInstanceAs (Decidable ((s.task t).sends = true → _))
  | .rx c => inferInstanceAs (Decidable (c.rsp = false → _))
  | .socket _ | .connect _ _ _ _ | .disconnect _ _ _ _ | .close _ _ | .send _ _ _ _ _ | .sendAsync _ _ _ _ _
  | .recvAsync _ _ _ | .getRecvDataLen _ | .serverClose _ _ _ | .get _ | .timeout _ | .txCmpl _ => .isTrue trivial

theorem MbIpcSys.room_step {T : Type} [DecidableEq T] {s s' : MbIpcSys T} (h : s.cpu.Room ipcSocketNum)
    {a : MbIpcAct T} (hok : RoomLeft s a) (hs : s.step a = some s') : s'.cpu.Room ipcSocketNum := by
  refine cpu_step (P := fun c => c.Room ipcSocketNum) h hs h.socket h.connectStart h.sendStart h.recvAsync
    h.getRecvDataLen (fun x => ⟨h.load, h.rsp⟩) ?_ ?_ h.txCmplIsr
  · rintro t r rfl hn
    exact h.next hok hn
  · rintro c rfl
    exact h.rxIsr hok

/-- If a command is sent or received only while there is room for all responses that are due and one packet more, no
response is dropped. -/
theorem rsp_never_dropped {T : Type} [DecidableEq T] {s : MbIpcSys T} (hr : Run MbIpcSys.step RoomLeft {} s) :
    .queueFull ∉ s.cpu.rspStatus := by
  have hroom : s.cpu.Room ipcSocketNum :=
    hr.invariant (I := fun s => s.cpu.Room ipcSocketNum) (IpcCpu.Room.init.mono (Nat.zero_le _))
      fun _ _ _ _ h hok hs => MbIpcSys.room_step h hok hs
  intro hmem
  cases hroom.rsp _ hmem

theorem rsp_never_dropped_two : ∃ s : MbIpcSys (Fin 1), Run MbIpcSys.step RoomLeft {} s ∧
    s.cpu.rspStatus = [.statusOk, .statusOk] ∧ .queueFull ∉ s.cpu.rspStatus :=
  Run.of_exec_and [.socket (.client 0), .socket (.server 0), .rx (fromClient .connect 16), .connect 0 (.client 0) 0 1,
    .next 0, .next 0, .timeout 0, .next 0, .rx (fromClient .connect 17)] (by decide +kernel)
    fun _ hr _ => rsp_never_dropped hr

/-- 24 connects that timed out fill the queue; a client that connects then gets no response. -/
theorem rsp_dropped : ∃ s : MbIpcSys (Fin 1), Run MbIpcSys.step (fun _ _ => True) {} s ∧
    s.cpu.rspStatus = [.queueFull] :=
  Run.of_exec ([.socket (.client 0), .socket (.server 0)] ++
    (List.replicate 24 [.connect 0 (.client 0) 0 1, .next 0, .next 0, .timeout 0, .next 0]).flatten ++
    [.rx (fromClient .connect 16)]) (by decide +kernel)

end Bk7258

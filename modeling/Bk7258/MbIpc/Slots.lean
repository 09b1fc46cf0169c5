import Bk7258.MbIpc.Calls

/-!
# One connection for each client

A connect command takes a free connection of a server port only if none of the three has the client's address already.
But `mb_ipc_disconnect` writes the address it is called with without a look at the other connections.
-/

namespace Bk7258
open Lts

namespace IpcCpu

def Unique (s : IpcCpu) : Prop :=
  ∀ p i j, i ≠ j → isClientPort (s.sock (.server p i)).dstPort = true →
    ¬((s.sock (.server p i)).dstPort = (s.sock (.server p j)).dstPort ∧
      (s.sock (.server p i)).dstCpu = (s.sock (.server p j)).dstCpu)

def FreeBut (s : IpcCpu) (p : Fin 4) (i : Fin 3) (dstCpu dstPort : Nat) : Prop :=
  ∀ j, j ≠ i → ¬((s.sock (.server p j)).dstPort = dstPort ∧ (s.sock (.server p j)).dstCpu = dstCpu)

instance (s : IpcCpu) (p : Fin 4) (i : Fin 3) (dstCpu dstPort : Nat) :
    Decidable (s.FreeBut p i dstCpu dstPort) :=
  inferInstanceAs (Decidable (∀ _, _ → ¬_))

namespace Unique
variable {s s' : IpcCpu} {x : SockId} {a : MbIpcSocket} {c : MbIpcCmd}

theorem init : Unique {} := by
  intro p i j _ hcl
  cases hcl

theorem dstKept (h : s.Unique) (hk : ∀ x, (s.sock x).DstKept (s'.sock x)) : s'.Unique := by
  intro p i j hne hcl hsame
  rcases hk (.server p i) with hi | h0
  · rcases hk (.server p j) with hj | h0
    · rw [hi.1, hi.2, hj.1, hj.2] at hsame
      exact h p i j hne (hi.1 ▸ hcl) hsame
    · rw [hsame.1, h0] at hcl
      cases hcl
  · rw [h0] at hcl
    cases hcl

theorem kept (h : s.Unique) (hk : s.Kept s') : s'.Unique := h.dstKept fun x => (hk x).dst

theorem setSock (h : s.Unique) (ha : ∀ p i, x = .server p i → isClientPort a.dstPort →
    s.FreeBut p i a.dstCpu a.dstPort) :
    (s.setSock x a).Unique := by
  intro p i j hne hcl hsame
  by_cases hi : SockId.server p i = x
  · have hj : SockId.server p j ≠ x := fun he => by
      rw [← hi, SockId.server.injEq] at he
      exact hne he.2.symm
    rw [hi, setSock_self] at hcl hsame
    rw [setSock_of_ne hj] at hsame
    exact ha p i hi.symm hcl j hne.symm ⟨hsame.1.symm, hsame.2.symm⟩
  · rw [setSock_of_ne hi] at hcl hsame
    by_cases hj : SockId.server p j = x
    · rw [hj, setSock_self] at hsame
      exact ha p j hj.symm (hsame.1 ▸ hcl) i hne hsame
    · rw [setSock_of_ne hj] at hsame
      exact h p i j hne hcl hsame

theorem accepted {p : Fin 4} {i : Fin 3} (h : s.Unique) (hacc : s.Accepted s' c p i) : s'.Unique := by
  have hs : s'.sock = (s.setSock (.server p i) (s'.sock (.server p i))).sock := by
    funext x
    by_cases hx : x = .server p i
    · rw [hx, setSock_self]
    · rw [setSock_of_ne hx, hacc.other x hx]
  have hset : (s.setSock (.server p i) (s'.sock (.server p i))).Unique := by
    refine h.setSock fun q k he _ j _ => ?_
    cases he
    rw [hacc.bound.1, hacc.bound.2]
    exact hacc.new j
  unfold Unique
  rw [hs]
  exact hset

variable (h : s.Unique)
include h

theorem handled (hh : s.Handled s' c) : s'.Unique := by
  rcases hh with hk | ⟨s₁, s₂, p, i, h₁, hacc, h₂⟩
  · exact h.kept hk
  · exact ((h.kept h₁).accepted hacc).kept h₂

theorem setDst (ha : (s.sock x).DstKept a) : (s.setSock x a).Unique := by
  refine h.dstKept fun y => ?_
  by_cases hy : y = x
  · rw [hy, setSock_self]
    exact ha
  · rw [setSock_of_ne hy]
    exact .inl ⟨rfl, rfl⟩

theorem unbind (x : SockId) : (s.unbind x).Unique := h.setDst (.inr rfl)

theorem giveUp (x : SockId) (op : MbIpcOp) : (s.giveUp x op).Unique := by
  cases op with
  | connect => exact h.unbind x
  | disconnect | send | sendAsync => exact h

theorem socket (port : IpcPort) : (s.socket port).Unique := by
  unfold IpcCpu.socket
  split
  · refine h.dstKept fun x => ?_
    dsimp only
    split
    · exact .inl ⟨rfl, rfl⟩
    · exact .inl ⟨rfl, rfl⟩
  · exact h

theorem connectStart (x : SockId) (dstCpu dstPort : Nat) : (s.connectStart x dstCpu dstPort).1.Unique := by
  simp only [IpcCpu.connectStart]
  split
  next => exact h
  next hc =>
    -- the address is a server's
    refine h.setSock fun p i _ hcl => ?_
    simp only [isServerPort, isClientPort, Bool.or_eq_true, Bool.not_eq_true', Bool.and_eq_true,
      decide_eq_true_eq, Bool.and_eq_false_iff, decide_eq_false_iff_not] at hc hcl
    omega

theorem disconnectStart {x : SockId} {dstCpu dstPort : Nat} (caller : MbIpcCaller)
    (hfree : ∀ p i, x = .server p i → s.FreeBut p i (dstCpu % 4) (dstPort % 64)) :
    (s.disconnectStart x caller dstCpu dstPort).1.Unique := by
  simp only [IpcCpu.disconnectStart]
  split
  · exact h
  split
  · exact h.setDst (.inl ⟨rfl, rfl⟩)
  · exact h.setSock fun p i hx _ => hfree p i hx

theorem sendStart (x : SockId) (userCmd : BitVec 8) (len : Nat) (crc8 : BitVec 8) (q : MbIpcTask) :
    (s.sendStart x userCmd len crc8 q).1.Unique := by
  have hk := (s.sock x).kept_sendStart userCmd len crc8
  unfold IpcCpu.sendStart
  split
  next a ha =>
    rw [ha] at hk
    exact h.setDst hk.dst
  next => exact h

theorem wokenUp (x : SockId) (op : MbIpcOp) : (s.wokenUp x op).1.Unique := by
  cases op with
  | connect =>
    simp only [IpcCpu.wokenUp]
    split
    · exact h.setDst (.inl ⟨rfl, rfl⟩)
    · exact h.unbind x
  | disconnect caller =>
    simp only [IpcCpu.wokenUp]
    split
    · exact h.setDst (.inl ⟨rfl, rfl⟩)
    split
    · exact h.setDst (.inr rfl)
    · exact h
  | send | sendAsync => exact h

end Unique
end IpcCpu

/-- A call of `mb_ipc_disconnect` that goes on finds its address in no other connection of the port. -/
def MbIpcTask.AddrFree (s : IpcCpu) : MbIpcTask → Prop
  | .disconnect (.server p i) _ dstCpu dstPort => s.FreeBut p i (dstCpu % 4) (dstPort % 64)
  | _ => True

instance (s : IpcCpu) : (q : MbIpcTask) → Decidable (q.AddrFree s)
  | .disconnect (.server p i) _ dstCpu dstPort =>
    inferInstanceAs (Decidable (s.FreeBut p i (dstCpu % 4) (dstPort % 64)))
  | .disconnect (.client _) _ _ _ | .idle | .started _ _ | .cleared _ _ | .waiting _ _ | .woken _ _
  | .timedOut _ _ | .closed _ | .serverClose _ _ | .slotClosed _ _ _ => .isTrue trivial

def AddrFree {T : Type} (s : MbIpcSys T) : MbIpcAct T → Prop
  | .next t => (s.task t).AddrFree s.cpu
  | _ => True

instance {T : Type} (s : MbIpcSys T) : (a : MbIpcAct T) → Decidable (AddrFree s a)
  | .next t => inferInstanceAs (Decidable ((s.task t).AddrFree s.cpu))
  | .socket _ | .connect _ _ _ _ | .disconnect _ _ _ _ | .close _ _ | .send _ _ _ _ _ | .sendAsync _ _ _ _ _
  | .recvAsync _ _ _ | .getRecvDataLen _ | .serverClose _ _ _ | .get _ | .timeout _ | .rx _ | .txCmpl _ =>
    .isTrue trivial

namespace IpcCpu.Unique
variable {s : IpcCpu} {q : MbIpcTask}

theorem next (h : s.Unique) {r : IpcCpu × MbIpcTask} (hok : q.AddrFree s) (hn : s.next q = some r) : r.1.Unique := by
  cases q with
  | idle | waiting => cases hn
  | disconnect x caller dstCpu dstPort =>
    cases hn
    refine h.disconnectStart caller fun p i hx => ?_
    subst hx
    exact hok
  | started op x => cases hn; exact h
  | cleared op x =>
    have hh := s.handled_txCmd x
    simp only [IpcCpu.next] at hn
    split at hn
    next s₁ hs => cases hn; rw [hs] at hh; exact h.handled hh
    next st s₁ _ hs => cases hn; rw [hs] at hh; exact (h.handled hh).giveUp x op
  | woken op x =>
    cases hn
    exact h.wokenUp x op
  | timedOut op x =>
    cases hn
    refine giveUp ?_ x op
    exact h.setDst (.inl ⟨rfl, rfl⟩)
  | closed p => cases hn; exact h.setDst (.inl ⟨rfl, rfl⟩)
  | serverClose p rest =>
    cases rest with
    | nil => cases hn; exact h
    | cons i rest =>
      simp only [IpcCpu.next] at hn
      split at hn
      · cases hn; exact h
      · cases hn; exact h
  | slotClosed p i rest => cases hn; exact h.setDst (.inl ⟨rfl, rfl⟩)

theorem search (h : s.Unique) {p : Fin 4} {i : Fin 3} (hcl : isClientPort (s.sock (.server p i)).dstPort) :
    s.search (IpcPort.server p).num (s.sock (.server p i)).dstCpu (s.sock (.server p i)).dstPort =
      some (.server p i) := by
  cases hf : s.search (IpcPort.server p).num (s.sock (.server p i)).dstCpu (s.sock (.server p i)).dstPort with
  | none => exact absurd ⟨rfl, rfl⟩ (search_eq_none (IpcPort.ofNum_num _) hf i)
  | some x =>
    simp only [IpcCpu.search, IpcPort.ofNum_num] at hf
    obtain ⟨j, hj, rfl⟩ := Option.map_eq_some_iff.1 hf
    have hsame := List.find?_some hj
    rw [decide_eq_true_eq] at hsame
    by_cases hne : j = i
    · rw [hne]
    · exact absurd hsame (h p j i hne (hsame.1 ▸ hcl))

end IpcCpu.Unique

namespace MbIpcSys
variable {T : Type} [DecidableEq T] {s s' : MbIpcSys T}

theorem unique_step (h : s.cpu.Unique) {a : MbIpcAct T} (hok : AddrFree s a) (hs : s.step a = some s') :
    s'.cpu.Unique := by
  refine cpu_step (P := IpcCpu.Unique) h hs h.socket h.connectStart h.sendStart
    (fun x buffLen crc8 => h.kept (s.cpu.kept_recvAsync x buffLen crc8)) (fun x => h.kept (s.cpu.kept_getRecvDataLen x))
    (fun _ => h) ?_ ?_ fun ack => h.kept (s.cpu.kept_txCmplIsr ack)
  · rintro t r rfl hn
    exact h.next hok hn
  · rintro c rfl
    exact h.handled (s.cpu.handled_rxIsr c)

end MbIpcSys

/-- If `mb_ipc_disconnect` writes no address that another connection of the port has, no two connections are bound to
the same client, and a packet of the client finds its connection. -/
theorem connections_unique {T : Type} [DecidableEq T] {s : MbIpcSys T} (hr : Run MbIpcSys.step AddrFree {} s) :
    s.cpu.Unique ∧ ∀ p i, isClientPort (s.cpu.sock (.server p i)).dstPort = true →
      s.cpu.searchRecver (IpcPort.server p).num (s.cpu.sock (.server p i)).dstCpu (s.cpu.sock (.server p i)).dstPort =
        some (.server p i) ∧
      s.cpu.searchSender (IpcPort.server p).num (s.cpu.sock (.server p i)).dstCpu (s.cpu.sock (.server p i)).dstPort =
        some (.server p i) := by
  have hu : s.cpu.Unique := hr.invariant (I := fun s => s.cpu.Unique) .init fun _ _ _ _ h hok hs =>
    MbIpcSys.unique_step h hok hs
  exact ⟨hu, fun p i hcl => ⟨hu.search hcl, hu.search hcl⟩⟩

theorem connections_unique_two : ∃ s : MbIpcSys (Fin 1), Run MbIpcSys.step AddrFree {} s ∧
    (s.cpu.sock (.server 0 0)).dstPort = 16 ∧ (s.cpu.sock (.server 0 1)).dstPort = 17 ∧ s.cpu.Unique := by
  refine Run.of_exec_imp
    (p := fun s => (s.cpu.sock (.server 0 0)).dstPort = 16 ∧ (s.cpu.sock (.server 0 1)).dstPort = 17)
    [.socket (.server 0), .rx (fromClient .connect 16), .rx (fromClient .connect 17), .close 0 (.server 0 0), .next 0]
    (by decide) ?_
  exact fun s hr ⟨h₀, h₁⟩ => ⟨h₀, h₁, (connections_unique hr).1⟩

/-- While `mb_ipc_close` is about to disconnect client 16 from connection 0, client 17 gets connection 0 and client 16
connection 1; then the address of client 16 is written back. -/
theorem connections_not_unique : ∃ s : MbIpcSys (Fin 1), Run MbIpcSys.step (fun _ _ => True) {} s ∧
    (s.cpu.sock (.server 0 0)).dstPort = 16 ∧ (s.cpu.sock (.server 0 0)).dstCpu = 0 ∧
    (s.cpu.sock (.server 0 1)).dstPort = 16 ∧ (s.cpu.sock (.server 0 1)).dstCpu = 0 :=
  Run.of_exec [.socket (.server 0), .rx (fromClient .connect 16), .txCmpl (ackOfRsp (fromClient .connect 16)),
    .close 0 (.server 0 0), .rx (fromClient .disconnect 16), .txCmpl (ackOfRsp (fromClient .disconnect 16)),
    .rx (fromClient .connect 17), .txCmpl (ackOfRsp (fromClient .connect 17)), .rx (fromClient .connect 16), .next 0]
    (by decide)

end Bk7258

import Bk7258.MbIpc.Calls

/-!
# Opening a server port again

`mb_ipc_server_close` closes the connections one by one, whatever `mb_ipc_close` returns, and resets `use_flag` of each.
`mb_ipc_socket` sets `use_flag` and leaves the addresses as they are.
-/

namespace Bk7258
open Lts

def MbIpcSocket.bound (a : MbIpcSocket) : Bool := isClientPort a.dstPort

/-- The server port that the call is closing for `mb_ipc_server_close`, and the connections whose `use_flag` it has
still to reset. -/
def MbIpcOp.closing : MbIpcOp → SockId → Option (Fin 4 × List (Fin 3))
  | .disconnect (.serverClose rest), .server p i => some (p, i :: rest)
  | _, _ => none

namespace MbIpcTask

def closing : MbIpcTask → Option (Fin 4 × List (Fin 3))
  | .disconnect x caller _ _ => (MbIpcOp.disconnect caller).closing x
  | .started op x | .cleared op x | .waiting op x | .woken op x | .timedOut op x => op.closing x
  | .serverClose p rest => some (p, rest)
  | .slotClosed p i rest => some (p, i :: rest)
  | .idle | .closed _ => none

def closes (q : MbIpcTask) (p : Fin 4) : Bool := q.closing.any (·.1 = p)

/-- Where a connection is about to be freed it is not bound, and no call for `mb_ipc_server_close` has timed out. -/
def Unbound (s : IpcCpu) : MbIpcTask → Prop
  | .disconnect (.server p i) (.serverClose _) _ dstPort => dstPort = 0 → (s.sock (.server p i)).bound = false
  | .slotClosed p i _ => (s.sock (.server p i)).bound = false
  | .timedOut op x => op.closing x = none
  | _ => True

end MbIpcTask

theorem MbIpcOp.closing_returned (ok : Bool) (op : MbIpcOp) (x : SockId) :
    (op.returned ok x).closing = op.closing x := by
  cases op with
  | connect | send | sendAsync => rfl
  | disconnect caller =>
    cases caller with
    | app => rfl
    | serverClose rest => cases x <;> rfl
    | close =>
      cases x with
      | server => rfl
      | client => cases ok <;> rfl

theorem MbIpcOp.of_closing {caller : MbIpcCaller} {x : SockId} (h : (MbIpcOp.disconnect caller).closing x ≠ none) :
    ∃ p i rest, x = .server p i ∧ caller = .serverClose rest := by
  cases caller with
  | app | close => cases h rfl
  | serverClose rest =>
    cases x with
    | client => cases h rfl
    | server p i => exact ⟨p, i, rest, rfl, rfl⟩

namespace MbIpcSys
variable {T : Type}

def Closing (s : MbIpcSys T) (p : Fin 4) : Prop := ∃ t, (s.task t).closes p = true

instance [Fintype T] (s : MbIpcSys T) (p : Fin 4) : Decidable (s.Closing p) :=
  inferInstanceAs (Decidable (∃ _, _))

def slot (s : MbIpcSys T) (p : Fin 4) (i : Fin 3) : MbIpcSocket := s.cpu.sock (.server p i)

structure Closable (s : MbIpcSys T) : Prop where
  free : ∀ p i, (s.slot p i).allocated = false → (s.slot p i).bound = false
  same : ∀ p, ¬s.Closing p → ∀ i j, (s.slot p i).allocated = (s.slot p j).allocated
  left : ∀ t p rest, (s.task t).closing = some (p, rest) →
    rest.Nodup ∧ ∀ i, (s.slot p i).allocated = true ↔ i ∈ rest
  one : ∀ t u p, (s.task t).closes p = true → (s.task u).closes p = true → t = u
  unbound : ∀ t, (s.task t).Unbound s.cpu

end MbIpcSys

theorem IpcCpu.kept_giveUp (s : IpcCpu) (x : SockId) (op : MbIpcOp) : s.Kept (s.giveUp x op) := by
  cases op with
  | connect => exact .setSock ⟨rfl, .inr rfl⟩
  | disconnect | send | sendAsync => exact .refl s

def IpcCpu.Binds (s s' : IpcCpu) (P : Fin 4 → Prop) : Prop :=
  ∀ p i, (s'.sock (.server p i)).allocated = (s.sock (.server p i)).allocated ∧
    ((s'.sock (.server p i)).bound = true →
      (s.sock (.server p i)).bound = true ∨ (s.sock (.server p i)).allocated = true ∧ P p)

namespace IpcCpu
variable {s s' : IpcCpu} {P Q : Fin 4 → Prop} {x : SockId} {a : MbIpcSocket} {c : MbIpcCmd}

theorem bound_of_dstKept {a b : MbIpcSocket} (h : a.DstKept b) (hb : b.bound) : a.bound := by
  rcases h with ⟨hp, -⟩ | h0
  · rwa [MbIpcSocket.bound, ← hp]
  · rw [MbIpcSocket.bound, h0] at hb
    cases hb

theorem Binds.of_kept (h : s.Kept s') : s.Binds s' P := fun p i =>
  ⟨(h (.server p i)).allocated, fun hb => .inl (bound_of_dstKept (h (.server p i)).dst hb)⟩

theorem Binds.mono (h : s.Binds s' P) (hPQ : ∀ p, P p → Q p) : s.Binds s' Q := fun p i =>
  ⟨(h p i).1, fun hb => ((h p i).2 hb).imp_right fun ⟨ha, hp⟩ => ⟨ha, hPQ p hp⟩⟩

theorem Binds.of_handled (h : s.Handled s' c) :
    s.Binds s' fun p => c.cmd = .connect ∧ IpcPort.ofNum c.dstPort = some (.server p) := by
  rcases h with hk | ⟨s₁, s₂, p, i, h₁, hacc, h₂⟩
  · exact .of_kept hk
  · intro q j
    by_cases hx : SockId.server q j = .server p i
    · rw [hx]
      cases hx
      have h1 := h₁ (.server p i)
      refine ⟨?_, fun _ => .inr ⟨h1.allocated ▸ hacc.allocated.1, hacc.cmd, hacc.port⟩⟩
      rw [(h₂ (.server p i)).allocated, hacc.allocated.2, ← h1.allocated, hacc.allocated.1]
    · have hk : (s.sock (.server q j)).Kept (s'.sock (.server q j)) := by
        have := h₂ (.server q j)
        rw [hacc.other _ hx] at this
        exact (h₁ (.server q j)).trans this
      exact ⟨hk.allocated, fun hb => .inl (bound_of_dstKept hk.dst hb)⟩

theorem Binds.setSock_unbound (ha : a.allocated = (s.sock x).allocated) (hb : a.bound = false) :
    s.Binds (s.setSock x a) P := by
  intro p i
  by_cases hx : SockId.server p i = x
  · rw [hx, setSock_self, hb]
    exact ⟨ha, nofun⟩
  · rw [setSock_of_ne hx]
    exact ⟨rfl, fun hb => .inl hb⟩

theorem Binds.setSock (ha : a.allocated = (s.sock x).allocated)
    (hP : (s.sock x).allocated ∧ ∀ p i, x = .server p i → P p) : s.Binds (s.setSock x a) P := by
  intro p i
  by_cases hx : SockId.server p i = x
  · rw [hx, setSock_self]
    exact ⟨ha, fun _ => .inr ⟨hP.1, hP.2 p i hx.symm⟩⟩
  · rw [setSock_of_ne hx]
    exact ⟨rfl, fun hb => .inl hb⟩

end IpcCpu

theorem MbIpcTask.Unbound.frame {q : MbIpcTask} {c c' : IpcCpu} (h : q.Unbound c)
    (hb : ∀ p i, q.closes p → (c'.sock (.server p i)).bound → (c.sock (.server p i)).bound) : q.Unbound c' := by
  have hout {p : Fin 4} {i : Fin 3} (hq : q.closes p) (hold : (c.sock (.server p i)).bound = false) :
      (c'.sock (.server p i)).bound = false := by
    rw [Bool.eq_false_iff] at hold ⊢
    exact fun hnew => hold (hb p i hq hnew)
  cases q with
  | disconnect x caller dstCpu dstPort =>
    cases x with
    | client => exact h
    | server p i =>
      cases caller with
      | app | close => trivial
      | serverClose rest => exact fun h0 => hout (decide_eq_true rfl) (h h0)
  | slotClosed p i rest => exact hout (decide_eq_true rfl) h
  | timedOut => exact h
  | idle | started | cleared | waiting | woken | closed | serverClose => trivial

namespace MbIpcSys
variable {T : Type}

namespace Closable
variable {s s' : MbIpcSys T}

theorem frame (h : s.Closable) {P : Fin 4 → Prop} (hb : s.cpu.Binds s'.cpu P)
    (hclosing : ∀ u, (s'.task u).closing = (s.task u).closing) (hunb : ∀ u, (s'.task u).Unbound s'.cpu) :
    s'.Closable := by
  have hcl (u : T) (p : Fin 4) : (s'.task u).closes p = (s.task u).closes p := by
    rw [MbIpcTask.closes, hclosing, MbIpcTask.closes]
  refine ⟨fun p i ha => ?_, fun p hp i j => ?_, fun u p rest hu => ?_, fun u v p hu hv => ?_, hunb⟩
  · have ha' := (hb p i).1.symm.trans ha
    rw [Bool.eq_false_iff]
    intro hbd
    rcases (hb p i).2 hbd with hold | ⟨hal, -⟩
    · rw [show (s.cpu.sock (.server p i)).bound = false from h.free p i ha'] at hold
      cases hold
    · rw [ha'] at hal
      cases hal
  · refine ((hb p i).1.trans ?_).trans (hb p j).1.symm
    refine h.same p (fun hc => hp ?_) i j
    obtain ⟨u, hu⟩ := hc
    exact ⟨u, (hcl u p).trans hu⟩
  · obtain ⟨hnd, hl⟩ := h.left u p rest (hclosing u ▸ hu)
    exact ⟨hnd, fun i => (hb p i).1 ▸ hl i⟩
  · rw [hcl] at hu hv
    exact h.one u v p hu hv

theorem isr (h : s.Closable) {c : IpcCpu} (hb : s.cpu.Binds c fun p => ¬s.Closing p) :
    Closable { s with cpu := c } := by
  refine h.frame hb (fun _ => rfl) fun u => (h.unbound u).frame fun p i hu hbd => ?_
  rcases (hb p i).2 hbd with hold | ⟨-, hn⟩
  · exact hold
  · exact absurd ⟨u, hu⟩ hn

variable [DecidableEq T] {t : T} {r : IpcCpu × MbIpcTask}

theorem call (h : s.Closable) (hclosing : r.2.closing = (s.task t).closing)
    (hb : s.cpu.Binds r.1 fun p => ∀ u, u ≠ t → (s.task u).closes p = false) (hunb : r.2.Unbound r.1) :
    (s.setTask t r).Closable := by
  refine h.frame hb (fun u => ?_) fun u => ?_
  · by_cases hu : u = t
    · subst hu
      rw [setTask_self]
      exact hclosing
    · rw [s.setTask_of_ne hu]
  · by_cases hu : u = t
    · subst hu
      rw [setTask_self]
      exact hunb
    · rw [s.setTask_of_ne hu]
      refine (h.unbound u).frame fun p i hp hbd => ?_
      rcases (hb p i).2 hbd with hold | ⟨-, hn⟩
      · exact hold
      · rw [hn u hu] at hp
        cases hp

end Closable
end MbIpcSys

/-- The router takes the command of `x`, or it stays on this CPU. -/
def IpcCpu.CanSend (s : IpcCpu) (x : SockId) : Prop :=
  (s.sock x).dstCpu = (s.sock x).srcCpu ∨ routerSearchRoute (s.sock x).dstCpu = true ∧ 1 < s.route.freeCnt

namespace MbIpcSys
variable {T : Type}

/-- What a call may go on with so that `mb_ipc_server_close` leaves no connection bound. -/
def NextClean (s : MbIpcSys T) : MbIpcTask → Prop
  | .disconnect (.server p _) .app _ _ | .disconnect (.server p _) .close _ _ => ¬s.Closing p
  | .cleared op x =>
    ((s.cpu.sock x).txCmd.cmd = .connect → ∀ p, IpcPort.ofNum (s.cpu.sock x).dstPort = some (.server p) →
      ¬s.Closing p) ∧ (op.closing x ≠ none → s.cpu.CanSend x)
  | .woken op x =>
    op.closing x ≠ none → (s.cpu.sock x).dstPort = 0 ∨ IpcCpu.disconnectDone (s.cpu.sock x).txStatus = true
  | .serverClose p (i :: _) => (s.slot p i).connected = true ∨ (s.slot p i).bound = false
  | _ => True

end MbIpcSys

def CloseClean {T : Type} (s : MbIpcSys T) : MbIpcAct T → Prop
  | .socket port => ∀ p, port = .server p → ¬s.Closing p
  | .serverClose _ p _ => ¬s.Closing p
  | .rx c => c.cmd = .connect → ∀ p, IpcPort.ofNum c.dstPort = some (.server p) → ¬s.Closing p
  | .timeout t => (s.task t).closing = none
  | .next t => s.NextClean (s.task t)
  | _ => True

instance (s : IpcCpu) (x : SockId) : Decidable (s.CanSend x) := inferInstanceAs (Decidable (_ ∨ _))

instance {T : Type} [Fintype T] (s : MbIpcSys T) : (q : MbIpcTask) → Decidable (s.NextClean q)
  | .disconnect (.server p _) .app _ _ | .disconnect (.server p _) .close _ _ =>
    inferInstanceAs (Decidable (¬s.Closing p))
  | .cleared _ _ => inferInstanceAs (Decidable (_ ∧ _))
  | .woken _ _ => inferInstanceAs (Decidable (_ → _))
  | .serverClose _ (_ :: _) => inferInstanceAs (Decidable (_ ∨ _))
  | .disconnect (.server _ _) (.serverClose _) _ _ | .disconnect (.client _) _ _ _ | .idle | .started _ _
  | .waiting _ _ | .timedOut _ _ | .closed _ | .serverClose _ [] | .slotClosed _ _ _ => .isTrue trivial

instance {T : Type} [Fintype T] (s : MbIpcSys T) : (a : MbIpcAct T) → Decidable (CloseClean s a)
  | .socket _ => inferInstanceAs (Decidable (∀ _, _))
  | .serverClose _ p _ => inferInstanceAs (Decidable (¬s.Closing p))
  | .rx _ => inferInstanceAs (Decidable (_ → _))
  | .timeout _ => inferInstanceAs (Decidable (_ = none))
  | .next t => inferInstanceAs (Decidable (s.NextClean (s.task t)))
  | .connect _ _ _ _ | .disconnect _ _ _ _ | .close _ _ | .send _ _ _ _ _ | .sendAsync _ _ _ _ _
  | .recvAsync _ _ _ | .getRecvDataLen _ | .get _ | .txCmpl _ => .isTrue trivial

theorem IpcCpu.CanSend.txCmd {s : IpcCpu} {x : SockId} (h : s.CanSend x) : (s.txCmd x).1 = .statusOk := by
  simp only [IpcCpu.txCmd]
  split
  next => rfl
  next hne =>
    rcases h with h | ⟨hroute, hfree⟩
    · exact absurd h hne
    · simp only [hroute, Bool.not_true, Bool.false_eq_true, if_false]
      rw [MbIpcRoute.enqueue, if_neg (Nat.not_le.2 hfree)]

namespace MbIpcSys
variable {T : Type}
namespace Closable
variable {s : MbIpcSys T} {t : T} {p : Fin 4}

theorem closes_eq_false (h : ¬s.Closing p) (u : T) : (s.task u).closes p = false := by
  rw [Bool.eq_false_iff]
  exact fun hu => h ⟨u, hu⟩

variable {rest : List (Fin 3)}

theorem alone (h : s.Closable) (ht : (s.task t).closing = some (p, rest)) (u : T)
    (hu : u ≠ t) : (s.task u).closes p = false := by
  rw [Bool.eq_false_iff]
  intro hc
  refine hu (h.one u t p hc ?_)
  rw [MbIpcTask.closes, ht]
  exact decide_eq_true rfl

variable {i : Fin 3}

theorem allocated (h : s.Closable) (ht : (s.task t).closing = some (p, i :: rest)) : (s.slot p i).allocated = true :=
  ((h.left t p _ ht).2 i).2 (List.mem_cons_self ..)

theorem init : Closable ({} : MbIpcSys T) :=
  ⟨fun _ _ _ => rfl, fun _ _ _ _ => rfl, nofun, nofun, fun _ => trivial⟩

theorem socket (h : s.Closable) {port : IpcPort} (hok : ∀ p, port = .server p → ¬s.Closing p) :
    Closable { s with cpu := s.cpu.socket port } := by
  by_cases hport : s.cpu.allocatePort port = true
  case neg =>
    rw [IpcCpu.socket, if_neg hport]
    exact h
  case pos =>
    have hself {p : Fin 4} (hp : .server p = port) (i : Fin 3) :
        (s.cpu.socket port).sock (.server p i) = { s.slot p i with allocated := true, connected := false } :=
      IpcCpu.socket_self hport hp
    have hother {p : Fin 4} (hp : .server p ≠ port) (i : Fin 3) :
        (s.cpu.socket port).sock (.server p i) = s.slot p i := IpcCpu.socket_of_ne hp
    refine ⟨fun p i ha => ?_, fun p hc i j => ?_, fun u p rest hu => ?_, h.one, fun u => ?_⟩
    · simp only [slot] at ha ⊢
      by_cases hp : .server p = port
      · rw [hself hp] at ha
        cases ha
      · rw [hother hp] at ha ⊢
        exact h.free p i ha
    · simp only [slot]
      by_cases hp : .server p = port
      · rw [hself hp, hself hp]
      · rw [hother hp, hother hp]
        exact h.same p hc i j
    · have hp : .server p ≠ port := by
        rintro rfl
        refine hok p rfl ⟨u, ?_⟩
        rw [MbIpcTask.closes, hu]
        exact decide_eq_true rfl
      obtain ⟨hnd, hl⟩ := h.left u p rest hu
      exact ⟨hnd, fun i => by rw [slot, hother hp, hl]⟩
    · refine (h.unbound u).frame fun p i _ hbd => ?_
      by_cases hp : .server p = port
      · rw [hself hp] at hbd
        exact hbd
      · rw [hother hp] at hbd
        exact hbd

theorem unbound_returned (op : MbIpcOp) {x : SockId} (ok : Bool) {c : IpcCpu}
    (h : op.closing x ≠ none → (c.sock x).bound = false) : (op.returned ok x).Unbound c := by
  cases op with
  | connect | send | sendAsync => trivial
  | disconnect caller =>
    cases caller with
    | app => trivial
    | serverClose rest =>
      cases x with
      | client => trivial
      | server p i => exact h (by simp [MbIpcOp.closing])
    | close =>
      cases x with
      | server => trivial
      | client => cases ok <;> trivial

variable [DecidableEq T]

theorem disconnect (h : s.Closable) {x : SockId} {caller : MbIpcCaller} {dstCpu dstPort : Nat}
    (ht : s.task t = .disconnect x caller dstCpu dstPort) (hok : s.NextClean (s.task t)) :
    (s.setTask t (s.cpu.disconnectStart x caller dstCpu dstPort)).Closable := by
  have hunb := h.unbound t
  have hclosing : (s.task t).closing = (MbIpcOp.disconnect caller).closing x := by rw [ht]; rfl
  rw [ht] at hunb hok
  simp only [IpcCpu.disconnectStart]
  split
  next ha =>
    refine h.call (((MbIpcOp.disconnect caller).closing_returned false x).trans hclosing.symm) (.of_kept (.refl _)) ?_
    refine unbound_returned (.disconnect caller) false fun hne => ?_
    obtain ⟨p, i, rest, rfl, rfl⟩ := MbIpcOp.of_closing hne
    have hal : (s.cpu.sock (.server p i)).allocated = true := h.allocated hclosing
    simp [hal] at ha
  next ha =>
    split
    next h0 =>
      have hk : s.cpu.Kept (s.cpu.setSock x { s.cpu.sock x with connected := false }) := .setSock (.of_eq rfl rfl rfl)
      refine h.call (((MbIpcOp.disconnect caller).closing_returned true x).trans hclosing.symm) (.of_kept hk) ?_
      refine unbound_returned (.disconnect caller) true fun hne => ?_
      rw [IpcCpu.setSock_self]
      obtain ⟨p, i, rest, rfl, rfl⟩ := MbIpcOp.of_closing hne
      exact hunb h0
    next =>
      refine h.call hclosing.symm (.setSock rfl ⟨by simpa using ha, fun p i hx u hu => ?_⟩) trivial
      subst hx
      cases caller with
      | app | close => exact closes_eq_false hok u
      | serverClose rest => exact h.alone hclosing u hu

variable {op : MbIpcOp}

theorem cleared (h : s.Closable) {x : SockId} (ht : s.task t = .cleared op x)
    (hok : s.NextClean (s.task t)) {r : IpcCpu × MbIpcTask} (hn : s.cpu.next (.cleared op x) = some r) :
    (s.setTask t r).Closable := by
  have hclosing : (s.task t).closing = op.closing x := by rw [ht]; rfl
  rw [ht] at hok
  have hbinds {c : IpcCpu} (hh : s.cpu.Handled c (s.cpu.sock x).nextCmd) :
      s.cpu.Binds c fun p => ∀ u, u ≠ t → (s.task u).closes p = false :=
    (IpcCpu.Binds.of_handled hh).mono fun p hp u _ => closes_eq_false (hok.1 hp.1 p hp.2) u
  have hh := s.cpu.handled_txCmd x
  simp only [IpcCpu.next] at hn
  split at hn
  next c hs =>
    cases hn
    rw [hs] at hh
    refine h.call ?_ (hbinds hh) ?_
    · rw [hclosing]
      cases op <;> rfl
    · dsimp only
      split <;> trivial
  next st c hst hs =>
    cases hn
    rw [hs] at hh
    refine h.call ((op.closing_returned false x).trans hclosing.symm) (hbinds (hh.trans_kept ?_)) ?_
    · exact IpcCpu.kept_giveUp c x op
    · refine unbound_returned op false fun hne => ?_
      have hsend := (hok.2 hne).txCmd
      rw [hs] at hsend
      exact absurd hsend hst

theorem woken (h : s.Closable) {x : SockId} (ht : s.task t = .woken op x)
    (hok : s.NextClean (s.task t)) : (s.setTask t (s.cpu.wokenUp x op)).Closable := by
  have hclosing : (s.task t).closing = op.closing x := by rw [ht]; rfl
  have hset {a : MbIpcSocket} (ha : (s.cpu.sock x).Kept a) :
      s.cpu.Binds (s.cpu.setSock x a) fun p => ∀ u, u ≠ t → (s.task u).closes p = false := .of_kept (.setSock ha)
  rw [ht] at hok
  cases op with
  | send | sendAsync => exact h.call hclosing.symm (.of_kept (.refl _)) trivial
  | connect =>
    simp only [IpcCpu.wokenUp]
    split
    · exact h.call hclosing.symm (hset (.of_eq rfl rfl rfl)) trivial
    · exact h.call hclosing.symm (hset ⟨rfl, .inr rfl⟩) trivial
  | disconnect caller =>
    have hret (ok : Bool) := ((MbIpcOp.disconnect caller).closing_returned ok x).trans hclosing.symm
    simp only [IpcCpu.wokenUp]
    split
    next h0 =>
      refine h.call (hret true) (hset (.of_eq rfl rfl rfl)) (unbound_returned (.disconnect caller) true fun _ => ?_)
      rw [IpcCpu.setSock_self]
      show isClientPort (s.cpu.sock x).dstPort = false
      rw [h0]
      rfl
    next h0 =>
      split
      next =>
        refine h.call (hret true) (hset ⟨rfl, .inr rfl⟩) (unbound_returned (.disconnect caller) true fun _ => ?_)
        rw [IpcCpu.setSock_self]
        rfl
      next hdone =>
        refine h.call (hret false) (.of_kept (.refl _)) (unbound_returned (.disconnect caller) false fun hne => ?_)
        rcases hok hne with h0' | hdone'
        · exact absurd h0' h0
        · exact absurd hdone' hdone

theorem timedOut (h : s.Closable) {x : SockId} (ht : s.task t = .timedOut op x) :
    (s.setTask t ((s.cpu.setSock x { s.cpu.sock x with txInProcess := false }).giveUp x op,
      op.returned false x)).Closable := by
  have hunb := h.unbound t
  have hclosing : (s.task t).closing = op.closing x := by rw [ht]; rfl
  rw [ht] at hunb
  have hk : s.cpu.Kept (s.cpu.setSock x { s.cpu.sock x with txInProcess := false }) := .setSock (.of_eq rfl rfl rfl)
  refine h.call ((op.closing_returned false x).trans hclosing.symm) (.of_kept (hk.trans (IpcCpu.kept_giveUp _ x op))) ?_
  exact unbound_returned op false fun hne => absurd hunb hne

theorem serverClose (h : s.Closable)
    (ht : s.task t = .serverClose p (i :: rest)) (hok : s.NextClean (s.task t)) {r : IpcCpu × MbIpcTask}
    (hn : s.cpu.next (.serverClose p (i :: rest)) = some r) : (s.setTask t r).Closable := by
  have hclosing : (s.task t).closing = some (p, i :: rest) := by rw [ht]; rfl
  rw [ht] at hok
  simp only [IpcCpu.next] at hn
  split at hn
  next =>
    cases hn
    refine h.call hclosing.symm (.of_kept (.refl _)) fun h0 => ?_
    show isClientPort (s.cpu.sock (.server p i)).dstPort = false
    rw [h0]
    rfl
  next hcon =>
    cases hn
    refine h.call hclosing.symm (.of_kept (.refl _)) ?_
    rcases hok with hok | hok
    · exact absurd hok hcon
    · exact hok

theorem closing_of_setTask {r : IpcCpu × MbIpcTask} (ht : (s.task t).closes p = false)
    (h : ¬(s.setTask t r).Closing p) : ¬s.Closing p := by
  rintro ⟨u, hu⟩
  refine h ⟨u, ?_⟩
  have hne : u ≠ t := by
    rintro rfl
    rw [ht] at hu
    cases hu
  rwa [s.setTask_of_ne hne]

variable (h : s.Closable)
include h

theorem retask {r : IpcCpu × MbIpcTask}
    (hfree : ∀ p i, (r.1.sock (.server p i)).allocated = false → (r.1.sock (.server p i)).bound = false)
    (hsame : ∀ p, ¬(s.setTask t r).Closing p →
      ∀ i j, (r.1.sock (.server p i)).allocated = (r.1.sock (.server p j)).allocated)
    (hleft : ∀ p rest, r.2.closing = some (p, rest) → rest.Nodup ∧ ∀ i, (r.1.sock (.server p i)).allocated ↔ i ∈ rest)
    (hone : ∀ p, r.2.closes p → ∀ u, u ≠ t → (s.task u).closes p = false)
    (hother : ∀ u p i, u ≠ t → (s.task u).closes p → r.1.sock (.server p i) = s.cpu.sock (.server p i))
    (hunb : r.2.Unbound r.1) : (s.setTask t r).Closable := by
  refine ⟨hfree, hsame, fun u p rest hu => ?_, fun u v p hu hv => ?_, fun u => ?_⟩
  · by_cases hut : u = t
    · subst hut
      rw [setTask_self] at hu
      exact hleft p rest hu
    · rw [s.setTask_of_ne hut] at hu
      have hcl : (s.task u).closes p := by
        rw [MbIpcTask.closes, hu]
        exact decide_eq_true rfl
      obtain ⟨hnd, hl⟩ := h.left u p rest hu
      exact ⟨hnd, fun i => by rw [← hl i, slot, slot, ← hother u p i hut hcl]; rfl⟩
  · by_cases hut : u = t
    · by_cases hvt : v = t
      · rw [hut, hvt]
      · rw [hut, setTask_self] at hu
        rw [s.setTask_of_ne hvt, hone p hu v hvt] at hv
        cases hv
    · rw [s.setTask_of_ne hut] at hu
      by_cases hvt : v = t
      · rw [hvt, setTask_self] at hv
        rw [hone p hv u hut] at hu
        cases hu
      · rw [s.setTask_of_ne hvt] at hv
        exact h.one u v p hu hv
  · by_cases hut : u = t
    · subst hut
      rw [setTask_self]
      exact hunb
    · rw [s.setTask_of_ne hut]
      refine (h.unbound u).frame fun p i hp hbd => ?_
      rw [← hother u p i hut hp]
      exact hbd

theorem start (ht : s.task t = .idle) (hok : ¬s.Closing p)
    (ha : (s.slot p i).allocated) : (s.setTask t (s.cpu, .serverClose p connectIds)).Closable := by
  refine h.retask h.free (fun q hq => h.same q (closing_of_setTask ?_ hq)) (fun q rest hc => ?_) (fun q hc u _ => ?_)
    (fun _ _ _ _ _ => rfl) trivial
  · rw [ht]
    rfl
  · cases hc
    exact ⟨by decide, fun j => ⟨fun _ => mem_connectIds j, fun _ => (h.same p hok j i).trans ha⟩⟩
  · obtain rfl : p = q := of_decide_eq_true hc
    exact closes_eq_false hok u

theorem finish (ht : s.task t = .serverClose p []) : (s.setTask t (s.cpu, .idle)).Closable := by
  refine h.retask h.free (fun q hq => ?_) nofun nofun (fun _ _ _ _ _ => rfl) trivial
  by_cases hqp : p = q
  · subst hqp
    have hl := (h.left t p [] (by rw [ht]; rfl)).2
    intro i j
    rw [Bool.eq_iff_iff]
    exact (hl i).trans ((iff_of_false (by simp) (by simp)).trans (hl j).symm)
  · refine h.same q (closing_of_setTask ?_ hq)
    rw [ht]
    exact decide_eq_false hqp

theorem slotClosed (ht : s.task t = .slotClosed p i rest) :
    (s.setTask t (s.cpu.free (.server p i), .serverClose p rest)).Closable := by
  have hclosing : (s.task t).closing = some (p, i :: rest) := by rw [ht]; rfl
  have hunb := h.unbound t
  rw [ht] at hunb
  obtain ⟨hnd, hl⟩ := h.left t p _ hclosing
  have hother {q : Fin 4} {j : Fin 3} (hne : SockId.server q j ≠ .server p i) :
      (s.cpu.free (.server p i)).sock (.server q j) = s.cpu.sock (.server q j) := IpcCpu.setSock_of_ne hne
  have hself : (s.cpu.free (.server p i)).sock (.server p i) =
      { s.cpu.sock (.server p i) with allocated := false, connected := false } := IpcCpu.setSock_self
  refine h.retask (fun q j ha => ?_) (fun q hq j k => ?_) (fun q l hc => ?_) (fun q hc u hu => ?_)
    (fun u q j hu hc => ?_) trivial
  · by_cases hx : SockId.server q j = .server p i
    · rw [hx, hself]
      exact hunb
    · rw [hother hx] at ha ⊢
      exact h.free q j ha
  · by_cases hqp : p = q
    · subst hqp
      refine absurd ⟨t, ?_⟩ hq
      rw [setTask_self]
      exact decide_eq_true rfl
    · have hne (j : Fin 3) : SockId.server q j ≠ .server p i := fun he => by cases he; exact hqp rfl
      rw [hother (hne j), hother (hne k)]
      refine h.same q (closing_of_setTask ?_ hq) j k
      rw [ht]
      exact decide_eq_false hqp
  · cases hc
    refine ⟨hnd.of_cons, fun j => ?_⟩
    by_cases hj : j = i
    · subst hj
      rw [hself]
      exact iff_of_false nofun (List.nodup_cons.1 hnd).1
    · rw [hother fun he => hj (by cases he; rfl)]
      exact (hl j).trans ⟨fun hm => (List.mem_cons.1 hm).resolve_left hj, List.mem_cons_of_mem i⟩
  · obtain rfl : p = q := of_decide_eq_true hc
    exact h.alone hclosing u hu
  · refine hother fun he => ?_
    cases he
    rw [h.alone hclosing u hu] at hc
    cases hc

theorem connect (ht : s.task t = .idle) (x : SockId) (dstCpu dstPort : Nat) :
    (s.setTask t (s.cpu.connectStart x dstCpu dstPort)).Closable := by
  simp only [IpcCpu.connectStart]
  split
  next => exact h.call (by rw [ht]) (.of_kept (.refl _)) trivial
  next hc =>
    refine h.call (by rw [ht]; rfl) (.setSock_unbound rfl ?_) trivial
    simp only [isServerPort, Bool.or_eq_true, Bool.not_eq_true', Bool.and_eq_false_iff, decide_eq_false_iff_not] at hc
    simp only [MbIpcSocket.bound, isClientPort, Bool.and_eq_false_iff, decide_eq_false_iff_not]
    omega

theorem send (ht : s.task t = .idle) (x : SockId) (userCmd : BitVec 8) (len : Nat) (crc8 : BitVec 8)
    {q : MbIpcTask} (hq : q.closing = none) (hunb : ∀ c, q.Unbound c) :
    (s.setTask t (s.cpu.sendStart x userCmd len crc8 q)).Closable := by
  have hk := (s.cpu.sock x).kept_sendStart userCmd len crc8
  unfold IpcCpu.sendStart
  split
  next a ha =>
    rw [ha] at hk
    exact h.call (by rw [ht, hq]; rfl) (.of_kept (.setSock hk)) (hunb _)
  next => exact h.call (by rw [ht]) (.of_kept (.refl _)) trivial

theorem next (hok : s.NextClean (s.task t)) {r : IpcCpu × MbIpcTask}
    (hn : s.cpu.next (s.task t) = some r) : (s.setTask t r).Closable := by
  cases ht : s.task t with
  | idle | waiting => rw [ht] at hn; cases hn
  | disconnect x caller dstCpu dstPort => rw [ht] at hn; cases hn; exact h.disconnect ht hok
  | started op x =>
    rw [ht] at hn
    cases hn
    exact h.call (by rw [ht]; rfl) (.of_kept (.refl s.cpu)) trivial
  | cleared op x => exact h.cleared ht hok (ht ▸ hn)
  | woken op x => rw [ht] at hn; cases hn; exact h.woken ht hok
  | timedOut op x => rw [ht] at hn; cases hn; exact h.timedOut ht
  | closed p =>
    rw [ht] at hn
    cases hn
    refine h.call (by rw [ht]; rfl) (fun q i => ?_) trivial
    have hother : (s.cpu.free (.client p)).sock (.server q i) = s.cpu.sock (.server q i) := IpcCpu.setSock_of_ne nofun
    exact ⟨congrArg _ hother, fun hb => .inl (hother ▸ hb)⟩
  | serverClose p rest =>
    cases rest with
    | nil => rw [ht] at hn; cases hn; exact h.finish ht
    | cons i rest => exact h.serverClose ht hok (ht ▸ hn)
  | slotClosed p i rest => rw [ht] at hn; cases hn; exact h.slotClosed ht

theorem step {a : MbIpcAct T} (hok : CloseClean s a) {s' : MbIpcSys T} (hs : s.step a = some s') :
    s'.Closable := by
  cases a with
  | socket port => cases hs; exact h.socket hok
  | connect t x dstCpu dstPort =>
    obtain ⟨ht, rfl⟩ := call_eq hs
    exact h.connect ht x dstCpu dstPort
  | disconnect t x dstCpu dstPort | close t x =>
    obtain ⟨ht, rfl⟩ := call_eq hs
    refine h.call ?_ (.of_kept (.refl _)) ?_
    · rw [ht]
      rfl
    · cases x <;> trivial
  | send t x userCmd len crc8 | sendAsync t x userCmd len crc8 =>
    obtain ⟨ht, rfl⟩ := call_eq hs
    exact h.send ht x userCmd len crc8 rfl fun _ => trivial
  | recvAsync x buffLen crc8 => cases hs; exact h.isr (.of_kept (s.cpu.kept_recvAsync x buffLen crc8))
  | getRecvDataLen x => cases hs; exact h.isr (.of_kept (s.cpu.kept_getRecvDataLen x))
  | serverClose t p i =>
    obtain ⟨ht, rfl⟩ := call_eq hs
    split
    next ha => exact h.start ht hok ha
    next => exact h.call (by rw [ht]) (.of_kept (.refl _)) trivial
  | next t =>
    obtain ⟨r, hn, rfl⟩ := Option.map_eq_some_iff.1 hs
    exact h.next hok hn
  | get t =>
    obtain ⟨op, x, ht, rfl⟩ := get_eq hs
    exact h.call (by rw [ht]; rfl) (.of_kept (.refl s.cpu)) trivial
  | timeout t =>
    obtain ⟨op, x, ht, rfl⟩ := timeout_eq hs
    simp only [CloseClean, ht] at hok
    exact h.call (by rw [ht]; rfl) (.of_kept (.refl s.cpu)) hok
  | rx c =>
    cases hs
    exact h.isr ((IpcCpu.Binds.of_handled (s.cpu.handled_rxIsr c)).mono fun p hp => hok hp.1 p hp.2)
  | txCmpl ack => cases hs; exact h.isr (.of_kept (s.cpu.kept_txCmplIsr ack))

end Closable
end MbIpcSys

/-- If `mb_ipc_server_close` meets no failure, finds no connection bound but disconnected, and is not overtaken, every
connection of the port can be accepted when it is opened again. -/
theorem reopened_connections_free {T : Type} [DecidableEq T] {s s' : MbIpcSys T}
    (hr : Run MbIpcSys.step CloseClean {} s) {p : Fin 4} (hret : ¬s.Closing p)
    (hport : s.cpu.allocatePort (.server p) = true) (hs : s.step (.socket (.server p)) = some s') (i : Fin 3) :
    s'.cpu.freeSlot p [i] = some i ∧ (s'.slot p i).bound = false := by
  have h : s.Closable := hr.invariant .init fun _ _ _ _ h hok hs => h.step hok hs
  cases hs
  have hself : (s.cpu.socket (.server p)).sock (.server p i) =
      { s.slot p i with allocated := true, connected := false } := IpcCpu.socket_self hport rfl
  have halloc : (s.slot p i).allocated = false := by
    rw [h.same p hret i 0]
    simp only [IpcCpu.allocatePort, Bool.and_eq_true, Bool.not_eq_true'] at hport
    exact hport.1
  have hfree : isClientPort (s.slot p i).dstPort = false := h.free p i halloc
  constructor
  · simp [IpcCpu.freeSlot, hself, hfree]
  · rw [MbIpcSys.slot, hself]
    exact hfree

theorem reopened_connections_free_one : ∃ s s' : MbIpcSys (Fin 1), Run MbIpcSys.step CloseClean {} s ∧
    s.step (.socket (.server 0)) = some s' ∧ s'.cpu.freeSlot 0 [0] = some 0 := by
  have hrun : ∃ s : MbIpcSys (Fin 1), Run MbIpcSys.step CloseClean {} s ∧
      ¬s.Closing 0 ∧ s.cpu.allocatePort (.server 0) = true :=
    Run.of_exec [.socket (.server 0), .rx (fromClient .connect 16), .txCmpl (ackOfRsp (fromClient .connect 16)),
      .serverClose 0 0 0, .next 0, .next 0, .next 0, .next 0,
      .rx { fromClient .disconnect 16 with rsp := true, tag := 1 }, .get 0, .next 0, .next 0, .next 0, .next 0,
      .next 0, .next 0, .next 0] (by decide +kernel)
  obtain ⟨s, hr, hret, hport⟩ := hrun
  exact ⟨s, _, hr, rfl, (reopened_connections_free hr hret hport rfl 0).1⟩

/-- The client does not answer: its address is still there when the port is open again. -/
theorem reopened_connection_bound : ∃ s : MbIpcSys (Fin 1), Run MbIpcSys.step (fun _ _ => True) {} s ∧
    s.task 0 = .idle ∧ (s.slot 0 0).allocated = true ∧ (s.slot 0 0).dstPort = 16 ∧ s.cpu.freeSlot 0 [0] = none :=
  Run.of_exec [.socket (.server 0), .rx (fromClient .connect 16), .txCmpl (ackOfRsp (fromClient .connect 16)),
    .serverClose 0 0 0, .next 0, .next 0, .next 0, .next 0, .timeout 0, .next 0, .next 0, .next 0, .next 0, .next 0,
    .next 0, .next 0, .socket (.server 0)] (by decide +kernel)

end Bk7258

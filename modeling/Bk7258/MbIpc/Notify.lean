import Mathlib.Data.Fintype.Basic
import Bk7258.MbIpc.Pair

/-!
# Sending on the connections of a server

The connections of a server port share `tx_notify_sema`. A send clears the semaphore, sends, waits for the semaphore and
then returns `tx_status` of its own connection. So a send that is woken by a completion of another connection returns
what an earlier send left there.

The port stays open, the packets its connections get are arbitrary. Responses carry the number of the command they
answer.
-/

namespace Bk7258
open Lts IpcPair Function

structure SendArgs where
  userCmd : BitVec 8 := 0
  len : Nat := 0
  crc8 : BitVec 8 := 0
deriving DecidableEq, Repr

structure SvrSend where
  conn : Fin 3
  num : Nat
  ret : MbIpcStatus
deriving DecidableEq, Repr

/-- `mb_ipc_send` on a connection, or `mb_ipc_server_send` with the sends that have returned. -/
inductive SvrCall
  | one (args : SendArgs)
  | all (args : SendArgs) (done : List SvrSend)
deriving DecidableEq, Repr

def SvrCall.args : SvrCall → SendArgs
  | .one args | .all args _ => args

def SvrCall.done : SvrCall → List SvrSend
  | .one _ => []
  | .all _ done => done

inductive SvrTask
  | idle
  | called (call : SvrCall) (i : Fin 3)
  | started (call : SvrCall) (i : Fin 3)
  | cleared (call : SvrCall) (i : Fin 3)
  | waiting (call : SvrCall) (i : Fin 3) (n : Nat)
  | woken (call : SvrCall) (i : Fin 3) (n : Nat)
  | timedOut (call : SvrCall) (i : Fin 3) (n : Nat)
deriving DecidableEq, Repr

/-- A server port. `attempts` counts the commands of each connection, `answers` are those that were answered with
success, `sends` and `serverSends` the calls that have returned. -/
structure SvrPort (T : Type) where
  sock : Fin 3 → MbIpcSocket
  sema : Nat := 0
  task : T → SvrTask := fun _ => .idle
  attempts : Fin 3 → Nat := fun _ => 0
  answers : List (Fin 3 × Nat) := []
  sends : List SvrSend := []
  serverSends : List (List SvrSend × MbIpcStatus) := []

inductive SvrAct (T : Type)
  | send (t : T) (i : Fin 3) (args : SendArgs)
  | serverSend (t : T) (i : Fin 3) (args : SendArgs)
  | start (t : T)
  | clear (t : T)
  | tx (t : T) (status : IpcRouteStatus)
  | get (t : T)
  | ret (t : T)
  | timeout (t : T)
  | leave (t : T)
  | rxCmd (i : Fin 3) (c : MbIpcCmd) (status : IpcRouteStatus)
  | accept (i : Fin 3) (srcCpu srcPort : Nat)
  | rxRsp (i : Fin 3) (rsp : MbIpcCmd) (n : Nat)
  | txCmpl (i : Fin 3) (ack : MbIpcCmd)
  | recvAsync (i : Fin 3) (buffLen : Nat) (crc8 : BitVec 8) (status : IpcRouteStatus)
deriving DecidableEq

namespace SvrPort
variable {T : Type} (s : SvrPort T)

def setSock (i : Fin 3) (a : MbIpcSocket) : SvrPort T := { s with sock := update s.sock i a }

def postIf (post : Bool) : SvrPort T := { s with sema := if post then s.sema + 1 else s.sema }

def rxCmd (i : Fin 3) (c : MbIpcCmd) (status : IpcRouteStatus) : SvrPort T :=
  let r := ((s.sock i).rxCmdHandler c).2
  (s.setSock i (if r.rsp then r.socket.txRsp status else r.socket)).postIf r.post

def rxRsp (i : Fin 3) (rsp : MbIpcCmd) (n : Nat) : SvrPort T :=
  let r := (s.sock i).rxRspHandler rsp
  { (s.setSock i r.2.1).postIf r.2.2 with
    answers := if r.1 = .statusOk ∧ rsp.apiImplStatus = .statusOk then (i, n) :: s.answers else s.answers }

def txCmpl (i : Fin 3) (ack : MbIpcCmd) : SvrPort T :=
  let r := (s.sock i).txCmplHandler ack
  (s.setSock i r.1).postIf r.2

def recvAsync (i : Fin 3) (buffLen : Nat) (crc8 : BitVec 8) (status : IpcRouteStatus) : SvrPort T :=
  let r := (s.sock i).mbIpcRecvAsync buffLen crc8
  s.setSock i (if r.rsp then r.socket.txRsp status else r.socket)

/-- The part of `ipc_socket_server_accept` for a connection -/
def accept (i : Fin 3) (srcCpu srcPort : Nat) : SvrPort T :=
  s.setSock i { s.sock i with
    dstCpu := srcCpu
    dstPort := srcPort
    txInProcess := false
    rxInProcess := false
    txStatus := .txOk
    rxReadOffset := 0 }

/-- The socket after `ipc_socket_tx_cmd`; without a route the address is not filled in. -/
def txSocket (a : MbIpcSocket) : IpcRouteStatus → MbIpcSocket
  | .unreachable => { a with txTag := a.txTag + 1, txCmd.tag := a.txTag + 1 }
  | status => a.txCmdTo status

def sent (i : Fin 3) (status : IpcRouteStatus) : SvrPort T :=
  { s.setSock i (txSocket (s.sock i) status) with attempts := update s.attempts i (s.attempts i + 1) }

variable [DecidableEq T]

def setTask (t : T) (q : SvrTask) : SvrPort T := { s with task := update s.task t q }

/-- `mb_ipc_send` on connection `i` returns; `mb_ipc_server_send` goes on with the next connection. -/
def finish (t : T) (i : Fin 3) (n : Nat) (ret : MbIpcStatus) : SvrCall → SvrPort T
  | .one _ => { s.setTask t .idle with sends := s.sends ++ [⟨i, n, ret⟩] }
  | .all args done =>
    let r : SvrSend := ⟨i, n, ret⟩
    let done := done ++ [r]
    let s := { s with sends := s.sends ++ [r] }
    if i.val < 2 then s.setTask t (.called (.all args done) (i + 1))
    else
      { s.setTask t .idle with
        serverSends := s.serverSends ++ [(done, if done.any (·.ret = .txOk) then .txOk else .txFailed)] }

def start (t : T) (call : SvrCall) (i : Fin 3) : SvrPort T :=
  match (s.sock i).sendStart call.args.userCmd call.args.len call.args.crc8 with
  | (.txOk, a) => (s.setSock i a).setTask t (.started call i)
  | (ret, _) => s.finish t i 0 ret call

def tx (t : T) (call : SvrCall) (i : Fin 3) (status : IpcRouteStatus) : SvrPort T :=
  let n := s.attempts i + 1
  if status = .statusOk then (s.sent i status).setTask t (.waiting call i n)
  else (s.sent i status).finish t i n (.routeFailed status) call

def step : SvrPort T → SvrAct T → Option (SvrPort T)
  | s, .send t i args => if s.task t = .idle then some (s.setTask t (.called (.one args) i)) else none
  | s, .serverSend t i args =>
    if s.task t = .idle ∧ (s.sock i).allocated = true then some (s.setTask t (.called (.all args []) 0)) else none
  | s, .start t =>
    match s.task t with
    | .called call i => some (s.start t call i)
    | _ => none
  | s, .clear t =>
    match s.task t with
    | .started call i => some ({ s with sema := s.sema - 1 }.setTask t (.cleared call i))
    | _ => none
  | s, .tx t status =>
    match s.task t with
    | .cleared call i => some (s.tx t call i status)
    | _ => none
  | s, .get t =>
    match s.task t with
    | .waiting call i n =>
      if 0 < s.sema then some ({ s with sema := s.sema - 1 }.setTask t (.woken call i n)) else none
    | _ => none
  | s, .ret t =>
    match s.task t with
    | .woken call i n => some (s.finish t i n (s.sock i).txStatus call)
    | _ => none
  | s, .timeout t =>
    match s.task t with
    | .waiting call i n => if s.sema = 0 then some (s.setTask t (.timedOut call i n)) else none
    | _ => none
  | s, .leave t =>
    match s.task t with
    | .timedOut call i n => some ((s.setSock i { s.sock i with txInProcess := false }).finish t i n .txTimeout call)
    | _ => none
  | s, .rxCmd i c status => some (s.rxCmd i c status)
  | s, .accept i srcCpu srcPort =>
    if (s.sock i).allocated = true ∧ isClientPort (s.sock i).dstPort = false then some (s.accept i srcCpu srcPort)
    else none
  | s, .rxRsp i rsp n =>
    if n ≤ s.attempts i ∧ rsp.tag = tagOf n then some (s.rxRsp i rsp n) else none
  | s, .txCmpl i ack => some (s.txCmpl i ack)
  | s, .recvAsync i buffLen crc8 status => some (s.recvAsync i buffLen crc8 status)

end SvrPort

namespace SvrTask

def conn : SvrTask → Option (Fin 3)
  | .started _ i | .cleared _ i | .waiting _ i _ | .woken _ i _ | .timedOut _ i _ => some i
  | .idle | .called _ _ => none

def next : SvrTask → Option (Fin 3)
  | .called _ i => some i
  | _ => none

/-- The connection of a send that will take the next post. -/
def listens : SvrTask → Option (Fin 3)
  | .cleared _ i | .waiting _ i _ => some i
  | .idle | .called _ _ | .started _ _ | .woken _ _ _ | .timedOut _ _ _ => none

def done : SvrTask → List SvrSend
  | .called c _ | .started c _ | .cleared c _ | .waiting c _ _ | .woken c _ _ | .timedOut c _ _ => c.done
  | .idle => []

end SvrTask

namespace SvrPort
variable {T : Type} (s : SvrPort T)

def NoSend (i : Fin 3) : Prop := ∀ t, (s.task t).conn ≠ some i

def Alone (i : Fin 3) : Prop := ∀ t, (s.task t).listens.all (· = i) = true

instance [Fintype T] (i : Fin 3) : Decidable (s.NoSend i) := inferInstanceAs (Decidable (∀ _, _))
instance [Fintype T] (i : Fin 3) : Decidable (s.Alone i) := inferInstanceAs (Decidable (∀ _, _))

end SvrPort

/-- Completions come when no other connection's send listens and answer one of the last 256 commands; the semaphore has
at most one post when it is cleared; sends and connects on one connection do not overlap. -/
def OwnPosts {T : Type} (s : SvrPort T) : SvrAct T → Prop
  | .start t => ∀ i, (s.task t).next = some i → (s.sock i).txInProcess = false → s.NoSend i
  | .clear _ => s.sema ≤ 1
  | .rxCmd i c _ => (((s.sock i).rxCmdHandler c).2.post = true → s.Alone i) ∧ (c.cmd = .connect → s.NoSend i)
  | .accept i _ _ => s.NoSend i
  | .rxRsp i rsp n => ((s.sock i).rxRspHandler rsp).2.2 = true → s.attempts i < n + 256 ∧ s.Alone i
  | .txCmpl i ack => ((s.sock i).txCmplHandler ack).2 = true → s.Alone i
  | _ => True

instance {T : Type} [Fintype T] (s : SvrPort T) : (a : SvrAct T) → Decidable (OwnPosts s a)
  | .start _ => inferInstanceAs (Decidable (∀ _, _))
  | .clear _ => inferInstanceAs (Decidable (_ ≤ _))
  | .rxCmd _ _ _ => inferInstanceAs (Decidable (_ ∧ _))
  | .accept i _ _ => inferInstanceAs (Decidable (s.NoSend i))
  | .rxRsp _ _ _ | .txCmpl _ _ => inferInstanceAs (Decidable (_ → _))
  | .send _ _ _ | .serverSend _ _ _ | .tx _ _ | .get _ | .ret _ | .timeout _ | .leave _ | .recvAsync _ _ _ _ =>
    .isTrue trivial

/-- The transmit side of a connection after a handler that completes nothing with success. -/
structure MbIpcSocket.TxKept (a b : MbIpcSocket) (post : Bool) : Prop where
  tag : b.txTag = a.txTag
  idle : a.txInProcess = false → b.txInProcess = false
  status : if post then b.txStatus ≠ .txOk else b.txStatus = a.txStatus

namespace MbIpcSocket
variable (a : MbIpcSocket)

theorem TxKept.txRsp {a b : MbIpcSocket} {post : Bool} (h : a.TxKept b post) (rsp : Bool) (status : IpcRouteStatus) :
    a.TxKept (if rsp then b.txRsp status else b) post := by
  cases rsp with
  | true => exact ⟨h.tag, h.idle, h.status⟩
  | false => exact h

theorem rxCmdHandler_connect {c : MbIpcCmd} (hc : c.cmd = .connect) : (a.rxCmdHandler c).2.post = false ∧ ∀ status,
      (if (a.rxCmdHandler c).2.rsp then (a.rxCmdHandler c).2.socket.txRsp status
        else (a.rxCmdHandler c).2.socket).txTag = a.txTag := by
  unfold rxCmdHandler
  split
  · exact ⟨rfl, fun _ => rfl⟩
  · simp only [rxCmdAccept, hc]
    split
    · exact ⟨rfl, fun _ => rfl⟩
    · exact ⟨rfl, fun _ => rfl⟩

theorem txKept_txCmplHandler (ack : MbIpcCmd) : a.TxKept (a.txCmplHandler ack).1 (a.txCmplHandler ack).2 := by
  rcases a.txCmplHandler_cases ack with ⟨cpu, port, he, -⟩ | he | ⟨st, he, -, hst⟩ <;> rw [he]
  · exact ⟨rfl, id, rfl⟩
  · exact ⟨rfl, id, rfl⟩
  · refine ⟨rfl, fun _ => rfl, ?_⟩
    rcases hst with ⟨-, rfl⟩ | ⟨-, rfl⟩ <;> exact nofun

theorem txKept_mbIpcRecvAsync (buffLen : Nat) (crc8 : BitVec 8) :
    a.TxKept (a.mbIpcRecvAsync buffLen crc8).socket false := by
  obtain ⟨o, st, he⟩ := a.mbIpcRecvAsync_socket buffLen crc8
  rw [he]
  exact ⟨rfl, id, rfl⟩

theorem txKept_rxCmdHandler {c : MbIpcCmd} (hc : c.cmd ≠ .connect) :
    a.TxKept (a.rxCmdHandler c).2.socket (a.rxCmdHandler c).2.post := by
  unfold rxCmdHandler
  split
  · exact ⟨rfl, id, rfl⟩
  · simp only [rxCmdAccept, rxCmdDisconnect, rxCmdDefaultHandler]
    split
    · exact ⟨rfl, id, rfl⟩
    split
    next he => exact absurd he hc
    next =>
      refine ⟨rfl, fun _ => rfl, ?_⟩
      cases h : a.txInProcess <;> simp
    next =>
      repeat' split
      all_goals exact ⟨rfl, id, rfl⟩

end MbIpcSocket

namespace SvrPort
variable {T : Type} (s : SvrPort T)

def Answered (r : SvrSend) : Prop := r.ret = .txOk → (r.conn, r.num) ∈ s.answers

def Own (i : Fin 3) (n : Nat) : Prop := (s.sock i).txStatus = .txOk → (i, n) ∈ s.answers

def Phase : SvrTask → Prop
  | .started _ i => (s.sock i).txInProcess = false
  | .cleared _ i => (s.sock i).txInProcess = false ∧ (0 < s.sema → (s.sock i).txStatus ≠ .txOk)
  | .waiting _ i n => n = s.attempts i ∧ (0 < s.sema → s.Own i n)
  | .woken _ i n => n = s.attempts i ∧ s.Own i n
  | .idle | .called _ _ | .timedOut _ _ _ => True

structure PortInv : Prop where
  excl : ∀ t u i, (s.task t).conn = some i → (s.task u).conn = some i → t = u
  tag : ∀ i, (s.sock i).txTag = tagOf (s.attempts i)
  phase : ∀ t, s.Phase (s.task t)
  done : ∀ t, ∀ r ∈ (s.task t).done, s.Answered r
  sends : ∀ r ∈ s.sends, s.Answered r
  serverSends : ∀ c ∈ s.serverSends, c.2 = .txOk → ∃ r ∈ c.1, r.ret = .txOk ∧ (r.conn, r.num) ∈ s.answers

variable {s} {s' : SvrPort T} {i j : Fin 3} {a : MbIpcSocket} {q : SvrTask}

theorem Phase.mono (h : s.Phase q) (hsock : ∀ j, q.conn = some j → s'.sock j = s.sock j)
    (hatt : ∀ j, q.conn = some j → s'.attempts j = s.attempts j) (hans : ∀ x ∈ s.answers, x ∈ s'.answers)
    (hsema : q.listens ≠ none → s'.sema ≤ s.sema) : s'.Phase q := by
  cases q with
  | idle | called | timedOut => trivial
  | started c j =>
    simp only [Phase, hsock j rfl] at h ⊢
    exact h
  | cleared c j =>
    have hle := hsema nofun
    simp only [Phase, hsock j rfl] at h ⊢
    exact ⟨h.1, fun hs => h.2 (by omega)⟩
  | waiting c j n =>
    have hle := hsema nofun
    simp only [Phase, Own, hsock j rfl, hatt j rfl] at h ⊢
    exact ⟨h.1, fun hs hok => hans _ (h.2 (by omega) hok)⟩
  | woken c j n =>
    simp only [Phase, Own, hsock j rfl, hatt j rfl] at h ⊢
    exact ⟨h.1, fun hok => hans _ (h.2 hok)⟩

theorem Alone.listens (h : s.Alone i) {t : T} (hc : (s.task t).conn ≠ some i) : (s.task t).listens = none := by
  have hall := h t
  cases hq : s.task t <;> simp_all [SvrTask.conn, SvrTask.listens]

namespace PortInv

theorem handler (h : s.PortInv) (hsock : ∀ j, j ≠ i → s'.sock j = s.sock j) (htask : s'.task = s.task)
    (hatt : s'.attempts = s.attempts) (hans : ∀ x ∈ s.answers, x ∈ s'.answers) (hsends : s'.sends = s.sends)
    (hserver : s'.serverSends = s.serverSends) (htag : (s'.sock i).txTag = (s.sock i).txTag)
    (hsema : s'.sema ≤ s.sema ∨ s.Alone i) (hown : ∀ t, (s.task t).conn = some i → s'.Phase (s.task t)) :
      s'.PortInv := by
  refine ⟨htask ▸ h.excl, fun j => ?_, fun t => ?_, fun t r hr hok => ?_, fun r hr hok => ?_, fun c hc hok => ?_⟩
  · rw [hatt, ← h.tag j]
    by_cases hj : j = i
    · subst hj
      exact htag
    · rw [hsock j hj]
  · rw [htask]
    by_cases ht : (s.task t).conn = some i
    · exact hown t ht
    · refine (h.phase t).mono (fun j hj => hsock j fun he => ht (he ▸ hj)) (fun j _ => by rw [hatt]) hans fun hl => ?_
      rcases hsema with hle | hal
      · exact hle
      · exact absurd (hal.listens ht) hl
  · rw [htask] at hr
    exact hans _ (h.done t r hr hok)
  · rw [hsends] at hr
    exact hans _ (h.sends r hr hok)
  · rw [hserver] at hc
    obtain ⟨r, hr, hret, hmem⟩ := h.serverSends c hc hok
    exact ⟨r, hr, hret, hans _ hmem⟩

theorem kept (h : s.PortInv) {post : Bool} (hk : (s.sock i).TxKept a post) (hpost : post = true → s.Alone i) :
    ((s.setSock i a).postIf post).PortInv := by
  have hself : ((s.setSock i a).postIf post).sock i = a := update_self ..
  have hsema : ((s.setSock i a).postIf post).sema = if post then s.sema + 1 else s.sema := rfl
  refine h.handler (fun j hj => update_of_ne hj ..) rfl rfl (fun _ hx => hx) rfl rfl
    (by rw [hself, hk.tag]) ?_ fun t ht => ?_
  · cases post with
    | true => exact .inr (hpost rfl)
    | false => exact .inl (Nat.le_refl _)
  · have hph := h.phase t
    have hst := hk.status
    cases hq : s.task t with
    | idle | called => rw [hq] at ht; cases ht
    | timedOut => trivial
    | started c j =>
      rw [hq] at ht hph
      cases ht
      simp only [Phase, hself]
      exact hk.idle hph
    | cleared c j =>
      rw [hq] at ht hph
      cases ht
      simp only [Phase, hself, hsema]
      refine ⟨hk.idle hph.1, fun hs => ?_⟩
      cases post with
      | true => exact hst
      | false => rw [show a.txStatus = _ from hst]; exact hph.2 hs
    | waiting c j n =>
      rw [hq] at ht hph
      cases ht
      simp only [Phase, Own, hself, hsema]
      refine ⟨hph.1, fun hs hok => ?_⟩
      cases post with
      | true => exact absurd hok hst
      | false => exact hph.2 hs (hst ▸ hok)
    | woken c j n =>
      rw [hq] at ht hph
      cases ht
      simp only [Phase, Own, hself]
      refine ⟨hph.1, fun hok => ?_⟩
      cases post with
      | true => exact absurd hok hst
      | false => exact hph.2 (hst ▸ hok)

theorem reset (h : s.PortInv) (htag : a.txTag = (s.sock i).txTag) (hno : s.NoSend i) : (s.setSock i a).PortInv := by
  have hself : (s.setSock i a).sock i = a := update_self ..
  exact h.handler (fun j hj => update_of_ne hj ..) rfl rfl (fun _ hx => hx) rfl rfl (by rw [hself, htag])
    (.inl (Nat.le_refl _)) fun t ht => absurd ht (hno t)

theorem rxRsp (h : s.PortInv) {rsp : MbIpcCmd} {n : Nat} (hn : n ≤ s.attempts i) (htag : rsp.tag = tagOf n)
    (hok : ((s.sock i).rxRspHandler rsp).2.2 → s.attempts i < n + 256 ∧ s.Alone i) : (s.rxRsp i rsp n).PortInv := by
  have hans : ∀ x ∈ s.answers, x ∈ (s.rxRsp i rsp n).answers := by
    intro x hx
    simp only [SvrPort.rxRsp]
    split
    · exact List.mem_cons_of_mem _ hx
    · exact hx
  have hself : (s.rxRsp i rsp n).sock i = ((s.sock i).rxRspHandler rsp).2.1 := update_self ..
  rcases (s.sock i).rxRspHandler_cases rsp with ⟨st, he⟩ | ⟨st, he, htx, hrtag, -, hst⟩
  · have hsock : (s.rxRsp i rsp n).sock = s.sock := by
      simp only [SvrPort.rxRsp, postIf, setSock, he, update_eq_self]
    have hsema : (s.rxRsp i rsp n).sema = s.sema := by simp [SvrPort.rxRsp, postIf, setSock, he]
    refine h.handler (i := i) (fun j _ => by rw [hsock]) rfl rfl hans rfl rfl (by rw [hsock])
      (.inl (Nat.le_of_eq hsema)) fun t _ => ?_
    exact (h.phase t).mono (fun j _ => by rw [hsock]) (fun _ _ => rfl) hans fun _ => Nat.le_of_eq hsema
  · rw [he] at hok hself
    obtain ⟨hfresh, halone⟩ := hok rfl
    have hnum : n = s.attempts i := tagOf_inj (by rw [← htag, ← hrtag, h.tag i]) hn hfresh
    have hown : (s.rxRsp i rsp n).Own i n := by
      intro hok
      rw [hself] at hok
      simp [SvrPort.rxRsp, he, hst hok]
    refine h.handler (fun j hj => update_of_ne hj ..) rfl rfl hans rfl rfl (by rw [hself]) (.inr halone)
      fun t ht => ?_
    have hph := h.phase t
    cases hq : s.task t with
    | idle | called => rw [hq] at ht; cases ht
    | timedOut => trivial
    | started c j =>
      rw [hq] at ht hph
      cases ht
      rw [show (s.sock i).txInProcess = false from hph] at htx
      cases htx
    | cleared c j =>
      rw [hq] at ht hph
      cases ht
      rw [hph.1] at htx
      cases htx
    | waiting c j m =>
      rw [hq] at ht hph
      cases ht
      obtain rfl : m = n := hph.1.trans hnum.symm
      exact ⟨hnum, fun _ => hown⟩
    | woken c j m =>
      rw [hq] at ht hph
      cases ht
      obtain rfl : m = n := hph.1.trans hnum.symm
      exact ⟨hnum, hown⟩

theorem other (h : s.PortInv) {t : T} (ht : (s.task t).conn = some i) (u : T) (hu : u ≠ t) : (s.task u).conn ≠ some i :=
  fun hc => hu (h.excl u t i hc ht)

variable [DecidableEq T] {t : T} (h : s.PortInv)
include h

theorem move (hother : ∀ u, u ≠ t → (s.task u).conn ≠ some i)
    (hsock : ∀ j, j ≠ i → s'.sock j = s.sock j) (hatt : ∀ j, j ≠ i → s'.attempts j = s.attempts j)
    (htag : (s'.sock i).txTag = tagOf (s'.attempts i)) (hans : s'.answers = s.answers)
    (hsema : s'.sema ≤ s.sema) (hsends : s'.sends = s.sends) (hserver : s'.serverSends = s.serverSends)
    (htask : s'.task = update s.task t q) (hconn : ∀ j, q.conn = some j → j = i)
    (hdone : ∀ r ∈ q.done, s.Answered r) (hphase : s'.Phase q) : s'.PortInv := by
  have hself : s'.task t = q := by rw [htask, update_self]
  have hne {u : T} (hu : u ≠ t) : s'.task u = s.task u := by rw [htask, update_of_ne hu]
  refine ⟨fun u v j hu hv => ?_, fun j => ?_, fun u => ?_, fun u r hr hok => ?_, fun r hr hok => ?_,
    fun c hc hok => ?_⟩
  · by_cases hut : u = t
    · by_cases hvt : v = t
      · rw [hut, hvt]
      · rw [hut, hself] at hu
        rw [hne hvt, hconn j hu] at hv
        exact absurd hv (hother v hvt)
    · rw [hne hut] at hu
      by_cases hvt : v = t
      · rw [hvt, hself] at hv
        rw [hconn j hv] at hu
        exact absurd hu (hother u hut)
      · rw [hne hvt] at hv
        exact h.excl u v j hu hv
  · by_cases hj : j = i
    · subst hj
      exact htag
    · rw [hsock j hj, hatt j hj]
      exact h.tag j
  · by_cases hut : u = t
    · rw [hut, hself]
      exact hphase
    · rw [hne hut]
      have hj {j : Fin 3} (hj : (s.task u).conn = some j) : j ≠ i := fun he => hother u hut (he ▸ hj)
      exact (h.phase u).mono (fun j hc => hsock j (hj hc)) (fun j hc => hatt j (hj hc)) (fun x hx => hans ▸ hx)
        fun _ => hsema
  · rw [hans]
    by_cases hut : u = t
    · rw [hut, hself] at hr
      exact hdone r hr hok
    · rw [hne hut] at hr
      exact h.done u r hr hok
  · rw [hans]
    exact h.sends r (hsends ▸ hr) hok
  · rw [hans]
    exact h.serverSends c (hserver ▸ hc) hok

theorem rest (hconn : q.conn = none) (hdone : ∀ r ∈ q.done, s.Answered r) : (s.setTask t q).PortInv := by
  have hself : (s.setTask t q).task t = q := update_self ..
  have hne {u : T} (hu : u ≠ t) : (s.setTask t q).task u = s.task u := update_of_ne hu ..
  have hconn' {u : T} {j : Fin 3} (hu : ((s.setTask t q).task u).conn = some j) : (s.task u).conn = some j := by
    by_cases hut : u = t
    · rw [hut, hself, hconn] at hu
      cases hu
    · rwa [hne hut] at hu
  refine ⟨fun u v j hu hv => h.excl u v j (hconn' hu) (hconn' hv), h.tag, fun u => ?_, fun u => ?_, h.sends,
    h.serverSends⟩
  · by_cases hut : u = t
    · rw [hut, hself]
      cases q <;> trivial
    · rw [hne hut]
      exact h.phase u
  · by_cases hut : u = t
    · rw [hut, hself]
      exact hdone
    · rw [hne hut]
      exact h.done u

theorem finish {n : Nat} {ret : MbIpcStatus} {call : SvrCall} (hdone : ∀ r ∈ call.done, s.Answered r)
    (hr : s.Answered ⟨i, n, ret⟩) : (s.finish t i n ret call).PortInv := by
  have hsends : ∀ r ∈ s.sends ++ [⟨i, n, ret⟩], s.Answered r := by
    intro r hmem
    rcases List.mem_append.1 hmem with hmem | hmem
    · exact h.sends r hmem
    · rw [List.mem_singleton.1 hmem]
      exact hr
  have hall : ∀ r ∈ call.done ++ [⟨i, n, ret⟩], s.Answered r := by
    intro r hmem
    rcases List.mem_append.1 hmem with hmem | hmem
    · exact hdone r hmem
    · rw [List.mem_singleton.1 hmem]
      exact hr
  cases call with
  | one args =>
    have hidle : (s.setTask t .idle).PortInv := h.rest rfl nofun
    exact { hidle with sends := hsends }
  | all args done =>
    simp only [SvrPort.finish]
    split
    · have hnext : (s.setTask t (.called (.all args (done ++ [⟨i, n, ret⟩])) (i + 1))).PortInv := h.rest rfl hall
      exact { hnext with sends := hsends }
    · have hidle : (s.setTask t .idle).PortInv := h.rest rfl nofun
      refine { hidle with sends := hsends, serverSends := fun c hc hok => ?_ }
      rcases List.mem_append.1 hc with hc | hc
      · exact h.serverSends c hc hok
      · rw [List.mem_singleton.1 hc] at hok ⊢
        dsimp only at hok
        split at hok
        next hany =>
          obtain ⟨r, hr, hret⟩ := List.any_eq_true.1 hany
          have hret := of_decide_eq_true hret
          exact ⟨r, hr, hret, hall r hr hret⟩
        next => cases hok

theorem start {call : SvrCall} (ht : s.task t = .called call i)
    (hok : (s.sock i).txInProcess = false → s.NoSend i) : (s.start t call i).PortInv := by
  have hdone : ∀ r ∈ call.done, s.Answered r := by
    have := h.done t
    rwa [ht] at this
  unfold SvrPort.start
  split
  next b hb =>
    obtain ⟨htx, hbeq⟩ := MbIpcSocket.sendStart_txOk hb
    have hself : ((s.setSock i b).setTask t (.started call i)).sock i = b := update_self ..
    refine h.move (fun u _ => hok htx u) (fun j hj => update_of_ne hj ..) (fun _ _ => rfl) ?_ rfl
      (Nat.le_refl _) rfl rfl rfl (fun j hj => (Option.some.inj hj).symm) hdone ?_
    · rw [hself, hbeq]
      exact h.tag i
    · simp only [Phase, hself]
      rw [hbeq]
      exact htx
  next ret _ hret _ => exact h.finish hdone fun hok => absurd hok hret

theorem tx {call : SvrCall} (ht : s.task t = .cleared call i) (status : IpcRouteStatus) :
    (s.tx t call i status).PortInv := by
  have hph := h.phase t
  have hdone := h.done t
  have hconn : (s.task t).conn = some i := by rw [ht]; rfl
  rw [ht] at hph hdone
  have hsock : (s.sent i status).sock i = txSocket (s.sock i) status := update_self ..
  have hatt : (s.sent i status).attempts i = s.attempts i + 1 := update_self ..
  have htag : ((s.sent i status).sock i).txTag = tagOf ((s.sent i status).attempts i) := by
    rw [hsock, hatt, tagOf_succ, ← h.tag i]
    cases status <;> rfl
  have hst : ((s.sent i status).sock i).txStatus = (s.sock i).txStatus := by
    rw [hsock]
    cases status <;> rfl
  simp only [SvrPort.tx]
  split
  next hs =>
    refine h.move (h.other hconn) (fun j hj => update_of_ne hj ..) (fun j hj => update_of_ne hj ..)
      htag rfl (Nat.le_refl _) rfl rfl rfl (fun j hj => (Option.some.inj hj).symm) hdone ⟨hatt.symm, fun hpos hok => ?_⟩
    exact absurd (hst.symm.trans hok) (hph.2 hpos)
  next hs =>
    have htx : ((s.sent i status).sock i).txInProcess = false := by
      rw [hsock]
      cases status with
      | statusOk => exact absurd rfl hs
      | unreachable => exact hph.1
      | queueFull | unsolicitedRsp | unmatchedRsp | rxBusy => rfl
    have hsent : (s.sent i status).PortInv := by
      refine h.move (h.other hconn) (fun j hj => update_of_ne hj ..) (fun j hj => update_of_ne hj ..)
        htag rfl (Nat.le_refl _) rfl rfl (update_eq_self t s.task).symm (fun j hj => ?_) (h.done t) ?_
      · rw [hconn] at hj
        exact (Option.some.inj hj).symm
      · rw [ht]
        exact ⟨htx, fun hpos => hst ▸ hph.2 hpos⟩
    exact hsent.finish hdone nofun

theorem advance (hconn : (s.task t).conn = some i) (hq : q.conn = some i)
    (hdone : q.done = (s.task t).done) {k : Nat} (hk : k ≤ s.sema) (hphase : Phase { s with sema := k } q) :
    ({ s with sema := k }.setTask t q).PortInv := by
  refine h.move (h.other hconn) (fun _ _ => rfl) (fun _ _ => rfl) (h.tag i) rfl hk rfl rfl rfl (fun j hj => ?_)
    (fun r hr => h.done t r (hdone ▸ hr)) hphase
  exact Option.some.inj (hj.symm.trans hq)

theorem step {a : SvrAct T} (hok : OwnPosts s a) (hs : s.step a = some s') : s'.PortInv := by
  cases a with
  | send t i args | serverSend t i args =>
    simp only [SvrPort.step] at hs
    split at hs
    next => cases hs; exact h.rest rfl nofun
    next => cases hs
  | start t =>
    simp only [SvrPort.step, OwnPosts] at hs hok
    split at hs
    next call i ht => cases hs; rw [ht] at hok; exact h.start ht (hok i rfl)
    next => cases hs
  | clear t =>
    simp only [SvrPort.step] at hs
    split at hs
    next call i ht =>
      cases hs
      have hph := h.phase t
      rw [ht] at hph
      refine h.advance (by rw [ht]; rfl) rfl (by rw [ht]; rfl) (Nat.sub_le ..) ⟨hph, fun hpos => ?_⟩
      have hle : s.sema ≤ 1 := hok
      have hpos : 0 < s.sema - 1 := hpos
      omega
    next => cases hs
  | tx t status =>
    simp only [SvrPort.step] at hs
    split at hs
    next call i ht => cases hs; exact h.tx ht status
    next => cases hs
  | get t =>
    simp only [SvrPort.step] at hs
    split at hs
    next call i n ht =>
      split at hs
      next hpos =>
        cases hs
        have hph := h.phase t
        rw [ht] at hph
        exact h.advance (by rw [ht]; rfl) rfl (by rw [ht]; rfl) (Nat.sub_le ..) ⟨hph.1, hph.2 hpos⟩
      next => cases hs
    next => cases hs
  | ret t =>
    simp only [SvrPort.step] at hs
    split at hs
    next call i n ht =>
      cases hs
      have hph := h.phase t
      have hdone := h.done t
      rw [ht] at hph hdone
      exact h.finish hdone hph.2
    next => cases hs
  | timeout t =>
    simp only [SvrPort.step] at hs
    split at hs
    next call i n ht =>
      split at hs
      next =>
        cases hs
        exact h.advance (by rw [ht]; rfl) rfl (by rw [ht]; rfl) (Nat.le_refl _) trivial
      next => cases hs
    next => cases hs
  | leave t =>
    simp only [SvrPort.step] at hs
    split at hs
    next call i n ht =>
      cases hs
      have hdone := h.done t
      rw [ht] at hdone
      have hk : (s.sock i).TxKept { s.sock i with txInProcess := false } false := ⟨rfl, fun _ => rfl, rfl⟩
      exact finish (h.kept hk nofun) hdone nofun
    next => cases hs
  | rxCmd i c status =>
    cases hs
    by_cases hc : c.cmd = .connect
    · obtain ⟨hpost, htag⟩ := (s.sock i).rxCmdHandler_connect hc
      have hset := h.reset (a := _) (htag status) (hok.2 hc)
      simp only [SvrPort.rxCmd, hpost]
      exact hset
    · exact h.kept (((s.sock i).txKept_rxCmdHandler hc).txRsp _ status) hok.1
  | accept i srcCpu srcPort =>
    simp only [SvrPort.step] at hs
    split at hs
    next => cases hs; exact h.reset rfl hok
    next => cases hs
  | rxRsp i rsp n =>
    simp only [SvrPort.step] at hs
    split at hs
    next hn => cases hs; exact h.rxRsp hn.1 hn.2 hok
    next => cases hs
  | txCmpl i ack => cases hs; exact h.kept ((s.sock i).txKept_txCmplHandler ack) hok
  | recvAsync i buffLen crc8 status =>
    cases hs
    exact h.kept (((s.sock i).txKept_mbIpcRecvAsync buffLen crc8).txRsp _ status) nofun

end PortInv
end SvrPort

structure SvrPort.Fresh {T : Type} (s : SvrPort T) : Prop where
  task : ∀ t, s.task t = .idle
  tag : ∀ i, (s.sock i).txTag = tagOf (s.attempts i)
  sends : s.sends = []
  serverSends : s.serverSends = []

theorem SvrPort.Fresh.portInv {T : Type} {s : SvrPort T} (h : s.Fresh) : s.PortInv := by
  refine ⟨fun t u i ht => ?_, h.tag, fun t => ?_, fun t => ?_, ?_, ?_⟩
  · rw [h.task t] at ht
    cases ht
  · rw [h.task t]
    trivial
  · rw [h.task t]
    nofun
  · rw [h.sends]
    nofun
  · rw [h.serverSends]
    nofun

/-- If completions do not meet sends of another connection, a send that returns 0 was answered on its connection, and so
was one of the sends of an `mb_ipc_server_send` that returns 0. -/
theorem server_send_ok_answered {T : Type} [DecidableEq T] {s₀ s : SvrPort T} (h₀ : s₀.Fresh)
    (hr : Run SvrPort.step OwnPosts s₀ s) :
    (∀ r ∈ s.sends, r.ret = .txOk → (r.conn, r.num) ∈ s.answers) ∧
    (∀ c ∈ s.serverSends, c.2 = .txOk → ∃ r ∈ c.1, r.ret = .txOk ∧ (r.conn, r.num) ∈ s.answers) := by
  have h : s.PortInv := hr.invariant h₀.portInv fun _ _ _ _ h hok hs => h.step hok hs
  exact ⟨h.sends, h.serverSends⟩

def SvrPort.twoClients : SvrPort (Fin 2) where
  sock i := { allocated := true, connected := i.val < 2, dstPort := if i.val < 2 then 16 + i.val else 0, dstCpu := 0,
              srcPort := 1, srcCpu := 1 }

def okRsp (n : BitVec 8) : MbIpcCmd := { cmd := .send, rsp := true, tag := n }

theorem server_send_ok_answered_one : ∃ s, Run SvrPort.step OwnPosts SvrPort.twoClients s ∧
    s.serverSends = [([⟨0, 1, .txOk⟩, ⟨1, 1, .txTimeout⟩, ⟨2, 0, .invalidState⟩], .txOk)] ∧
    ∀ c ∈ s.serverSends, c.2 = .txOk → ∃ r ∈ c.1, r.ret = .txOk ∧ (r.conn, r.num) ∈ s.answers := by
  refine Run.of_exec_and [.serverSend 0 0 {}, .start 0, .clear 0, .tx 0 .statusOk, .rxRsp 0 (okRsp 1) 1, .get 0, .ret 0,
    .start 0, .clear 0, .tx 0 .statusOk, .timeout 0, .leave 0, .start 0] (by decide) fun s hr _ => ?_
  exact (server_send_ok_answered ⟨fun _ => rfl, fun _ => rfl, rfl, rfl⟩ hr).2

/-- The answer to task 0 on connection 0 wakes task 1, which sends on connection 1 and finds the 0 that was there from
the start. -/
theorem server_send_ok_unanswered : ∃ s, Run SvrPort.step (fun _ _ => True) SvrPort.twoClients s ∧
    s.serverSends = [([⟨0, 0, .txBusy⟩, ⟨1, 1, .txOk⟩, ⟨2, 0, .invalidState⟩], .txOk)] ∧ s.answers = [(0, 1)] :=
  Run.of_exec [.serverSend 0 0 {}, .start 0, .clear 0, .tx 0 .statusOk, .serverSend 1 0 {}, .start 1, .start 1,
    .clear 1, .tx 1 .statusOk, .rxRsp 0 (okRsp 1) 1, .get 1, .ret 1, .start 1] (by decide)

end Bk7258

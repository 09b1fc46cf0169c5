import Bk7258.MbIpc.Ends

/-!
# Two sockets that are handed each other's packets

The simplest medium, with nothing between the two sockets. Ports are compared and never the numbers of CPUs, so that
these functions commute with forgetting the numbers.
-/

namespace Bk7258
open Function

def MbIpcSocket.answered (a : MbIpcSocket) : MbIpcSocket :=
  { a with
    rxCmd := a.rspCmd
    rxInProcess := false
    dstCpu := if a.rxCmd.cmd = .disconnect then 0 else a.dstCpu
    dstPort := if a.rxCmd.cmd = .disconnect then 0 else a.dstPort }

theorem MbIpcSocket.answered_erase (a : MbIpcSocket) : a.erase.answered = a.answered.erase := by
  by_cases hcmd : a.rxCmd.cmd = .disconnect
  · simp [answered, erase, MbIpcCmd.erase, rspCmd, setAddr, hcmd]
  · simp [answered, erase, MbIpcCmd.erase, rspCmd, setAddr, hcmd]

structure Duo where
  sock : Bool → MbIpcSocket
  sema : Bool → Nat
  rxSema : Bool → Nat

namespace Duo
variable (d : Duo) (e : Bool)

def set (a : MbIpcSocket) : Duo := { d with sock := update d.sock e a }

def post : Duo := { d with sema := update d.sema e (d.sema e + 1) }
def get : Duo := { d with sema := update d.sema e (d.sema e - 1) }
def rxPost : Duo := { d with rxSema := update d.rxSema e (d.rxSema e + 1) }
def rxGet : Duo := { d with rxSema := update d.rxSema e (d.rxSema e - 1) }

def rxRsp (rsp : MbIpcCmd) : Duo :=
  let r := (d.sock e).rxRspHandler rsp
  let d := d.set e r.2.1
  if r.2.2 then d.post e else d

/-- `e` answers its command, and its peer gets the response if the two are bound to each other. -/
def txRsp : Duo :=
  let rsp := (d.sock e).rspCmd
  let d' := d.set e (d.sock e).answered
  if rsp.dstPort = (d.sock !e).srcPort ∧ (d.sock !e).dstPort = rsp.srcPort then d'.rxRsp (!e) rsp else d'

def rxCmdOn (c : MbIpcCmd) : IpcRouteStatus × Duo :=
  let (status, r) := (d.sock e).rxCmdHandler c
  let d := d.set e r.socket
  let d := if r.post then d.post e else d
  let d := if r.rsp then d.txRsp e else d
  (status, if r.notify then d.rxPost e else d)

def accept (c : MbIpcCmd) : Duo :=
  d.set e { d.sock e with
    dstCpu := c.srcCpu
    dstPort := c.srcPort
    txInProcess := false
    rxInProcess := false
    txStatus := .txOk
    rxReadOffset := 0 }

/-- A command is looked at with `e` as the only socket that it may be for. -/
def rxCmd (c : MbIpcCmd) : IpcRouteStatus × Duo :=
  if c.dstPort ≠ (d.sock e).srcPort then (.unreachable, d)
  else if (d.sock e).dstPort = c.srcPort then d.rxCmdOn e c
  else if c.cmd = .connect ∧ isServerPort (d.sock e).srcPort ∧ (d.sock e).allocated then (d.accept e c).rxCmdOn e c
  else (.unreachable, d)

def refuse (status : IpcRouteStatus) : Duo :=
  if status = .statusOk then d
  else (d.set e { d.sock e with txStatus := .routeFailed status, txInProcess := false }).post e

def txCmd : Duo :=
  let r := (d.set e ((d.sock e).txCmdTo .statusOk)).rxCmd (!e) (d.sock e).nextCmd
  r.2.refuse e r.1

def medium (port : Bool → IpcPort) (cpu : Bool → Nat) : IpcMedium Duo where
  port := port
  cpu := cpu
  sock := sock
  setSock := set
  sema := sema
  get := get
  rxSema := rxSema
  rxGet := rxGet
  txCmd := fun d e => (.statusOk, d.txCmd e)
  txRsp := txRsp

def init (port : Bool → IpcPort) (cpu : Bool → Nat) : Duo where
  sock := fun e => { srcPort := (port e).num, srcCpu := cpu e, allocated := true }
  sema := fun _ => 0
  rxSema := fun _ => 0

def erase : Duo := { d with sock := fun e => (d.sock e).erase }

theorem erase_set (a : MbIpcSocket) : (d.set e a).erase = d.erase.set e a.erase := by
  simp only [erase, set, Duo.mk.injEq, and_true]
  exact funext fun j => apply_update (fun _ => MbIpcSocket.erase) d.sock e a j

theorem erase_post : (d.post e).erase = d.erase.post e := rfl

theorem erase_rxRsp (rsp : MbIpcCmd) : (d.rxRsp e rsp).erase = d.erase.rxRsp e rsp.erase := by
  simp only [rxRsp, apply_ite erase, erase_post, erase_set]
  rw [show d.erase.sock e = (d.sock e).erase from rfl, MbIpcSocket.rxRspHandler_erase]
  rfl

theorem erase_txRsp : (d.txRsp e).erase = d.erase.txRsp e := by
  simp only [txRsp, apply_ite erase, erase_rxRsp, erase_set, ← MbIpcSocket.answered_erase]
  rfl

theorem erase_rxPost : (d.rxPost e).erase = d.erase.rxPost e := rfl

theorem erase_rxCmdOn (c : MbIpcCmd) : (d.rxCmdOn e c).map id erase = d.erase.rxCmdOn e c.erase := by
  simp only [rxCmdOn, Prod.map, apply_ite erase, erase_rxPost, erase_txRsp, erase_post, erase_set]
  rw [show d.erase.sock e = (d.sock e).erase from rfl, MbIpcSocket.rxCmdHandler_erase]
  rfl

theorem erase_accept (c : MbIpcCmd) : (d.accept e c).erase = d.erase.accept e c.erase := by
  simp only [accept, erase_set]
  rfl

theorem erase_rxCmd (c : MbIpcCmd) : (d.rxCmd e c).map id erase = d.erase.rxCmd e c.erase := by
  simp only [rxCmd, apply_ite (Prod.map id erase), erase_rxCmdOn, erase_accept]
  rfl

theorem erase_refuse (st : IpcRouteStatus) : (d.refuse e st).erase = d.erase.refuse e st := by
  simp only [refuse, apply_ite erase, erase_post, erase_set]
  rfl

theorem erase_txCmd : (d.txCmd e).erase = d.erase.txCmd e := by
  simp only [txCmd, erase_refuse]
  rw [show d.erase.sock e = (d.sock e).erase from rfl, MbIpcSocket.nextCmd_erase,
    MbIpcSocket.txCmdTo_erase, ← erase_set,
    ← erase_rxCmd]
  rfl

end Duo

theorem MbIpcSocket.Addressed.answered {a : MbIpcSocket} {port peer : IpcPort} {cpu peerCpu : Nat}
    (h : a.Addressed port peer cpu peerCpu) : a.answered.Addressed port peer cpu peerCpu := by
  refine ⟨h.src, ?_, h.txCmd⟩
  by_cases hcmd : a.rxCmd.cmd = .disconnect
  · exact .inl ⟨if_pos hcmd, if_pos hcmd⟩
  · simp only [MbIpcSocket.answered, hcmd, if_false]
    exact h.dst

/-! ## What a packet leaves as it is -/

namespace Duo
variable {d : Duo} {e : Bool}

@[simp] theorem set_self (a : MbIpcSocket) : (d.set e a).sock e = a := update_self ..

theorem set_of_ne {e' : Bool} (h : e' ≠ e) (a : MbIpcSocket) : (d.set e a).sock e' = d.sock e' := update_of_ne h ..

@[simp] theorem set_peer (a : MbIpcSocket) : (d.set e a).sock (!e) = d.sock !e := set_of_ne (by simp) a

@[simp] theorem set_not (a : MbIpcSocket) : (d.set (!e) a).sock e = d.sock e := set_of_ne (by simp) a

@[simp] theorem set_set (a b : MbIpcSocket) : (d.set e a).set e b = d.set e b := by
  simp only [set, update_idem]

theorem set_comm (a b : MbIpcSocket) : (d.set e a).set (!e) b = (d.set (!e) b).set e a := by
  simp only [set, update_comm (show e ≠ !e by simp)]

def Told (d d' : Duo) (e : Bool) : Prop := ∃ st tx, d'.sock e = { d.sock e with txStatus := st, txInProcess := tx }

theorem Told.of_eq {d' : Duo} (h : d'.sock e = d.sock e) : Told d d' e := ⟨_, _, h⟩

theorem Told.refl (d : Duo) (e : Bool) : Told d d e := .of_eq rfl

theorem rxRsp_self (rsp : MbIpcCmd) : Told d (d.rxRsp e rsp) e := by
  have hset : Told d (d.set e ((d.sock e).rxRspHandler rsp).2.1) e := by
    rcases (d.sock e).rxRspHandler_cases rsp with ⟨st, he⟩ | ⟨st, he, -⟩
    · rw [he]
      exact ⟨_, _, set_self _⟩
    · rw [he]
      exact ⟨_, _, set_self _⟩
  unfold rxRsp
  dsimp only
  split
  · exact hset
  · exact hset

theorem rxRsp_peer (rsp : MbIpcCmd) : (d.rxRsp (!e) rsp).sock e = d.sock e := by
  unfold rxRsp
  dsimp only
  split
  · exact set_not _
  · exact set_not _

theorem rxRsp_set (rsp : MbIpcCmd) (a : MbIpcSocket) : (d.set e a).rxRsp (!e) rsp = (d.rxRsp (!e) rsp).set e a := by
  simp only [rxRsp, set_peer, set_comm]
  split
  · rfl
  · rfl

theorem txRsp_self : (d.txRsp e).sock e = (d.sock e).answered := by
  unfold txRsp
  dsimp only
  split
  · rw [rxRsp_peer, set_self]
  · exact set_self _

theorem txRsp_peer : Told d (d.txRsp e) (!e) := by
  unfold txRsp
  dsimp only
  split
  · obtain ⟨st, tx, he⟩ := rxRsp_self (d := d.set e (d.sock e).answered) (e := !e) (d.sock e).rspCmd
    rw [set_peer] at he
    exact ⟨st, tx, he⟩
  · exact .of_eq (set_peer _)

variable {port peer : IpcPort} {cpu peerCpu : Nat} {c : MbIpcCmd}

theorem rxCmdOn_sock (d : Duo) (e : Bool) (c : MbIpcCmd) : ∃ d₁ : Duo,
    d₁.sock = (d.set e ((d.sock e).rxCmdHandler c).2.socket).sock ∧
    ((d.rxCmdOn e c).2.sock = d₁.sock ∨ (d.rxCmdOn e c).2.sock = (d₁.txRsp e).sock) := by
  refine ⟨if ((d.sock e).rxCmdHandler c).2.post then (d.set e ((d.sock e).rxCmdHandler c).2.socket).post e
    else d.set e ((d.sock e).rxCmdHandler c).2.socket, ?_, ?_⟩
  · split
    · rfl
    · rfl
  · simp only [rxCmdOn]
    cases ((d.sock e).rxCmdHandler c).2.rsp with
    | false => exact .inl (by split <;> rfl)
    | true => exact .inr (by split <;> rfl)

theorem rxCmdOn_self (h : (d.sock e).Addressed port peer cpu peerCpu) :
    ((d.rxCmdOn e c).2.sock e).Addressed port peer cpu peerCpu := by
  have hr := h.rxCmdHandler c
  obtain ⟨d₁, h₁, he | he⟩ := rxCmdOn_sock d e c
  · rw [he, h₁, set_self]
    exact hr
  · rw [he, txRsp_self, h₁, set_self]
    exact hr.answered

theorem rxCmdOn_peer : Told d (d.rxCmdOn e c).2 (!e) := by
  obtain ⟨d₁, h₁, he | he⟩ := rxCmdOn_sock d e c
  · exact .of_eq (by rw [he, h₁, set_peer])
  · obtain ⟨st, tx, hp⟩ := txRsp_peer (d := d₁) (e := e)
    refine ⟨st, tx, ?_⟩
    rw [he, hp, h₁, set_peer]

theorem rxCmd_self (h : (d.sock e).Addressed port peer cpu peerCpu) (hc : c.srcPort = peer.num ∧ c.srcCpu = peerCpu) :
    ((d.rxCmd e c).2.sock e).Addressed port peer cpu peerCpu := by
  unfold rxCmd
  split_ifs
  · exact h
  · exact rxCmdOn_self h
  · refine rxCmdOn_self ?_
    rw [accept, set_self]
    exact ⟨h.src, .inr hc, h.txCmd⟩
  · exact h

theorem rxCmd_peer : Told d (d.rxCmd e c).2 (!e) := by
  unfold rxCmd
  split_ifs
  · exact .refl d _
  · exact rxCmdOn_peer
  · obtain ⟨st, tx, he⟩ := rxCmdOn_peer (d := d.accept e c) (e := e) (c := c)
    rw [accept, set_peer] at he
    exact ⟨st, tx, he⟩
  · exact .refl d _

end Duo

end Bk7258

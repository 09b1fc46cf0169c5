import Bk7258.MbIpc.Data
import Bk7258.MbIpc.PairInv

/-!
# What a send that returns 0 has delivered

The connection of `IpcPair` with the memory of the sender, `mb_ipc_send` with its buffer, and `mb_ipc_recv`. `sent n` is
the call that command `n` was sent for, and `got` what the receiver has read, with the number of the command. `data_len`
is a `u32`, and the packet has 16 bits for it. Nothing is said of a command whose call has timed out.
-/

namespace Bk7258
open Lts PairMsg Function

structure SendCall where
  mem : IpcMem := fun _ => 0
  buff : BitVec 32 := 0
  dataLen : BitVec 32 := 0

def SendCall.data (d : SendCall) : List (BitVec 8) := d.mem.read d.buff d.dataLen.toNat

/-- `mb_ipc_recv` into a buffer of `buffLen` bytes; `wantsCmd` says that `user_cmd` is not `NULL`. -/
inductive RecvTask
  | idle
  | call (buffLen : Nat) (wantsCmd : Bool)
  | wait (buffLen : Nat) (wantsCmd : Bool)
deriving DecidableEq, Repr

structure DataPair where
  pair : IpcPair
  mem : IpcMem
  cur : SendCall := {}
  sent : Nat → SendCall := fun _ => {}
  recvTask : RecvTask := .idle
  rxSema : Nat := 0
  got : List (Nat × List (BitVec 8)) := []

inductive DataAct
  | send (userCmd : BitVec 8) (buff dataLen : BitVec 32)
  | pair (a : PairAct)
  | recv (buffLen : Nat) (wantsCmd : Bool)
  | recvAsync (full : Bool)
  | rxGet
  | rxGiveUp
  | write (mem : IpcMem)

def PairAct.hasData : PairAct → Bool
  | .send .. | .recv .. => true
  | _ => false

def PairAct.isTx : PairAct → Bool
  | .tx _ => true
  | _ => false

namespace DataPair
variable (semaNotify : Bool) (s : DataPair)

def obtained (n : Nat) : List (BitVec 8) := ((s.got.filter fun g => g.1 = n).map (·.2)).flatten

def afterRecv (buffLen : Nat) (wantsCmd : Bool) (ret : Except MbIpcStatus Nat) (userCmd : BitVec 8) : RecvTask :=
  if recvWaits semaNotify wantsCmd ret userCmd then .wait buffLen wantsCmd else .idle

/-- A step of the connection. A command that is passed to the application posts `rx_notify_sema`. -/
def stepPair (a : PairAct) : Option DataPair :=
  if a.hasData then none
  else (s.pair.step a).map fun q => { s with
    pair := q
    sent := if a.isTx then update s.sent q.attempts s.cur else s.sent
    rxSema := if semaNotify && s.pair.delivered.length < q.delivered.length then s.rxSema + 1 else s.rxSema }

def recvAsync (buffLen : Nat) (wantsCmd full : Bool) : DataPair :=
  let srv := s.pair.server
  { s with
    pair := s.pair.recv buffLen (srv.recvCrc8 s.mem) full
    recvTask := afterRecv semaNotify buffLen wantsCmd (srv.recvData s.mem buffLen).ret srv.recvUserCmd
    got := s.got ++ [(s.pair.accepted, srv.recvChunk s.mem buffLen)] }

def step : DataAct → Option DataPair
  | .send userCmd buff dataLen =>
    if s.pair.task = .idle then
      match s.pair.client.sendData s.mem userCmd buff dataLen with
      | (.txOk, c) => some { s with
          pair := { s.pair with client := c, task := .started }
          cur := ⟨s.mem, buff, dataLen⟩ }
      | _ => some s
    else none
  | .pair a => s.stepPair semaNotify a
  | .recv buffLen wantsCmd => if s.recvTask = .idle then some { s with recvTask := .call buffLen wantsCmd } else none
  | .recvAsync full => match s.recvTask with
    | .call buffLen wantsCmd => some (s.recvAsync semaNotify buffLen wantsCmd full)
    | _ => none
  | .rxGet => match s.recvTask with
    | .wait buffLen wantsCmd =>
      if 0 < s.rxSema then some { s with rxSema := s.rxSema - 1, recvTask := .call buffLen wantsCmd } else none
    | _ => none
  | .rxGiveUp => match s.recvTask with
    | .wait _ _ => some { s with recvTask := .idle }
    | _ => none
  | .write mem => some { s with mem := mem }

end DataPair

/-- `data_len` fits into the packet, the tags are fresh, the receiver has buffers, and the sender's buffer stays as it
is while the call lasts. -/
def DataOk (s : DataPair) : DataAct → Prop
  | .send _ _ dataLen => dataLen.toNat ≤ 65535
  | .pair a => TagFresh s.pair a
  | .recv buffLen _ => 0 < buffLen
  | .write mem => s.pair.task ≠ .idle → mem.read s.cur.buff s.cur.dataLen.toNat =
    s.mem.read s.cur.buff s.cur.dataLen.toNat
  | .recvAsync _ | .rxGet | .rxGiveUp => True

instance (s : DataPair) : ∀ a, Decidable (DataOk s a)
  | .send _ _ _ => inferInstanceAs (Decidable (_ ≤ _))
  | .pair a => inferInstanceAs (Decidable (TagFresh s.pair a))
  | .recv _ _ => inferInstanceAs (Decidable (_ < _))
  | .write _ => inferInstanceAs (Decidable (_ → _))
  | .recvAsync _ | .rxGet | .rxGiveUp => .isTrue trivial

/-! ## Calls and packets -/

def PairTask.filled : PairTask → Bool
  | .started | .cleared => true
  | _ => false

def PairTask.inCall : PairTask → Bool
  | .waiting | .woken | .timedOut => true
  | _ => false

theorem PairTask.ne_idle {t : PairTask} (h : t.filled ∨ t.inCall) : t ≠ .idle := by
  rintro rfl
  rcases h with h | h <;> cases h

structure Carries (c : MbIpcCmd) (d : SendCall) : Prop where
  fits : d.dataLen.toNat < 0x10000
  len : c.cmdDataLen = d.dataLen.toNat
  buff : c.cmdDataBuff = d.buff
  crc : c.cmdDataCrc8 = crc8Of d.data

@[simp] theorem SendCall.length_data (d : SendCall) : d.data.length = d.dataLen.toNat := IpcMem.length_read _

namespace MbIpcSocket
variable {a c : MbIpcSocket} {mem : IpcMem} {userCmd : BitVec 8} {buff dataLen : BitVec 32}

theorem sendData_txOk (h : a.sendData mem userCmd buff dataLen = (.txOk, c)) : a.txInProcess = false ∧
    c = { a with txCmd := { cmd := .send, userCmd := userCmd, cmdDataLen := dataLen.toNat % 0x10000,
                            cmdDataCrc8 := calCrc8 mem buff dataLen.toNat, cmdDataBuff := buff } } := by
  unfold sendData at h
  rcases a.sendStart_cases userCmd (dataLen.toNat % 0x10000)
    (calCrc8 mem buff dataLen.toNat) with ⟨st, hst, he⟩ | ⟨htx, he⟩
  · rw [he] at h
    split at h
    next heq => exact absurd (Prod.ext_iff.1 heq).1 hst
    next => exact absurd (Prod.ext_iff.1 h).1 hst
  · rw [he] at h
    exact ⟨htx, (Prod.ext_iff.1 h).2.symm⟩

theorem carries_sendData (hfits : dataLen.toNat ≤ 65535) (h : a.sendData mem userCmd buff dataLen = (.txOk, c)) :
    Carries c.txCmd ⟨mem, buff, dataLen⟩ := by
  obtain ⟨-, rfl⟩ := sendData_txOk h
  have hlt : dataLen.toNat < 0x10000 := by omega
  refine ⟨hlt, Nat.mod_eq_of_lt hlt, rfl, ?_⟩
  show calCrc8 mem buff dataLen.toNat = _
  rw [calCrc8, Nat.mod_eq_of_lt hlt]
  rfl

theorem mbIpcRecvAsync_quiet {len : Nat} {crc8 : BitVec 8} (h : (a.mbIpcRecvAsync len crc8).rsp = false) :
    (a.mbIpcRecvAsync len crc8).socket.rxCmd = a.rxCmd := by
  have hif {q : Prop} [Decidable q] {x y : RecvRet} (hx : x.rsp = false → x.socket.rxCmd = a.rxCmd)
      (hy : y.rsp = false → y.socket.rxCmd = a.rxCmd) :
      (if q then x else y).rsp = false → (if q then x else y).socket.rxCmd = a.rxCmd := by
    split
    · exact hx
    · exact hy
  revert h
  unfold mbIpcRecvAsync
  exact hif (fun _ => rfl) (hif (fun _ => rfl) (hif (fun _ => rfl) (hif (fun _ => rfl) (hif nofun (hif nofun (hif nofun
    (hif nofun fun _ => rfl)))))))

theorem Reading.of_carries {d : SendCall} (hsock : a.allocated ∧ a.connected)
    (hrx : a.rxInProcess ∧ a.rxCmd.rsp = false ∧ a.rxCmd.cmd = .send) (hcarries : Carries a.rxCmd d)
    (hmem : mem.read d.buff d.dataLen.toNat = d.data) (hapi : a.rxCmd.apiImplStatus = .statusOk) :
    a.Reading mem d.data where
  socket := hsock
  rx := hrx
  len := by rw [d.length_data]; exact ⟨hcarries.len, hcarries.fits⟩
  data := by rw [d.length_data, hcarries.buff]; exact hmem
  crc := hcarries.crc
  status := hapi

end MbIpcSocket

/-! ## The invariant -/

namespace DataPair
variable (s : DataPair)

/-- The last command is the one that the server has taken, and its call has not returned. -/
def Current : Prop := s.pair.task.inCall = true ∧ s.pair.accepted = s.pair.attempts

structure Complete (n : Nat) : Prop where
  data : s.obtained n = (s.sent n).data
  le : n ≤ s.pair.accepted
  closed : n = s.pair.accepted → s.pair.server.rxInProcess = true → s.pair.server.rxCmd.rsp = true

structure DataInv (p : Nat) : Prop where
  pair : s.pair.PairInv p
  cmds : ∀ m ∈ pkts s.pair.c2s ++ s.pair.queue, Carries m.pkt (s.sent m.num)
  filled : s.pair.task.filled = true → Carries s.pair.client.txCmd s.cur
  keeps : s.pair.task ≠ .idle → s.mem.read s.cur.buff s.cur.dataLen.toNat = s.cur.data
  call : s.pair.task.inCall = true → s.sent s.pair.attempts = s.cur
  busy : s.pair.client.txInProcess = true → s.pair.task.inCall = true ∧ s.pair.task ≠ .woken
  rx : s.pair.server.rxInProcess = true → s.pair.server.rxCmd.rsp = false →
    Carries s.pair.server.rxCmd (s.sent s.pair.accepted) ∧ s.pair.server.rxCmd.apiImplStatus = .statusOk ∧
    (s.Current → s.obtained s.pair.accepted = s.cur.data.take s.pair.server.rxReadOffset)
  answered : s.pair.server.rxInProcess = true → s.pair.server.rxCmd.rsp = true →
    s.pair.server.rxCmd.apiImplStatus = .statusOk → s.Current → s.obtained s.pair.accepted = s.cur.data
  rsps : ∀ m ∈ s.pair.sQueue ++ pkts s.pair.s2c, m.pkt.apiImplStatus = s.pair.server.rxCmd.apiImplStatus
  got : ∀ g ∈ s.got, g.1 ≤ s.pair.accepted
  buffLen : ∀ n w, s.recvTask = .call n w ∨ s.recvTask = .wait n w → 0 < n
  own : TaskPosted s.pair.task s.pair.sema → s.pair.client.txStatus = .txOk → s.Complete s.pair.attempts
  results : ∀ r ∈ s.pair.results, r.2 = .txOk → s.Complete r.1

variable {s} {s' : DataPair} {p : Nat} {q : IpcPair}

theorem obtained_of_lt (hgot : ∀ g ∈ s.got, g.1 ≤ s.pair.accepted) {n : Nat} (hlt : s.pair.accepted < n) :
    s.obtained n = [] := by
  have hnil : s.got.filter (fun g => g.1 = n) = [] := by
    rw [List.filter_eq_nil_iff]
    intro g hg
    have := hgot g hg
    simp only [decide_eq_true_eq]
    omega
  rw [obtained, hnil]
  rfl

theorem obtained_recv (n k : Nat) (chunk : List (BitVec 8)) (hs : s'.got = s.got ++ [(k, chunk)]) :
    s'.obtained n = s.obtained n ++ if n = k then chunk else [] := by
  rw [obtained, hs, List.filter_append, List.map_append, List.flatten_append, obtained]
  by_cases hn : n = k
  · simp [hn]
  · simp [hn, Ne.symm hn]

/-- A step that moves packets and the call, and neither adds a packet nor touches the command that is being read -/
structure Quiet (s : IpcPair) (q : IpcPair) : Prop where
  server : q.server = s.server
  numbers : q.attempts = s.attempts ∧ q.accepted = s.accepted
  txCmd : q.client.txCmd = s.client.txCmd
  cmds : ∀ m ∈ pkts q.c2s ++ q.queue, m ∈ pkts s.c2s ++ s.queue
  rsps : ∀ m ∈ q.sQueue ++ pkts q.s2c, m ∈ s.sQueue ++ pkts s.s2c
  filled : q.task.filled = true → s.task.filled = true
  inCall : q.task.inCall = true → s.task.inCall = true

theorem Complete.frame {n : Nat} (h : s.Complete n) (hgot : s'.got = s.got) (hsent : s'.sent n = s.sent n)
    (hserver : s'.pair.server = s.pair.server) (hacc : s'.pair.accepted = s.pair.accepted) : s'.Complete n := by
  refine ⟨?_, ?_, ?_⟩
  · rw [obtained, hgot, hsent]
    exact h.data
  · rw [hacc]
    exact h.le
  · rw [hacc, hserver]
    exact h.closed

theorem DataInv.frame (h : s.DataInv p) (hq : q.PairInv p) (hf : Quiet s.pair q)
    (hbusy : q.client.txInProcess → q.task.inCall ∧ q.task ≠ .woken)
    (hown : TaskPosted q.task q.sema → q.client.txStatus = .txOk → s.Complete s.pair.attempts)
    (hres : ∀ r ∈ q.results, r.2 = .txOk → s.Complete r.1) (k : Nat) : DataInv { s with pair := q, rxSema := k } p := by
  obtain ⟨hserver, ⟨hatt, hacc⟩, htxCmd, hcmds, hrsps, hfilled, hinCall⟩ := hf
  have hcurrent : Current { s with pair := q, rxSema := k } → s.Current := by
    rintro ⟨hcall, heq⟩
    exact ⟨hinCall hcall, by rw [← hacc, ← hatt]; exact heq⟩
  have htask : q.task ≠ .idle → s.pair.task ≠ .idle := by
    intro hne
    apply PairTask.ne_idle
    cases ht : q.task with
    | idle => exact absurd ht hne
    | started | cleared => exact .inl (hfilled (by rw [ht]; rfl))
    | waiting | woken | timedOut => exact .inr (hinCall (by rw [ht]; rfl))
  exact
    { h with
      pair := hq
      cmds := fun m hm => h.cmds m (hcmds m hm)
      filled := fun hf => by
        dsimp only
        rw [htxCmd]
        exact h.filled (hfilled hf)
      keeps := fun hne => h.keeps (htask hne)
      call := fun hc => by
        dsimp only
        rw [hatt]
        exact h.call (hinCall hc)
      busy := hbusy
      rx := by
        dsimp only
        rw [hserver, hacc]
        intro hrx hrsp
        obtain ⟨hcarries, hapi, hdata⟩ := h.rx hrx hrsp
        exact ⟨hcarries, hapi, fun hc => hdata (hcurrent hc)⟩
      answered := by
        dsimp only
        rw [hserver, hacc]
        exact fun hrx hrsp hapi hc => h.answered hrx hrsp hapi (hcurrent hc)
      rsps := fun m hm => by
        dsimp only
        rw [hserver]
        exact h.rsps m (hrsps m hm)
      got := fun g hg => by
        dsimp only
        rw [hacc]
        exact h.got g hg
      own := fun hp hst => by
        dsimp only
        rw [hatt]
        exact (hown hp hst).frame rfl rfl hserver hacc
      results := fun r hr hok => (hres r hr hok).frame rfl rfl hserver hacc }

theorem DataInv.frame_net (h : s.DataInv p) (hq : q.PairInv p) (hf : Quiet s.pair q)
    (hclient : q.client = s.pair.client)
    (htask : q.task = s.pair.task ∧ q.sema = s.pair.sema ∧ q.results = s.pair.results)
    (k : Nat) : DataInv { s with pair := q, rxSema := k } p := by
  obtain ⟨htask, hsema, hresults⟩ := htask
  refine h.frame hq hf ?_ ?_ ?_ k
  · rw [hclient, htask]
    exact h.busy
  · rw [hclient, htask, hsema]
    exact h.own
  · rw [hresults]
    exact h.results

/-! ### The steps -/

theorem DataInv.send (h : s.DataInv p) (htask : s.pair.task = .idle) {userCmd : BitVec 8} {buff dataLen : BitVec 32}
    (hfits : dataLen.toNat ≤ 65535) {c : MbIpcSocket}
    (hc : s.pair.client.sendData s.mem userCmd buff dataLen = (.txOk, c)) :
    DataInv { s with pair := { s.pair with client := c, task := .started }, cur := ⟨s.mem, buff, dataLen⟩ } p := by
  have hcarries := MbIpcSocket.carries_sendData hfits hc
  obtain ⟨htx, rfl⟩ := MbIpcSocket.sendData_txOk hc
  have ht := h.pair.task
  rw [htask] at ht
  have hq : IpcPair.PairInv { s.pair with
      client := { s.pair.client with
        txCmd := { cmd := .send, userCmd := userCmd, cmdDataLen := dataLen.toNat % 0x10000,
                   cmdDataCrc8 := calCrc8 s.mem buff dataLen.toNat, cmdDataBuff := buff } }
      task := .started } p :=
    ⟨h.pair.cmd, h.pair.rsp, ⟨ht.socket, ⟨htx, ⟨rfl, rfl, rfl, rfl⟩, ht.sema_le⟩,
      (fun hp => nomatch hp.waits), ht.results⟩, h.pair.resent⟩
  exact
    { h with
      pair := hq
      filled := fun _ => hcarries
      keeps := fun _ => rfl
      call := nofun
      busy := fun hb => by
        dsimp only at hb
        rw [htx] at hb
        cases hb
      rx := fun hrx hrsp => ⟨(h.rx hrx hrsp).1, (h.rx hrx hrsp).2.1, fun hcur => nomatch hcur.1⟩
      answered := fun _ _ _ hcur => nomatch hcur.1
      own := fun hp => nomatch hp.waits
      results := fun r hr hok => (h.results r hr hok).frame rfl rfl rfl rfl }

theorem Complete.update {n : Nat} (h : s.Complete n) (hp : s.pair.PairInv p) (hgot : s'.got = s.got)
    (hsent : s'.sent = update s.sent (s.pair.attempts + 1) s.cur) (hserver : s'.pair.server = s.pair.server)
    (hacc : s'.pair.accepted = s.pair.accepted) : s'.Complete n := by
  refine h.frame hgot ?_ hserver hacc
  have hle := h.le
  have hwin := hp.cmd.window.1
  rw [hsent, update_of_ne (by omega)]

theorem DataInv.tx (h : s.DataInv p) (htask : s.pair.task = .cleared)
    (hok : s.pair.attempts + 1 < s.pair.accepted + 256)
    (full : Bool) (k : Nat) : DataInv { s with
      pair := s.pair.txCmd full, sent := update s.sent (s.pair.attempts + 1) s.cur, rxSema := k } p := by
  have hq := h.pair.tx htask hok full
  have hwin := h.pair.cmd.window.1
  have hne : s.pair.accepted ≠ s.pair.attempts + 1 := by omega
  have hacc : update s.sent (s.pair.attempts + 1) s.cur s.pair.accepted = s.sent s.pair.accepted :=
    update_of_ne (by omega) ..
  have hold : ∀ m ∈ pkts s.pair.c2s ++ s.pair.queue,
      Carries m.pkt (update s.sent (s.pair.attempts + 1) s.cur m.num) := by
    intro m hm
    have hle := h.pair.cmd.le m (by simp only [List.mem_append] at hm ⊢; tauto)
    rw [update_of_ne (by omega)]
    exact h.cmds m hm
  have hfilled := h.filled (by rw [htask]; rfl)
  have hsema : s.pair.sema = 0 := by
    have ht := h.pair.task
    rw [htask] at ht
    exact ht.phase.2.2
  have hrx : ∀ hrx hrsp, Carries s.pair.server.rxCmd (update s.sent (s.pair.attempts + 1) s.cur s.pair.accepted) ∧
      s.pair.server.rxCmd.apiImplStatus = .statusOk :=
    fun hrx hrsp => ⟨hacc ▸ (h.rx hrx hrsp).1, (h.rx hrx hrsp).2.1⟩
  cases full with
  | true =>
    exact
      { h with
        pair := hq
        cmds := hold
        filled := nofun
        keeps := fun hne => absurd rfl hne
        call := nofun
        busy := nofun
        rx := fun h₁ h₂ => ⟨(hrx h₁ h₂).1, (hrx h₁ h₂).2, fun hcur => nomatch hcur.1⟩
        answered := fun _ _ _ hcur => nomatch hcur.1
        own := fun hp => nomatch hp.waits
        results := List.forall_mem_append.2 ⟨fun r hr hok => (h.results r hr hok).update h.pair rfl rfl rfl rfl,
          List.forall_mem_singleton.2 nofun⟩ }
  | false =>
    exact
      { h with
        pair := hq
        cmds := fun m hm => by
          dsimp only [IpcPair.txCmd] at hm
          rw [if_neg (by decide), ← List.append_assoc, List.mem_append, List.mem_singleton] at hm
          rcases hm with hm | rfl
          · exact hold m hm
          · dsimp only
            rw [update_self]
            exact ⟨hfilled.fits, hfilled.len, hfilled.buff, hfilled.crc⟩
        filled := nofun
        keeps := fun _ => h.keeps (by rw [htask]; nofun)
        call := fun _ => update_self ..
        busy := fun _ => ⟨rfl, nofun⟩
        rx := fun h₁ h₂ => ⟨(hrx h₁ h₂).1, (hrx h₁ h₂).2, fun hcur => absurd hcur.2 hne⟩
        answered := fun _ _ _ hcur => absurd hcur.2 hne
        own := fun hp => by
          rcases hp with hp | ⟨-, hpos⟩
          · cases hp
          · exact absurd hsema (Nat.ne_of_gt hpos)
        results := fun r hr hok => (h.results r hr hok).update h.pair rfl rfl rfl rfl }

variable {m : PairMsg} {rest : List PairMsg}

theorem DataInv.srvTxCmpl (h : s.DataInv p) (hc : s.pair.c2s = m :: rest) (hack : m.isAck) (k : Nat) :
    DataInv { s with pair := IpcPair.srvTxCmpl { s.pair with c2s := rest } m, rxSema := k } p := by
  have hq := h.pair.srvTxCmpl hc hack
  have hpkts : pkts s.pair.c2s = pkts rest := by simp [hc, pkts_cons, hack]
  obtain ⟨hr, hsend⟩ := h.pair.rsp.isRsp m (by simp [hc, acks_cons, hack])
  rw [IpcPair.srvTxCmpl, MbIpcSocket.txCmplHandler_rsp hr hsend] at hq ⊢
  have hcomplete {n : Nat} (hn : s.Complete n) : Complete { s with
      pair := { s.pair with c2s := rest, server := { s.pair.server with rxInProcess := false } }, rxSema := k } n :=
    ⟨hn.data, hn.le, fun _ hrx => absurd hrx Bool.false_ne_true⟩
  exact
    { h with
      pair := hq
      cmds := fun x hx => h.cmds x (by rw [hpkts]; exact hx)
      rx := fun hrx => absurd hrx Bool.false_ne_true
      answered := fun hrx => absurd hrx Bool.false_ne_true
      own := fun hp hok => hcomplete (h.own hp hok)
      results := fun r hr hok => hcomplete (h.results r hr hok) }

theorem DataInv.srvRxCmd (h : s.DataInv p) (hisr : s.pair.sIsr = none)
    (hc : s.pair.c2s = m :: rest) (hack : m.isAck = false) (full : Bool) (k : Nat) :
    DataInv { s with pair := IpcPair.srvRxCmd { s.pair with c2s := rest } m full, rxSema := k } p := by
  have hq := h.pair.srvRxCmd hisr hc hack full
  have hpkts : pkts s.pair.c2s = m :: pkts rest := by simp [hc, pkts_cons, hack]
  have hcmd := h.pair.cmd
  rw [hpkts] at hcmd
  have hm := hcmd.isCmd m (by simp)
  have hlt := hcmd.fresh m (by simp)
  have hle := hcmd.le m (by simp)
  have hsub : ∀ x ∈ pkts rest ++ s.pair.queue, x ∈ pkts s.pair.c2s ++ s.pair.queue := by
    intro x hx
    rw [hpkts]
    exact List.mem_cons_of_mem _ hx
  cases hrx : s.pair.server.rxInProcess with
  | true =>
    simp only [IpcPair.srvRxCmd, MbIpcSocket.rxCmdHandler_busy hrx, Bool.false_eq_true, if_false] at hq ⊢
    exact h.frame_net hq ⟨rfl, ⟨rfl, rfl⟩, rfl, hsub, fun _ hx => hx, id, id⟩ rfl ⟨rfl, rfl, rfl⟩ k
  | false =>
    obtain ⟨ha, hcn, hrxTag⟩ := h.pair.rsp.socket
    have htag : s.pair.server.rxTag ≠ m.pkt.tag := by
      intro he
      rw [hrxTag, hm.tag] at he
      have := IpcPair.tagOf_inj he (Nat.le_of_lt hlt) (by have := hcmd.window; omega)
      omega
    simp only [IpcPair.srvRxCmd, MbIpcSocket.rxCmdHandler_new hrx ha hcn hm.cmd htag, Bool.false_eq_true, if_false,
      if_true] at hq ⊢
    have hcarries := h.cmds m (by rw [hpkts]; exact List.mem_cons_self ..)
    have hnil := (h.pair.rsp.nil_of_idle (by rw [hrx]; rfl)).1
    have hcomplete {n : Nat} {t : DataPair} (hn : s.Complete n) (hgot : t.got = s.got) (hsent : t.sent = s.sent)
        (hacc : t.pair.accepted = m.num) : t.Complete n := by
      have := hn.le
      refine ⟨?_, by omega, by omega⟩
      rw [obtained, hgot, hsent]
      exact hn.data
    exact
      { h with
        pair := hq
        cmds := fun x hx => h.cmds x (hsub x hx)
        rx := fun _ _ => ⟨⟨hcarries.fits, hcarries.len, hcarries.buff, hcarries.crc⟩, rfl,
          fun _ => obtained_of_lt h.got hlt⟩
        answered := fun _ hrsp => by
          dsimp only at hrsp
          rw [hm.rsp] at hrsp
          cases hrsp
        rsps := fun x hx => by
          dsimp only at hx
          rw [hnil] at hx
          cases hx
        got := fun g hg => Nat.le_of_lt (Nat.lt_of_le_of_lt (h.got g hg) hlt)
        own := fun hp hok => hcomplete (h.own hp hok) rfl rfl rfl
        results := fun r hr hok => hcomplete (h.results r hr hok) rfl rfl rfl }

theorem DataInv.congr (h : s.DataInv p) {mem : IpcMem} {rt : RecvTask} {k : Nat} {got : List (Nat × List (BitVec 8))}
    (hmem : s.pair.task ≠ .idle → mem.read s.cur.buff s.cur.dataLen.toNat = s.mem.read s.cur.buff s.cur.dataLen.toNat)
    (hobtained : ∀ n, obtained { s with got } n = s.obtained n) (hgot : ∀ g ∈ got, g.1 ≤ s.pair.accepted)
    (hbuff : ∀ n w, rt = .call n w ∨ rt = .wait n w → 0 < n) :
    DataInv { s with mem, recvTask := rt, rxSema := k, got } p :=
  have hcomplete {n : Nat} (hn : s.Complete n) : Complete { s with mem, recvTask := rt, rxSema := k, got } n :=
    ⟨(hobtained n).trans hn.data, hn.le, hn.closed⟩
  { h with
    keeps := fun hne => (hmem hne).trans (h.keeps hne)
    rx := fun hrx hrsp => ⟨(h.rx hrx hrsp).1, (h.rx hrx hrsp).2.1,
      fun hc => (hobtained _).trans ((h.rx hrx hrsp).2.2 hc)⟩
    answered := fun hrx hrsp hapi hc => (hobtained _).trans (h.answered hrx hrsp hapi hc)
    got := hgot
    buffLen := hbuff
    own := fun hp hok => hcomplete (h.own hp hok)
    results := fun r hr hok => hcomplete (h.results r hr hok) }

theorem take_append_chunk {α : Type*} (l : List α) (k n : Nat) :
    l.take k ++ (l.drop k).take n = l.take (k + ((l.drop k).take n).length) := by
  rw [List.take_add, List.length_take, ← List.take_take, List.take_length]

variable {semaNotify : Bool} {n : Nat} {w : Bool}

theorem afterRecv_buffLen {ret : Except MbIpcStatus Nat} {userCmd : BitVec 8} {n' : Nat} {w' : Bool}
    (h : afterRecv semaNotify n w ret userCmd = .call n' w' ∨ afterRecv semaNotify n w ret userCmd = .wait n' w') :
      n' = n := by
  unfold afterRecv at h
  split at h
  · rcases h with h | h <;> cases h
    rfl
  · rcases h with h | h <;> cases h

theorem DataInv.reading (h : s.DataInv p) (hrx : s.pair.server.rxInProcess) (hrsp : s.pair.server.rxCmd.rsp = false)
    (hcur : s.Current) : s.pair.server.Reading s.mem s.cur.data := by
  obtain ⟨ha, hc, -⟩ := h.pair.rsp.socket
  obtain ⟨hcarries, hapi, -⟩ := h.rx hrx hrsp
  rw [hcur.2, h.call hcur.1] at hcarries
  exact .of_carries ⟨ha, hc⟩ ⟨hrx, hrsp, (h.pair.rsp.rx hrx).2.1⟩ hcarries
    (h.keeps (PairTask.ne_idle (.inr hcur.1))) hapi

theorem DataInv.recv_data (h : s.DataInv p) (hrx : s.pair.server.rxInProcess)
    (hrsp : s.pair.server.rxCmd.rsp = false) (hn : 0 < n) (hcur : s.Current) :
    s.obtained s.pair.accepted ++ s.pair.server.recvChunk s.mem n =
      s.cur.data.take (s.pair.server.recvData s.mem n).socket.rxReadOffset ∧ ((s.pair.server.recvData s.mem n).rsp →
      s.obtained s.pair.accepted ++ s.pair.server.recvChunk s.mem n = s.cur.data) := by
  have hread := h.reading hrx hrsp hcur
  rw [(h.rx hrx hrsp).2.2 hcur, hread.recvChunk, hread.recvData, take_append_chunk]
  refine ⟨rfl, fun hlast => List.take_of_length_le ?_⟩
  have hle : s.cur.data.length ≤ s.pair.server.rxReadOffset + n := by
    simpa [Nat.ne_of_gt hn] using hlast
  rw [List.length_take, List.length_drop]
  omega

def took (s : DataPair) (srv : MbIpcSocket) (sQueue : List PairMsg) (rt : RecvTask)
    (chunk : List (BitVec 8)) : DataPair :=
  { s with
    pair := { s.pair with server := srv, sQueue := sQueue }
    recvTask := rt
    got := s.got ++ [(s.pair.accepted, chunk)] }

section
variable (h : s.DataInv p)
include h

theorem DataInv.took (hrx : s.pair.server.rxInProcess) (hrsp : s.pair.server.rxCmd.rsp = false)
    {srv : MbIpcSocket} {sQueue : List PairMsg} {rt : RecvTask} (chunk : List (BitVec 8))
    (hq : IpcPair.PairInv { s.pair with server := srv, sQueue := sQueue } p)
    (hopen : srv.rxCmd.rsp = false → srv.rxCmd = s.pair.server.rxCmd ∧
      (s.Current → s.obtained s.pair.accepted ++ chunk = s.cur.data.take srv.rxReadOffset))
    (hans : srv.rxCmd.rsp → s.Current → s.obtained s.pair.accepted ++ chunk = s.cur.data)
    (hrsps : ∀ m ∈ sQueue ++ pkts s.pair.s2c, m.pkt.apiImplStatus = srv.rxCmd.apiImplStatus)
    (hbuff : ∀ n w, rt = .call n w ∨ rt = .wait n w → 0 < n) : (s.took srv sQueue rt chunk).DataInv p := by
  obtain ⟨hcarries, hapi, -⟩ := h.rx hrx hrsp
  have hobtained : ∀ k, (s.took srv sQueue rt chunk).obtained k = s.obtained k ++ if k = s.pair.accepted then
      chunk else [] :=
    fun k => obtained_recv k _ _ rfl
  have hlast : (s.took srv sQueue rt chunk).obtained s.pair.accepted = s.obtained s.pair.accepted ++ chunk := by
    rw [hobtained, if_pos rfl]
  -- a command that is complete is an older one
  have hcomplete {k : Nat} (hk : s.Complete k) : (s.took srv sQueue rt chunk).Complete k := by
    have hne : k ≠ s.pair.accepted := by
      intro he
      have hclosed := hk.closed he hrx
      rw [hrsp] at hclosed
      cases hclosed
    refine ⟨?_, hk.le, fun he => absurd he hne⟩
    rw [hobtained, if_neg hne, List.append_nil]
    exact hk.data
  exact
    { h with
      pair := hq
      rx := fun _ hrsp' => by
        obtain ⟨hcmd, hdata⟩ := hopen hrsp'
        exact ⟨hcmd.symm ▸ hcarries, hcmd.symm ▸ hapi, fun hc => hlast.trans (hdata hc)⟩
      answered := fun _ hrsp' _ hc => hlast.trans (hans hrsp' hc)
      rsps := hrsps
      got := List.forall_mem_append.2 ⟨h.got, List.forall_mem_singleton.2 (Nat.le_refl _)⟩
      buffLen := hbuff
      own := fun hp hok => hcomplete (h.own hp hok)
      results := fun r hr hok => hcomplete (h.results r hr hok) }

theorem DataInv.recvAsync (htask : s.recvTask = .call n w) (full : Bool) :
    (s.recvAsync semaNotify n w full).DataInv p := by
  have hq := h.pair.recv n (s.pair.server.recvCrc8 s.mem) full
  have hn := h.buffLen n w (.inl htask)
  have hbuff : ∀ n' w', (s.recvAsync semaNotify n w full).recvTask = .call n' w' ∨
      (s.recvAsync semaNotify n w full).recvTask = .wait n' w' → 0 < n' :=
    fun n' w' ht => (afterRecv_buffLen ht).symm ▸ hn
  obtain ⟨ha, hc, -⟩ := h.pair.rsp.socket
  by_cases hans : s.pair.server.Answered
  · -- nothing to read
    have hpair : s.pair.recv n (s.pair.server.recvCrc8 s.mem) full = s.pair := by
      rw [IpcPair.recv, ← MbIpcSocket.recvData, hans.recvData]
      rfl
    rw [DataPair.recvAsync, hpair]
    refine h.congr (fun _ => rfl) (fun k => ?_)
      (List.forall_mem_append.2 ⟨h.got, List.forall_mem_singleton.2 (Nat.le_refl _)⟩) hbuff
    rw [obtained_recv k _ _ rfl, hans.recvChunk]
    split <;> exact List.append_nil _
  have hopen : s.pair.server.rxInProcess ∧ s.pair.server.rxCmd.rsp = false := by
    simpa [MbIpcSocket.Answered, ha, hc] using hans
  obtain ⟨hrx, hrsp⟩ := hopen
  have hread := h.recv_data hrx hrsp hn
  cases hlast : (s.pair.server.recvData s.mem n).rsp with
  | false =>
    have hcmd : (s.pair.server.recvData s.mem n).socket.rxCmd = s.pair.server.rxCmd :=
      MbIpcSocket.mbIpcRecvAsync_quiet hlast
    have he : s.pair.recv n (s.pair.server.recvCrc8 s.mem) full =
        { s.pair with server := (s.pair.server.recvData s.mem n).socket } := by
      rw [IpcPair.recv, ← MbIpcSocket.recvData, hlast]
      rfl
    rw [he] at hq
    have htook := h.took hrx hrsp (s.pair.server.recvChunk s.mem n) hq (fun _ => ⟨hcmd, fun hc => (hread hc).1⟩)
      (fun hr => by rw [hcmd, hrsp] at hr; cases hr) (by rw [hcmd]; exact h.rsps) hbuff
    rw [DataPair.took, ← he] at htook
    exact htook
  | true =>
    have he : s.pair.recv n (s.pair.server.recvCrc8 s.mem) full = { s.pair with
        server := (s.pair.server.recvData s.mem n).socket.txRsp (routerStatus full)
        sQueue := if full then s.pair.sQueue else
          s.pair.sQueue ++ [⟨false, s.pair.accepted, (s.pair.server.recvData s.mem n).socket.rspCmd⟩] } := by
      rw [IpcPair.recv, ← MbIpcSocket.recvData, hlast]
      rfl
    obtain ⟨hsq, hs2c⟩ := List.append_eq_nil_iff.1 (h.pair.rsp.nil_of_idle (by rw [hrsp, Bool.and_false])).1
    rw [he] at hq
    have htook := h.took hrx hrsp (s.pair.server.recvChunk s.mem n) hq (fun hr => by cases hr)
      (fun _ hc => (hread hc).2 hlast)
      (fun m hm => by
        rw [hsq, hs2c, List.append_nil] at hm
        cases full with
        | true => cases hm
        | false =>
          obtain rfl := List.mem_singleton.1 hm
          rfl) hbuff
    rw [DataPair.took, ← he] at htook
    exact htook

theorem DataInv.cliTxCmpl (hs : s.pair.s2c = m :: rest) (hack : m.isAck) (k : Nat) :
    DataInv { s with pair := IpcPair.cliTxCmpl { s.pair with s2c := rest } m, rxSema := k } p := by
  have hq := h.pair.cliTxCmpl hs hack
  have hpkts : pkts s.pair.s2c = pkts rest := by simp [hs, pkts_cons, hack]
  have hsub : ∀ x ∈ s.pair.sQueue ++ pkts rest, x ∈ s.pair.sQueue ++ pkts s.pair.s2c := by
    rw [hpkts]
    exact fun _ hx => hx
  have hm := h.pair.cmd.isCmd m (by simp [hs, acks_cons, hack])
  rcases s.pair.client.txCmplHandler_cmd hm.rsp hm.comFail with he | ⟨r, he, -⟩
  · simp only [IpcPair.cliTxCmpl, he, Bool.false_eq_true, if_false] at hq ⊢
    exact h.frame_net hq ⟨rfl, ⟨rfl, rfl⟩, rfl, fun _ hx => hx, hsub, id, id⟩ rfl ⟨rfl, rfl, rfl⟩ k
  · simp only [IpcPair.cliTxCmpl, he, if_true] at hq ⊢
    exact h.frame hq ⟨rfl, ⟨rfl, rfl⟩, rfl, fun _ hx => hx, hsub, id, id⟩ (fun htx => absurd htx Bool.false_ne_true)
      (fun _ hst => by cases hst) h.results k

theorem DataInv.complete_of_rsp (hm : m ∈ s.pair.sQueue ++ pkts s.pair.s2c)
    (htx : s.pair.client.txInProcess) (htag : s.pair.client.txTag = m.pkt.tag)
    (hapi : m.pkt.apiImplStatus = .statusOk) : s.Complete s.pair.attempts := by
  have hacc := h.pair.accepted_eq hm htag
  obtain ⟨hrx, hrsp⟩ := h.pair.rsp.of_mem (List.mem_append_left _ hm)
  have hcall := (h.busy htx).1
  refine ⟨?_, Nat.le_of_eq hacc.symm, fun _ _ => hrsp⟩
  rw [h.call hcall, ← hacc]
  exact h.answered hrx hrsp (h.rsps m hm ▸ hapi) ⟨hcall, hacc⟩

theorem DataInv.cliRxRsp (hisr : s.pair.cIsr = none)
    (hs : s.pair.s2c = m :: rest) (hack : m.isAck = false) (k : Nat) :
    DataInv { s with pair := IpcPair.cliRxRsp { s.pair with s2c := rest } m, rxSema := k } p := by
  have hq := h.pair.cliRxRsp hisr hs hack
  have hpkts : pkts s.pair.s2c = m :: pkts rest := by simp [hs, pkts_cons, hack]
  have hsub : ∀ x ∈ s.pair.sQueue ++ pkts rest, x ∈ s.pair.sQueue ++ pkts s.pair.s2c := by
    intro x hx
    rw [hpkts]
    rcases List.mem_append.1 hx with hx | hx
    · exact List.mem_append_left _ hx
    · exact List.mem_append_right _ (List.mem_cons_of_mem _ hx)
  rcases s.pair.client.rxRspHandler_cases m.pkt with ⟨st, he⟩ | ⟨st, he, htx, htag, -, hapi⟩
  · simp only [IpcPair.cliRxRsp, he, Bool.false_eq_true, if_false] at hq ⊢
    exact h.frame_net hq ⟨rfl, ⟨rfl, rfl⟩, rfl, fun _ hx => hx, hsub, id, id⟩ rfl ⟨rfl, rfl, rfl⟩ k
  · simp only [IpcPair.cliRxRsp, he, if_true] at hq ⊢
    have hm : m ∈ s.pair.sQueue ++ pkts s.pair.s2c := by simp [hpkts]
    exact h.frame hq ⟨rfl, ⟨rfl, rfl⟩, rfl, fun _ hx => hx, hsub, id, id⟩ (fun htx => absurd htx Bool.false_ne_true)
      (fun _ hst => h.complete_of_rsp hm htx htag (hapi hst)) h.results k

theorem DataInv.pairStep {a : PairAct} (hok : TagFresh s.pair a) (hd : a.hasData = false)
    (hs : s.pair.step a = some q) (k : Nat) : DataInv { s with
      pair := q, sent := if a.isTx then update s.sent q.attempts s.cur else s.sent, rxSema := k } p := by
  have hq := h.pair.step hok hs
  cases IpcPair.step_cases hs with
  | send | sendFails | recv => cases hd
  | clear ht =>
    refine h.frame hq ⟨rfl, ⟨rfl, rfl⟩, rfl, fun _ hx => hx, fun _ hx => hx, fun _ => by rw [ht]; rfl,
      nofun⟩ ?_ ?_ h.results k
    · intro htx
      have hcall := (h.busy htx).1
      rw [ht] at hcall
      cases hcall
    · exact fun hp => nomatch hp.waits
  | tx ht full => cases full <;> exact h.tx ht hok _ k
  | get ht hpos =>
    refine h.frame hq ⟨rfl, ⟨rfl, rfl⟩, rfl, fun _ hx => hx, fun _ hx => hx, nofun, fun _ => by rw [ht]; rfl⟩ ?_
      ?_ h.results k
    · intro htx
      have hphase := h.pair.task
      rw [ht] at hphase
      exact absurd (hphase.phase.2.2.2 htx) (Nat.ne_of_gt hpos)
    · exact fun _ => h.own (.inr ⟨ht, hpos⟩)
  | ret ht =>
    refine h.frame hq ⟨rfl, ⟨rfl, rfl⟩, rfl, fun _ hx => hx, fun _ hx => hx, nofun, nofun⟩ ?_ ?_ ?_ k
    · exact fun htx => absurd ht (h.busy htx).2
    · exact fun hp => nomatch hp.waits
    · exact List.forall_mem_append.2 ⟨h.results, List.forall_mem_singleton.2 (h.own (.inl ht))⟩
  | timeout ht _ =>
    refine h.frame hq ⟨rfl, ⟨rfl, rfl⟩, rfl, fun _ hx => hx, fun _ hx => hx, nofun, fun _ => by rw [ht]; rfl⟩ ?_
      ?_ h.results k
    · exact fun _ => ⟨rfl, nofun⟩
    · exact fun hp => nomatch hp.waits
  | leave ht =>
    refine h.frame hq ⟨rfl, ⟨rfl, rfl⟩, rfl, fun _ hx => hx, fun _ hx => hx, nofun, nofun⟩ nofun ?_ ?_ k
    · exact fun hp => nomatch hp.waits
    · exact List.forall_mem_append.2 ⟨h.results, List.forall_mem_singleton.2 nofun⟩
  | @wire m _ _ hqueue =>
    refine h.frame_net hq ⟨rfl, ⟨rfl, rfl⟩, rfl, fun x hx => ?_, fun _ hx => hx, id, id⟩ rfl ⟨rfl, rfl, rfl⟩ k
    have hack := h.pair.cmd.isAck.1 m (by simp [hqueue])
    simpa [hqueue, pkts_cons, hack] using hx
  | srvTxCmpl hc hack => exact h.srvTxCmpl hc hack k
  | srvRxCmd hisr hc hack full => exact h.srvRxCmd hisr hc hack full k
  | @srvAck m hisr =>
    refine h.frame_net hq ⟨rfl, ⟨rfl, rfl⟩, rfl, fun _ hx => hx, fun x hx => ?_, id, id⟩ rfl ⟨rfl, rfl, rfl⟩ k
    have hack := h.pair.cmd.isAck.2 m (by simp [hisr])
    simpa [pkts_cons, hack] using hx
  | @srvWire m _ hqueue =>
    refine h.frame_net hq ⟨rfl, ⟨rfl, rfl⟩, rfl, fun _ hx => hx, fun x hx => ?_, id, id⟩ rfl ⟨rfl, rfl, rfl⟩ k
    have hack := h.pair.rsp.isAck.1 m (by simp [hqueue])
    have hpkts : pkts (s.pair.s2c ++ [m]) = pkts s.pair.s2c ++ [m] := by simp [pkts_cons, hack]
    rw [hpkts] at hx
    rw [hqueue]
    simp only [List.mem_append, List.mem_cons] at hx ⊢
    tauto
  | cliTxCmpl hc hack => exact h.cliTxCmpl hc hack k
  | cliRxRsp hisr hc hack => exact h.cliRxRsp hisr hc hack k
  | @cliAck m hisr =>
    refine h.frame_net hq ⟨rfl, ⟨rfl, rfl⟩, rfl, fun x hx => ?_, fun _ hx => hx, id, id⟩ rfl ⟨rfl, rfl, rfl⟩ k
    have hack := h.pair.rsp.isAck.2 m (by simp [hisr])
    simpa [pkts_cons, hack] using hx

theorem DataInv.step {a : DataAct} (hok : DataOk s a) (hs : s.step semaNotify a = some s') :
    s'.DataInv p := by
  cases a with
  | send userCmd buff dataLen =>
    simp only [DataPair.step] at hs
    split at hs
    next ht =>
      split at hs <;> cases hs
      next hc => exact h.send ht hok hc
      next => exact h
    next => cases hs
  | pair a =>
    simp only [DataPair.step, stepPair] at hs
    split at hs
    · cases hs
    · rename_i hd
      obtain ⟨q, hq, rfl⟩ := Option.map_eq_some_iff.1 hs
      exact h.pairStep hok (by simpa using hd) hq _
  | recv buffLen wantsCmd =>
    simp only [DataPair.step] at hs
    split at hs <;> cases hs
    refine h.congr (fun _ => rfl) (fun _ => rfl) h.got fun n w ht => ?_
    rcases ht with ht | ht <;> cases ht
    exact hok
  | recvAsync full =>
    simp only [DataPair.step] at hs
    split at hs <;> cases hs
    next ht => exact h.recvAsync ht full
  | rxGet =>
    simp only [DataPair.step] at hs
    split at hs
    next ht =>
      split at hs <;> cases hs
      refine h.congr (fun _ => rfl) (fun _ => rfl) h.got fun n' w' ht' => ?_
      rcases ht' with ht' | ht' <;> cases ht'
      exact h.buffLen _ _ (.inr ht)
    next => cases hs
  | rxGiveUp =>
    simp only [DataPair.step] at hs
    split at hs <;> cases hs
    exact h.congr (fun _ => rfl) (fun _ => rfl) h.got fun _ _ ht => ht.elim nofun nofun
  | write mem =>
    cases hs
    exact h.congr hok (fun _ => rfl) h.got h.buffLen

end

/-- A connection on which nothing was sent and no `mb_ipc_recv` is going on -/
structure Fresh (k : Nat) (s : DataPair) : Prop where
  pair : Connected k s.pair
  got : s.got = []
  recvTask : s.recvTask = .idle

theorem DataInv.of_fresh {k : Nat} (h : s.Fresh k) : s.DataInv s.pair.client.srcPort := by
  obtain ⟨-, ⟨-, -, hrx, -⟩, ⟨-, htask, -⟩, ⟨hq, hc2s, hsq, hs2c⟩, -, ⟨-, -, -, hresults⟩⟩ := h.pair
  obtain ⟨⟨-, -, -, htx, -⟩, -⟩ := h.pair
  constructor
  case pair => exact .of_connected h.pair
  case cmds =>
    rw [hc2s, hq]
    exact fun m hm => absurd hm List.not_mem_nil
  case filled => rw [htask]; nofun
  case keeps => rw [htask]; exact fun hne => absurd rfl hne
  case call => rw [htask]; nofun
  case busy => rw [htx]; nofun
  case rx => rw [hrx]; nofun
  case answered => rw [hrx]; nofun
  case rsps =>
    rw [hsq, hs2c]
    exact fun m hm => absurd hm List.not_mem_nil
  case got => rw [h.got]; nofun
  case buffLen =>
    rw [h.recvTask]
    rintro n w (ht | ht) <;> cases ht
  case own =>
    rw [htask]
    exact fun hp => nomatch hp.waits
  case results => rw [hresults]; nofun

end DataPair

/-- If `data_len` fits into 16 bits, tags do not come back early and the sender leaves its buffer alone, the bytes of
the buffer were read for a send that has returned 0. -/
theorem send_ok_payload {k : Nat} {semaNotify : Bool} {s₀ s : DataPair} (h₀ : s₀.Fresh k)
    (hr : Run (DataPair.step semaNotify) DataOk s₀ s) {r : Nat × MbIpcStatus} (hres : r ∈ s.pair.results)
    (hok : r.2 = .txOk) :
    s.obtained r.1 = (s.sent r.1).data ∧ (s.obtained r.1).length = (s.sent r.1).dataLen.toNat := by
  have hinv : s.DataInv s₀.pair.client.srcPort :=
    hr.invariant (I := fun t => t.DataInv s₀.pair.client.srcPort) (.of_fresh h₀) fun _ _ _ _ h hok hs => h.step hok hs
  have hdata := (hinv.results r hres hok).data
  refine ⟨hdata, ?_⟩
  rw [hdata, SendCall.length_data]

def DataPair.init : DataPair := { pair := .init 1, mem := countingMem }

def sendSteps (dataLen : BitVec 32) : List DataAct :=
  .send 0 0x100 dataLen :: [.clear, .tx false, .wire, .srvRx false, .srvAck, .cliRx].map .pair

def rspSteps : List DataAct := [.srvWire, .cliRx, .get, .ret].map .pair

theorem send_ok_payload_three : ∃ s, Run (DataPair.step true) DataOk .init s ∧
    s.pair.results = [(2, .txOk)] ∧ (s.sent 2).dataLen = 3 ∧ s.obtained 2 = [1, 2, 3] := by
  refine Run.of_exec_imp (p := fun s => s.pair.results = [(2, .txOk)] ∧ (s.sent 2).dataLen = 3 ∧
    (s.sent 2).data = [1, 2, 3])
    (sendSteps 3 ++ [.recv 2 false, .recvAsync false, .recv 4 false, .recvAsync false] ++ rspSteps)
      (by decide +kernel) ?_
  rintro s hr ⟨hres, hlen, hdata⟩
  refine ⟨hres, hlen, ?_⟩
  rw [(send_ok_payload ⟨IpcPair.init_connected 1, rfl, rfl⟩ hr (r := (2, .txOk)) (by rw [hres]; simp) rfl).1, hdata]

/-- Of 65537 bytes the receiver gets one, which is right by the checksum, and the call returns 0. -/
theorem send_ok_payload_cut : ∃ s, Run (DataPair.step true) (fun _ _ => True) .init s ∧
    s.pair.results = [(2, .txOk)] ∧ (s.sent 2).dataLen = 65537 ∧ s.recvTask = .wait 65537 false ∧ s.obtained 2 = [1] :=
  Run.of_exec (sendSteps 65537 ++ [.recv 65537 false, .recvAsync false] ++ rspSteps ++
    [.recv 65537 false, .recvAsync false, .rxGet, .recvAsync false]) (by decide +kernel)

end Bk7258

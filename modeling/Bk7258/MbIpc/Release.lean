import Bk7258.MbIpc.PairInv

/-!
# When the receiver is released

The client's call returns as soon as its receive interrupt has run the callback on the response. The server clears
`STATE_RX_IN_PROCESS` when it gets the ACK of the response, which the interrupt sends afterwards.
-/

namespace Bk7258
open Lts PairMsg

/-- A command is sent after the ACK of the response that released the call before it; and tags do not come
back early. -/
def AckSent (s : IpcPair) (a : PairAct) : Prop :=
  TagFresh s a ∧ match a with
    | .tx _ => s.cIsr = none
    | _ => True

instance (s : IpcPair) : (a : PairAct) → Decidable (AckSent s a)
  | .tx _ => inferInstanceAs (Decidable (_ ∧ _))
  | .send _ _ _ | .clear | .get | .ret | .timeout | .leave | .wire | .srvRx _ | .srvAck | .recv _ _ _ | .srvWire
  | .cliRx | .cliAck => .isTrue ⟨trivial, trivial⟩

def acksFirst : List PairMsg → Prop
  | [] => True
  | m :: l => if m.isAck then acksFirst l else acks l = []

theorem acksFirst_append {l : List PairMsg} (hl : pkts l = []) (m : PairMsg) : acksFirst (l ++ [m]) := by
  induction l with
  | nil => simp [acksFirst]
  | cons x l ih =>
    rw [pkts_cons] at hl
    cases hx : x.isAck with
    | true => simpa [acksFirst, hx] using ih (by simpa [hx] using hl)
    | false => simp [hx] at hl

theorem acksFirst_of_pkts {l : List PairMsg} (hl : pkts l = []) : acksFirst l := by
  induction l with
  | nil => trivial
  | cons x l ih =>
    rw [pkts_cons] at hl
    cases hx : x.isAck with
    | true => simpa [acksFirst, hx] using ih (by simpa [hx] using hl)
    | false => simp [hx] at hl

namespace IpcPair
variable (s : IpcPair)

def unprocessed : List Nat := (pkts s.c2s ++ s.queue).map PairMsg.num

def Done : Prop :=
  match s.task with
  | .idle | .started | .cleared => (s.attempts, .txOk) ∈ s.results
  | .waiting => 0 < s.sema ∧ s.client.txStatus = .txOk
  | .woken => s.client.txStatus = .txOk
  | .timedOut => False

structure Settled : Prop where
  rsps : s.sQueue ++ pkts s.s2c = []
  rx : s.server.rxInProcess = true → s.server.rxCmd.rsp = true

def numbered : Nat :=
  match s.task with
  | .waiting | .woken | .timedOut => 1
  | _ => 0

structure ReleaseInv : Prop where
  refused_le : ∀ n ∈ s.refused, n ≤ s.attempts
  results_le : ∀ r ∈ s.results, r.1 + s.numbered ≤ s.attempts
  done : s.Done → s.Settled ∧ s.accepted = s.attempts
  next : ∀ n, (n, .txOk) ∈ s.results → n + 1 ∈ s.unprocessed → s.Settled ∧ s.cIsr = none ∧ acksFirst s.c2s
  never : ∀ n, (n, .txOk) ∈ s.results → n + 1 ∉ s.refused

namespace ReleaseInv
variable {s} {s' : IpcPair} {p : Nat}

theorem of_connected {k : Nat} (h : Connected k s) : s.ReleaseInv := by
  obtain ⟨-, -, ⟨-, htask, -⟩, -, -, ⟨-, -, href, hres⟩⟩ := h
  refine ⟨by simp [href], by simp [hres], ?_, by simp [hres], by simp [hres]⟩
  intro hd
  simp [Done, htask, hres] at hd

variable {c : MbIpcSocket} {sema : Nat}

theorem call (h : s.ReleaseInv) {task : PairTask}
    (hd : IpcPair.Done { s with client := c, sema := sema, task := task } → s.Done)
    (hnum : IpcPair.numbered { s with client := c, sema := sema, task := task } ≤ s.numbered) :
    IpcPair.ReleaseInv { s with client := c, sema := sema, task := task } where
  refused_le := h.refused_le
  results_le := fun r hr => Nat.le_trans (Nat.add_le_add_left hnum _) (h.results_le r hr)
  done := fun hd' =>
    have hset := h.done (hd hd')
    ⟨⟨hset.1.rsps, hset.1.rx⟩, hset.2⟩
  next := fun n hn hmem =>
    have hnext := h.next n hn hmem
    ⟨⟨hnext.1.rsps, hnext.1.rx⟩, hnext.2⟩
  never := h.never

variable {server : MbIpcSocket} {outstanding : Bool}

theorem reply (h : s.ReleaseInv) {client : MbIpcSocket}
    {sIsr : Option PairMsg} {sQueue s2c : List PairMsg}
    (hset : s.Settled → IpcPair.Settled { s with
      client := client, sema := sema, outstanding := outstanding, server := server, sIsr := sIsr, sQueue := sQueue
      s2c := s2c })
    (hdone : IpcPair.Done { s with
      client := client, sema := sema, outstanding := outstanding, server := server, sIsr := sIsr, sQueue := sQueue
      s2c := s2c } → s.Done) :
    IpcPair.ReleaseInv { s with
      client := client, sema := sema, outstanding := outstanding, server := server, sIsr := sIsr, sQueue := sQueue
      s2c := s2c } where
  refused_le := h.refused_le
  results_le := h.results_le
  done := by
    intro hd
    obtain ⟨hs, hacc⟩ := h.done (hdone hd)
    exact ⟨hset hs, hacc⟩
  next := by
    intro n hn hmem
    obtain ⟨hs, hnext⟩ := h.next n hn hmem
    exact ⟨hset hs, hnext⟩
  never := h.never

theorem request (h : s.ReleaseInv) {cIsr : Option PairMsg}
    {queue c2s : List PairMsg}
    (hset : s.Settled → IpcPair.Settled { s with
      server := server, outstanding := outstanding, cIsr := cIsr, queue := queue, c2s := c2s })
    (hmem : ∀ n ∈ IpcPair.unprocessed { s with
      server := server, outstanding := outstanding, cIsr := cIsr, queue := queue, c2s := c2s }, n ∈ s.unprocessed)
    (hnext : s.cIsr = none → acksFirst s.c2s → cIsr = none ∧ acksFirst c2s) :
    IpcPair.ReleaseInv { s with
      server := server, outstanding := outstanding, cIsr := cIsr, queue := queue, c2s := c2s } where
  refused_le := h.refused_le
  results_le := h.results_le
  done := by
    intro hd
    obtain ⟨hs, hacc⟩ := h.done hd
    exact ⟨hset hs, hacc⟩
  next := by
    intro n hn hn'
    obtain ⟨hs, hisr, hfirst⟩ := h.next n hn (hmem _ hn')
    exact ⟨hset hs, hnext hisr hfirst⟩
  never := h.never

theorem finish (h : s.ReleaseInv) (hinv : s.PairInv p) (hnum : s.numbered = 1) {ret : MbIpcStatus}
    (hret : ret = .txOk → s.Done) : (IpcPair.finish { s with client := c } ret).ReleaseInv := by
  have hnew : ∀ n, (n, .txOk) ∈ s.results ++ [(s.attempts, ret)] →
      (n, .txOk) ∈ s.results ∨ n = s.attempts ∧ ret = .txOk := by
    intro n hn
    rcases List.mem_append.1 hn with hn | hn
    · exact .inl hn
    · obtain ⟨rfl, rfl⟩ := Prod.mk.inj (List.mem_singleton.1 hn)
      exact .inr ⟨rfl, rfl⟩
  refine ⟨h.refused_le, ?_, ?_, ?_, ?_⟩
  · intro r hr
    rcases List.mem_append.1 hr with hr | hr
    · exact Nat.le_trans (Nat.le_add_right _ _) (h.results_le r hr)
    · rw [List.mem_singleton.1 hr]
      exact Nat.le_refl _
  · intro hd
    rcases hnew _ hd with hn | ⟨-, hok⟩
    · have hle := h.results_le _ hn
      rw [hnum] at hle
      exact absurd hle (Nat.not_succ_le_self _)
    · obtain ⟨hset, hacc⟩ := h.done (hret hok)
      exact ⟨⟨hset.rsps, hset.rx⟩, hacc⟩
  · intro n hn hmem
    rcases hnew n hn with hn | ⟨rfl, -⟩
    · obtain ⟨hset, hnext⟩ := h.next n hn hmem
      exact ⟨⟨hset.rsps, hset.rx⟩, hnext⟩
    · obtain ⟨m, hm, hnum'⟩ := List.mem_map.1 hmem
      have hle := hinv.cmd.le m (by
        rcases List.mem_append.1 hm with hm | hm
        · exact List.mem_append_left _ (List.mem_append_left _ hm)
        · exact List.mem_append_right _ hm)
      omega
  · intro n hn hmem
    rcases hnew n hn with hn | ⟨rfl, -⟩
    · exact h.never n hn hmem
    · exact absurd (h.refused_le _ hmem) (Nat.not_succ_le_self _)

theorem bounds (hinv : s.PairInv p) {n : Nat} (hn : n ∈ s.unprocessed) : s.accepted < n ∧ n ≤ s.attempts := by
  obtain ⟨m, hm, rfl⟩ := List.mem_map.1 hn
  refine ⟨hinv.cmd.fresh m hm, hinv.cmd.le m ?_⟩
  rcases List.mem_append.1 hm with hm | hm
  · exact List.mem_append_left _ (List.mem_append_left _ hm)
  · exact List.mem_append_right _ hm

theorem unprocessed_nil (hinv : s.PairInv p) (hacc : s.accepted = s.attempts) : s.unprocessed = [] := by
  refine List.eq_nil_iff_forall_not_mem.2 fun n hn => ?_
  have := bounds hinv hn
  omega

theorem tx (h : s.ReleaseInv) (hinv : s.PairInv p) (htask : s.task = .cleared) (hisr : s.cIsr = none) (full : Bool) :
    (s.txCmd full).ReleaseInv := by
  have hresults : ∀ r ∈ s.results, r.1 ≤ s.attempts := fun r hr =>
    Nat.le_trans (Nat.le_add_right _ _) (h.results_le r hr)
  have hrefused : ∀ n ∈ s.refused, n ≤ s.attempts + 1 := fun n hn => Nat.le_succ_of_le (h.refused_le n hn)
  cases full with
  | true =>
    refine ⟨hrefused, ?_, ?_, ?_, ?_⟩
    · intro r hr
      rcases List.mem_append.1 hr with hr | hr
      · exact Nat.le_succ_of_le (hresults r hr)
      · rw [List.mem_singleton.1 hr]
        exact Nat.le_refl _
    · intro hd
      rcases List.mem_append.1 hd with hd | hd
      · exact absurd (hresults _ hd) (Nat.not_succ_le_self _)
      · cases List.mem_singleton.1 hd
    · intro n hn hmem
      rcases List.mem_append.1 hn with hn | hn
      · obtain ⟨hset, hnext⟩ := h.next n hn hmem
        exact ⟨⟨hset.rsps, hset.rx⟩, hnext⟩
      · cases List.mem_singleton.1 hn
    · intro n hn
      rcases List.mem_append.1 hn with hn | hn
      · exact h.never n hn
      · cases List.mem_singleton.1 hn
  | false =>
    refine ⟨hrefused, fun r hr => Nat.succ_le_succ (hresults r hr), ?_, ?_, h.never⟩
    · rintro ⟨hpos, -⟩
      have hphase := hinv.task.phase
      rw [htask] at hphase
      exact absurd hphase.2.2 (Nat.ne_of_gt hpos)
    · intro n hn hmem
      have hmem' : n + 1 ∈ s.unprocessed ∨ n = s.attempts := by
        simpa [unprocessed, IpcPair.txCmd, ← or_assoc] using hmem
      rcases hmem' with hmem | rfl
      · obtain ⟨hset, hnext⟩ := h.next n hn hmem
        exact ⟨⟨hset.rsps, hset.rx⟩, hnext⟩
      · -- the call before it has returned 0: nothing but the ACK of its response can be on its way
        have hd : s.Done := by
          rw [Done, htask]
          exact hn
        obtain ⟨hset, hacc⟩ := h.done hd
        have hpkts : pkts s.c2s = [] := by
          have hnil := unprocessed_nil hinv hacc
          simp only [unprocessed, List.map_eq_nil_iff, List.append_eq_nil_iff] at hnil
          exact hnil.1
        exact ⟨⟨hset.rsps, hset.rx⟩, hisr, acksFirst_of_pkts hpkts⟩

variable {m : PairMsg} {rest : List PairMsg}

section
variable (h : s.ReleaseInv) (hinv : s.PairInv p)
include h hinv

theorem wire (hout : s.outstanding = false) (hq : s.queue = m :: rest) :
    IpcPair.ReleaseInv { s with queue := rest, outstanding := true, c2s := s.c2s ++ [m] } := by
  have hcmd := hinv.cmd
  rw [hout, hq] at hcmd
  obtain ⟨hsent, -⟩ := hcmd.nil_of_idle
  have hack : m.isAck = false := hcmd.isAck.1 m (by simp)
  refine h.request (fun hset => ⟨hset.rsps, hset.rx⟩) (fun n hn => ?_) fun hisr _ => ⟨hisr, acksFirst_append hsent m⟩
  simpa [unprocessed, pkts_cons, hack, hsent, hq] using hn

theorem srvTxCmpl (hc : s.c2s = m :: rest) (hack : m.isAck) :
    (IpcPair.srvTxCmpl { s with c2s := rest } m).ReleaseInv := by
  have hrsp := hinv.rsp
  rw [hc, acks_cons, if_pos hack] at hrsp
  obtain ⟨hr, hsend⟩ := hrsp.isRsp m (by simp)
  have hsrv : (s.server.txCmplHandler m.pkt).1 = { s.server with rxInProcess := false } := by
    rw [MbIpcSocket.txCmplHandler_rsp hr hsend]
  have hset' : s.Settled → (IpcPair.srvTxCmpl { s with c2s := rest } m).Settled := by
    intro hset
    refine ⟨hset.rsps, fun hrx => ?_⟩
    simp [IpcPair.srvTxCmpl, hsrv] at hrx
  refine h.request hset' (fun n hn => ?_) fun hisr hfirst => ⟨hisr, ?_⟩
  · simpa [unprocessed, IpcPair.srvTxCmpl, hc, pkts_cons, hack] using hn
  · rw [hc, acksFirst, if_pos hack] at hfirst
    exact hfirst

theorem srvRxCmd (hc : s.c2s = m :: rest) (hack : m.isAck = false) (full : Bool) :
    (IpcPair.srvRxCmd { s with c2s := rest } m full).ReleaseInv := by
  have hpkts : pkts s.c2s = m :: pkts rest := by simp [hc, pkts_cons, hack]
  have hmem : m.num ∈ s.unprocessed := by simp [unprocessed, hpkts]
  obtain ⟨hlt, hle⟩ := bounds hinv hmem
  have hnd : ¬ s.Done := by
    intro hd
    have := (h.done hd).2
    omega
  -- the commands behind it have larger numbers, and the next one is above the ones answered
  have hqueue : ∀ n, (n, .txOk) ∈ s.results → n + 1 ∉ (pkts rest ++ s.queue).map PairMsg.num := by
    intro n hn hmem'
    have hdel := hinv.rsp.le n (hinv.task.results _ hn rfl)
    have hsorted := hinv.cmd.sorted
    rw [hpkts] at hsorted
    simp only [List.cons_append, List.map_cons, List.pairwise_cons] at hsorted
    have := hsorted.1 (n + 1) (by
      simp only [List.map_append, List.mem_append] at hmem' ⊢
      rcases hmem' with hm | hm
      · exact .inl (.inl hm)
      · exact .inr hm)
    omega
  cases hrx : s.server.rxInProcess with
  | true =>
    simp only [IpcPair.srvRxCmd, MbIpcSocket.rxCmdHandler_busy hrx, Bool.false_eq_true, if_false]
    refine ⟨?_, h.results_le, fun hd => absurd hd hnd, fun n hn hmem' => absurd hmem' (hqueue n hn), ?_⟩
    · intro n hn
      rcases List.mem_append.1 hn with hn | hn
      · exact h.refused_le n hn
      · rw [List.mem_singleton.1 hn]
        exact hle
    · intro n hn hmem'
      rcases List.mem_append.1 hmem' with hmem' | hmem'
      · exact h.never n hn hmem'
      · obtain ⟨hset, hisr, hfirst⟩ := h.next n hn (List.mem_singleton.1 hmem' ▸ hmem)
        have hacks : acks s.c2s = [] := by
          rw [hc, acksFirst, hack] at hfirst
          simpa [hc, acks_cons, hack] using hfirst
        have htok := hinv.rsp.tok
        simp [hset.rsps, hisr, hacks, hrx, hset.rx hrx] at htok
  | false =>
    obtain ⟨ha, hcn, hrxTag⟩ := hinv.rsp.socket
    have hm := hinv.cmd.isCmd m (by simp [hpkts])
    have htag : s.server.rxTag ≠ m.pkt.tag := by
      intro he
      rw [hrxTag, hm.tag] at he
      have := tagOf_inj he (Nat.le_of_lt hlt) (by have := hinv.cmd.window; omega)
      omega
    simp only [IpcPair.srvRxCmd, MbIpcSocket.rxCmdHandler_new hrx ha hcn hm.cmd htag, Bool.false_eq_true, if_false,
      if_true]
    exact ⟨h.refused_le, h.results_le, fun hd => absurd hd hnd, fun n hn hmem' => absurd hmem' (hqueue n hn), h.never⟩

theorem srvAck (hisr : s.sIsr = some m) :
    IpcPair.ReleaseInv { s with sIsr := none, s2c := s.s2c ++ [m] } := by
  have hack : m.isAck := hinv.cmd.isAck.2 m (by simp [hisr])
  have hset' : s.Settled → IpcPair.Settled { s with sIsr := none, s2c := s.s2c ++ [m] } := by
    intro hset
    refine ⟨?_, hset.rx⟩
    simpa [pkts_cons, hack] using hset.rsps
  exact h.reply hset' id

end

theorem recv (h : s.ReleaseInv) (buffLen : Nat) (crc8 : BitVec 8) (full : Bool) :
    (s.recv buffLen crc8 full).ReleaseInv := by
  obtain ⟨o, a, hsock⟩ := s.server.mbIpcRecvAsync_socket buffLen crc8
  -- with nothing to answer the application only reads
  have hset' : s.Settled → (s.recv buffLen crc8 full).Settled := by
    intro hset
    have hno : (s.server.mbIpcRecvAsync buffLen crc8).rsp = false := by
      by_contra hrsp
      obtain ⟨hrx, hnot⟩ := MbIpcSocket.mbIpcRecvAsync_rsp (by simpa using hrsp)
      rw [hset.rx hrx] at hnot
      cases hnot
    simp only [IpcPair.recv, hno, hsock, Bool.false_eq_true, if_false]
    exact ⟨hset.rsps, hset.rx⟩
  have hsame : s.recv buffLen crc8 full = { s with
      server := (s.recv buffLen crc8 full).server
      sQueue := (s.recv buffLen crc8 full).sQueue } := by
    simp only [IpcPair.recv, IpcPair.txRsp]
    split <;> rfl
  rw [hsame] at hset' ⊢
  exact h.reply hset' id

theorem srvWire (h : s.ReleaseInv) (hq : s.sQueue = m :: rest) :
    IpcPair.ReleaseInv { s with sQueue := rest, s2c := s.s2c ++ [m] } := by
  have hno : ¬ s.Settled := by
    intro hset
    have := hset.rsps
    simp [hq] at this
  exact ⟨h.refused_le, h.results_le, fun hd => absurd (h.done hd).1 hno,
    fun n hn hmem => absurd (h.next n hn hmem).1 hno, h.never⟩

variable (h : s.ReleaseInv) (hinv : s.PairInv p)
include h hinv

theorem cliTxCmpl (hs : s.s2c = m :: rest) (hack : m.isAck) :
    (IpcPair.cliTxCmpl { s with s2c := rest } m).ReleaseInv := by
  have hpkts : pkts s.s2c = pkts rest := by simp [hs, pkts_cons, hack]
  have hm := hinv.cmd.isCmd m (by simp [hs, acks_cons, hack])
  have hset' : s.Settled → (IpcPair.cliTxCmpl { s with s2c := rest } m).Settled := by
    intro hset
    refine ⟨?_, hset.rx⟩
    show s.sQueue ++ pkts rest = []
    rw [← hpkts]
    exact hset.rsps
  have hdone : (IpcPair.cliTxCmpl { s with s2c := rest } m).Done → s.Done := by
    intro hd
    rcases s.client.txCmplHandler_cmd hm.rsp hm.comFail with he | ⟨r, he, -⟩
    · simpa only [IpcPair.cliTxCmpl, he, Done, Bool.false_eq_true, if_false] using hd
    · simp only [IpcPair.cliTxCmpl, he, Done] at hd ⊢
      cases htask : s.task <;> simp [htask] at hd ⊢
      all_goals exact hd
  rw [IpcPair.cliTxCmpl] at hset' hdone ⊢
  exact h.reply hset' hdone

theorem cliRxRsp (hs : s.s2c = m :: rest) (hack : m.isAck = false) :
    (IpcPair.cliRxRsp { s with s2c := rest } m).ReleaseInv := by
  have hpkts : pkts s.s2c = m :: pkts rest := by simp [hs, pkts_cons, hack]
  have hno : ¬ s.Settled := by
    intro hset
    have := hset.rsps
    simp [hpkts] at this
  have hrsp := hinv.rsp
  rw [hpkts] at hrsp
  refine ⟨h.refused_le, h.results_le, fun hd => ?_, fun n hn hmem => absurd (h.next n hn hmem).1 hno, h.never⟩
  rcases s.client.rxRspHandler_cases m.pkt with ⟨st, he⟩ | ⟨st, he, -, htag, -⟩
  · have hd' : s.Done := by
      simpa only [IpcPair.cliRxRsp, he, Done, Bool.false_eq_true, if_false] using hd
    exact absurd (h.done hd').1 hno
  · obtain ⟨hq, hl, -, -⟩ := hrsp.nil_of_rsps
    obtain ⟨-, hr⟩ := hrsp.of_mem (m := m) (by simp)
    refine ⟨⟨?_, fun _ => hr⟩, hinv.accepted_eq (by simp [hpkts]) htag⟩
    show s.sQueue ++ pkts rest = []
    rw [hq, hl]
    rfl

theorem cliAck (hisr : s.cIsr = some m) :
    IpcPair.ReleaseInv { s with cIsr := none, c2s := s.c2s ++ [m] } := by
  have hack : m.isAck := hinv.rsp.isAck.2 m (by simp [hisr])
  refine h.request (fun hset => ⟨hset.rsps, hset.rx⟩) (fun n hn => ?_) fun hnone => ?_
  · simpa [unprocessed, pkts_cons, hack] using hn
  · rw [hisr] at hnone
    cases hnone

theorem step {a : PairAct} (hok : AckSent s a)
    (hs : s.step a = some s') : s'.ReleaseInv := by
  cases step_cases hs with
  | send ht => exact h.call (fun hd => by simpa [Done, ht] using hd) (Nat.zero_le _)
  | sendFails => exact h
  | clear ht => exact h.call (fun hd => by simpa [Done, ht] using hd) (Nat.zero_le _)
  | tx ht full => exact h.tx hinv ht hok.2 full
  | get ht hpos => exact h.call (fun hd => by simpa [Done, ht, hpos] using hd) (by simp [numbered, ht])
  | ret ht => exact h.finish hinv (by simp [numbered, ht]) (fun hok => by simpa [Done, ht] using hok)
  | timeout ht _ => exact h.call nofun (by simp [numbered, ht])
  | leave ht => exact h.finish hinv (by simp [numbered, ht]) nofun
  | wire hout hq => exact h.wire hinv hout hq
  | srvTxCmpl hc hack => exact h.srvTxCmpl hinv hc hack
  | srvRxCmd _ hc hack full => exact h.srvRxCmd hinv hc hack full
  | srvAck hisr => exact h.srvAck hinv hisr
  | recv buffLen crc8 full => exact h.recv buffLen crc8 full
  | srvWire hq => exact h.srvWire hq
  | cliTxCmpl hc hack => exact h.cliTxCmpl hinv hc hack
  | cliRxRsp _ hc hack => exact h.cliRxRsp hinv hc hack
  | cliAck hisr => exact h.cliAck hinv hisr

end ReleaseInv
end IpcPair

/-- If a command is sent after the ACK of the response before it, a send after one that has returned 0 does not find the
receiver busy. -/
theorem send_after_ok_not_refused {k : Nat} {s₀ s : IpcPair} (h₀ : Connected k s₀)
    (hr : Run IpcPair.step AckSent s₀ s) {n : Nat} (hok : (n, .txOk) ∈ s.results) : n + 1 ∉ s.refused := by
  have hinv : s.ReleaseInv := by
    refine hr.invariant (.of_connected h₀) fun t u a hrt h hok hs => ?_
    exact h.step (.of_run h₀ (hrt.mono fun _ _ h => h.1)) hok hs
  exact hinv.never n hok

theorem send_after_ok_second : ∃ s, Run IpcPair.step AckSent (.init 1) s ∧
    s.results = [(2, .txOk), (3, .txOk)] ∧ 3 ∉ s.refused := by
  refine Run.of_exec_and [.send 0 4 0, .clear, .tx false, .wire, .srvRx false, .srvAck, .cliRx,
    .recv 4 0 false, .srvWire,
    .cliRx, .get, .ret, .send 0 4 0, .clear, .cliAck, .tx false, .wire, .srvRx false, .srvRx false, .srvAck,
    .cliRx, .recv 4 0 false, .srvWire, .cliRx, .get, .ret] (by decide) fun s hr hres => ?_
  exact send_after_ok_not_refused (IpcPair.init_connected 1) hr (by simp [hres])

/-- The second command reaches the server before the ACK of the response to the first one. -/
theorem send_after_ok_refused : ∃ s, Run IpcPair.step TagFresh (.init 1) s ∧
    s.results = [(2, .txOk), (3, .routeFailed .rxBusy)] ∧ s.refused = [3] :=
  Run.of_exec [.send 0 4 0, .clear, .tx false, .wire, .srvRx false, .srvAck, .cliRx, .recv 4 0 false, .srvWire,
    .cliRx, .get, .ret, .send 0 4 0, .clear, .tx false, .wire, .srvRx false, .srvAck, .cliAck, .cliRx, .get, .ret]
    (by decide)

end Bk7258

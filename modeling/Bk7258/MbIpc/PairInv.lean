import Mathlib.Data.List.Nodup
import Bk7258.MbIpc.Pair

/-!
# Which command a tag stands for

The receiver takes a command for a re-sent one if it has the tag of the last command it has accepted, and the sender
takes a response for its own if it has the tag of its last command. As long as the last command is less than 256 ahead
of the last one accepted, a tag stands for one number in both comparisons.
-/

namespace Bk7258
open Lts

namespace PairMsg

def acks (l : List PairMsg) : List PairMsg := l.filter (·.isAck)
def pkts (l : List PairMsg) : List PairMsg := l.filter (!·.isAck)

@[simp] theorem acks_append (l l' : List PairMsg) : acks (l ++ l') = acks l ++ acks l' := List.filter_append ..
@[simp] theorem pkts_append (l l' : List PairMsg) : pkts (l ++ l') = pkts l ++ pkts l' := List.filter_append ..

theorem acks_cons (m : PairMsg) (l : List PairMsg) : acks (m :: l) = if m.isAck then m :: acks l else acks l := by
  simp [acks, List.filter_cons]

theorem pkts_cons (m : PairMsg) (l : List PairMsg) : pkts (m :: l) = if m.isAck then pkts l else m :: pkts l := by
  cases h : m.isAck <;> simp [pkts, h]

@[simp] theorem acks_nil : acks [] = [] := rfl
@[simp] theorem pkts_nil : pkts [] = [] := rfl

end PairMsg
open PairMsg

structure IsCmd (p : Nat) (m : PairMsg) : Prop where
  rsp : m.pkt.rsp = false
  comFail : m.pkt.comFail = false
  tag : m.pkt.tag = IpcPair.tagOf m.num
  cmd : m.pkt.cmd = .send
  srcPort : m.pkt.srcPort = p

/-- `sent` are the commands in the mailbox, `acked` the ACKs that are due or on their way back. -/
structure CmdInv (p : Nat) (sent acked queue : List PairMsg) (outstanding : Bool) (attempts accepted : Nat) :
    Prop where
  one : (sent ++ acked).length = outstanding.toNat
  isCmd : ∀ m ∈ sent ++ acked ++ queue, IsCmd p m
  isAck : (∀ m ∈ sent ++ queue, m.isAck = false) ∧ ∀ m ∈ acked, m.isAck = true
  sorted : ((sent ++ acked ++ queue).map PairMsg.num).Pairwise (· < ·)
  le : ∀ m ∈ sent ++ acked ++ queue, m.num ≤ attempts
  fresh : ∀ m ∈ sent ++ queue, accepted < m.num
  busy : ∀ m ∈ acked, m.pkt.routeStatus ≠ .statusOk → accepted < m.num
  window : accepted ≤ attempts ∧ attempts < accepted + 256

/-- `rsps` are the responses on their way, `acked` the ACKs of responses. -/
structure RspInv (rsps acked : List PairMsg) (srv : MbIpcSocket) (accepted : Nat) (delivered : List Nat) :
    Prop where
  tok : (rsps ++ acked).map PairMsg.num = if srv.rxInProcess && srv.rxCmd.rsp then [accepted] else []
  isRsp : ∀ m ∈ rsps ++ acked, m.pkt.rsp = true ∧ m.pkt.cmd = .send
  isAck : (∀ m ∈ rsps, m.isAck = false) ∧ ∀ m ∈ acked, m.isAck = true
  tag : ∀ m ∈ rsps, m.pkt.tag = IpcPair.tagOf accepted
  rx : srv.rxInProcess = true →
    srv.rxCmd.tag = IpcPair.tagOf accepted ∧ srv.rxCmd.cmd = .send ∧ accepted ∈ delivered
  socket : srv.allocated = true ∧ srv.connected = true ∧ srv.rxTag = IpcPair.tagOf accepted
  nodup : delivered.Nodup
  le : ∀ n ∈ delivered, n ≤ accepted

def FilledCmd (c : MbIpcCmd) : Prop := c.cmd = .send ∧ c.rsp = false ∧ c.comFail = false ∧ c.srcPort = 0

/-- `late` says that the last command may still be refused. -/
def TaskPhase (task : PairTask) (sema : Nat) (c : MbIpcSocket) (attempts : Nat) (late : Prop) : Prop :=
  match task with
  | .started => c.txInProcess = false ∧ FilledCmd c.txCmd ∧ sema ≤ 1
  | .cleared => c.txInProcess = false ∧ FilledCmd c.txCmd ∧ sema = 0
  | _ => c.txCmd.tag = IpcPair.tagOf attempts ∧ sema ≤ 1 ∧ (late → sema = 0) ∧ (c.txInProcess = true → sema = 0)

def TaskPosted (task : PairTask) (sema : Nat) : Prop := task = .woken ∨ task = .waiting ∧ 0 < sema

def PairTask.waits : PairTask → Bool
  | .waiting | .woken => true
  | .idle | .started | .cleared | .timedOut => false

theorem TaskPosted.waits {task : PairTask} {sema : Nat} (h : TaskPosted task sema) : task.waits := by
  rcases h with rfl | ⟨rfl, -⟩
  · rfl
  · rfl

structure TaskInv (p : Nat) (task : PairTask) (sema : Nat) (c : MbIpcSocket) (attempts : Nat) (late : Prop)
    (delivered : List Nat) (results : List (Nat × MbIpcStatus)) : Prop where
  socket : c.srcPort = p ∧ p ≠ 0 ∧ c.txTag = IpcPair.tagOf attempts
  phase : TaskPhase task sema c attempts late
  own : TaskPosted task sema → c.txStatus = .txOk → attempts ∈ delivered
  results : ∀ r ∈ results, r.2 = .txOk → r.1 ∈ delivered

namespace IpcPair
variable (s : IpcPair)

def out : List Nat := (pkts s.c2s ++ (s.sIsr.toList ++ acks s.s2c) ++ s.queue).map PairMsg.num

def Late : Prop := s.attempts ∈ s.out ∧ s.accepted < s.attempts

structure PairInv (p : Nat) : Prop where
  cmd : CmdInv p (pkts s.c2s) (s.sIsr.toList ++ acks s.s2c) s.queue s.outstanding s.attempts s.accepted
  rsp : RspInv (s.sQueue ++ pkts s.s2c) (s.cIsr.toList ++ acks s.c2s) s.server s.accepted s.delivered
  task : TaskInv p s.task s.sema s.client s.attempts s.Late s.delivered s.results
  resent : s.resent = []

end IpcPair

theorem nil_of_length_le_one {α : Type*} {q l : List α} {m : α} (h : (q ++ m :: l).length ≤ 1) : q = [] ∧ l = [] := by
  simp only [List.length_append, List.length_cons] at h
  exact ⟨List.eq_nil_of_length_eq_zero (by omega), List.eq_nil_of_length_eq_zero (by omega)⟩

/-! ### The commands -/

namespace CmdInv
variable {p : Nat} {sent acked queue : List PairMsg} {outstanding : Bool} {attempts accepted : Nat} {m : PairMsg}

theorem empty (p k : Nat) : CmdInv p [] [] [] false k k :=
  ⟨rfl, by simp, ⟨by simp, by simp⟩, by simp, by simp, by simp, by simp, by omega⟩

theorem nil_of_idle (h : CmdInv p sent acked queue false attempts accepted) : sent = [] ∧ acked = [] := by
  simpa using h.one

theorem length_le_one (h : CmdInv p sent acked queue outstanding attempts accepted) : (sent ++ acked).length ≤ 1 :=
  h.one ▸ Bool.toNat_le outstanding

theorem nil_of_sent (h : CmdInv p (m :: sent) acked queue outstanding attempts accepted) : sent = [] ∧ acked = [] :=
  List.append_eq_nil_iff.1 (nil_of_length_le_one (q := []) h.length_le_one).2

theorem nil_of_acked {q : List PairMsg} (h : CmdInv p sent (q ++ m :: acked) queue outstanding attempts accepted) :
    sent = [] ∧ q = [] ∧ acked = [] := by
  have hlen := h.length_le_one
  rw [← List.append_assoc] at hlen
  obtain ⟨hfront, hacked⟩ := nil_of_length_le_one hlen
  obtain ⟨hsent, hq⟩ := List.append_eq_nil_iff.1 hfront
  exact ⟨hsent, hq, hacked⟩

theorem skip (h : CmdInv p sent acked queue outstanding attempts accepted) (hfresh : attempts + 1 < accepted + 256) :
    CmdInv p sent acked queue outstanding (attempts + 1) accepted :=
  { h with
    le := fun m hm => Nat.le_succ_of_le (h.le m hm)
    window := ⟨Nat.le_succ_of_le h.window.1, hfresh⟩ }

theorem mem_push {l : List PairMsg} {x : PairMsg} (hx : x ∈ l ++ (queue ++ [m])) : x ∈ l ++ queue ∨ x = m := by
  rw [← List.append_assoc, List.mem_append, List.mem_singleton] at hx
  exact hx

theorem push (h : CmdInv p sent acked queue outstanding attempts accepted)
    (hfresh : attempts + 1 < accepted + 256) (hm : IsCmd p m) (hack : m.isAck = false)
    (hnum : m.num = attempts + 1) :
    CmdInv p sent acked (queue ++ [m]) outstanding (attempts + 1) accepted where
  one := h.one
  isCmd := by
    intro x hx
    rcases mem_push hx with hx | rfl
    · exact h.isCmd x hx
    · exact hm
  isAck := by
    refine ⟨fun x hx => ?_, h.isAck.2⟩
    rcases mem_push hx with hx | rfl
    · exact h.isAck.1 x hx
    · exact hack
  sorted := by
    rw [← List.append_assoc, List.map_append, List.pairwise_append]
    refine ⟨h.sorted, by simp, ?_⟩
    intro a ha b hb
    obtain ⟨x, hx, rfl⟩ := List.mem_map.1 ha
    have hle := h.le x hx
    simp only [List.map_cons, List.map_nil, List.mem_singleton] at hb
    omega
  le := by
    intro x hx
    rcases mem_push hx with hx | rfl
    · exact Nat.le_succ_of_le (h.le x hx)
    · exact Nat.le_of_eq hnum
  fresh := by
    intro x hx
    rcases mem_push hx with hx | rfl
    · exact h.fresh x hx
    · have := h.window
      omega
  busy := h.busy
  window := ⟨Nat.le_succ_of_le h.window.1, hfresh⟩

theorem wire (h : CmdInv p sent acked (m :: queue) false attempts accepted) :
    CmdInv p (sent ++ [m]) acked queue true attempts accepted := by
  obtain ⟨rfl, rfl⟩ := h.nil_of_idle
  exact ⟨rfl, h.isCmd, ⟨h.isAck.1, h.isAck.2⟩, h.sorted, h.le, h.fresh, h.busy, h.window⟩

theorem refuse (h : CmdInv p (m :: sent) acked queue outstanding attempts accepted) (st : IpcRouteStatus) :
    CmdInv p sent (m.ackOf st :: acked) queue outstanding attempts accepted := by
  obtain ⟨rfl, rfl⟩ := h.nil_of_sent
  have hm := h.isCmd m (by simp)
  refine ⟨h.one, ?_, ⟨fun x hx => h.isAck.1 x (List.mem_cons_of_mem _ hx), by simp [PairMsg.ackOf]⟩, h.sorted,
    ?_, fun x hx => h.fresh x (List.mem_cons_of_mem _ hx), ?_, h.window⟩
  · intro x hx
    rcases List.mem_cons.1 hx with rfl | hx
    · exact ⟨hm.rsp, rfl, hm.tag, hm.cmd, hm.srcPort⟩
    · exact h.isCmd x (List.mem_cons_of_mem _ hx)
  · intro x hx
    rcases List.mem_cons.1 hx with rfl | hx
    · exact h.le m (by simp)
    · exact h.le x (List.mem_cons_of_mem _ hx)
  · intro x hx _
    obtain rfl := List.mem_singleton.1 hx
    exact h.fresh m (by simp)

theorem accept (h : CmdInv p (m :: sent) acked queue outstanding attempts accepted) :
    CmdInv p sent (m.ackOf .statusOk :: acked) queue outstanding attempts m.num := by
  have hr := h.refuse .statusOk
  obtain ⟨rfl, rfl⟩ := h.nil_of_sent
  have hlt : ∀ x ∈ queue, m.num < x.num := by
    have hsorted := h.sorted
    simp only [List.nil_append, List.cons_append, List.map_cons, List.pairwise_cons] at hsorted
    exact fun x hx => hsorted.1 _ (List.mem_map_of_mem hx)
  refine { hr with fresh := fun x hx => hlt x (by simpa using hx), busy := ?_, window := ?_ }
  · intro x hx hst
    obtain rfl := List.mem_singleton.1 hx
    exact absurd rfl hst
  · have hle := h.le m (by simp)
    have hfresh := h.fresh m (by simp)
    have hwin := h.window
    omega

theorem done {acked' : List PairMsg} (h : CmdInv p sent (acked' ++ m :: acked) queue outstanding attempts accepted) :
    CmdInv p sent (acked' ++ acked) queue false attempts accepted := by
  obtain ⟨rfl, rfl, rfl⟩ := h.nil_of_acked
  have hsorted := h.sorted
  simp only [List.nil_append, List.cons_append, List.map_cons, List.pairwise_cons] at hsorted
  exact ⟨rfl, fun x hx => h.isCmd x (List.mem_cons_of_mem _ hx), ⟨h.isAck.1, by simp⟩, hsorted.2,
    fun x hx => h.le x (List.mem_cons_of_mem _ hx), h.fresh, by simp, h.window⟩

end CmdInv

/-! ### The response -/

namespace RspInv
variable {rsps acked q l : List PairMsg} {srv : MbIpcSocket} {accepted : Nat} {delivered : List Nat} {m : PairMsg}

theorem empty {k : Nat} (ha : srv.allocated) (hc : srv.connected) (hrx : srv.rxInProcess = false)
    (htag : srv.rxTag = IpcPair.tagOf k) : RspInv [] [] srv k [] :=
  ⟨by simp [hrx], by simp, ⟨by simp, by simp⟩, by simp, fun h => (by rw [hrx] at h; cases h), ⟨ha, hc, htag⟩,
    .nil, by simp⟩

section
variable (h : RspInv rsps acked srv accepted delivered)
include h

theorem nil_of_idle (hrx : (srv.rxInProcess && srv.rxCmd.rsp) = false) : rsps = [] ∧ acked = [] := by
  have htok := h.tok
  simpa [hrx] using htok

theorem of_mem (hm : m ∈ rsps ++ acked) :
    srv.rxInProcess ∧ srv.rxCmd.rsp := by
  rw [← Bool.and_eq_true]
  by_contra hrx
  obtain ⟨rfl, rfl⟩ := h.nil_of_idle (Bool.eq_false_iff.2 hrx)
  cases hm

theorem length_le_one : (rsps ++ acked).length ≤ 1 := by
  rw [← List.length_map PairMsg.num, h.tok]
  split
  · exact Nat.le_refl 1
  · exact Nat.zero_le 1

theorem num_of_mem (hm : m ∈ rsps ++ acked) : m.num = accepted := by
  have hnum : m.num ∈ (rsps ++ acked).map PairMsg.num := List.mem_map_of_mem hm
  rw [h.tok] at hnum
  split at hnum
  · exact List.mem_singleton.1 hnum
  · cases hnum

end

theorem nil_of_rsps (h : RspInv (q ++ m :: l) acked srv accepted delivered) :
    q = [] ∧ l = [] ∧ acked = [] ∧ m.num = accepted := by
  have hlen := h.length_le_one
  rw [List.append_assoc, List.cons_append] at hlen
  obtain ⟨hq, hback⟩ := nil_of_length_le_one hlen
  obtain ⟨hl, hacked⟩ := List.append_eq_nil_iff.1 hback
  exact ⟨hq, hl, hacked, h.num_of_mem (by simp)⟩

theorem nil_of_acked (h : RspInv rsps (q ++ m :: l) srv accepted delivered) :
    rsps = [] ∧ q = [] ∧ l = [] ∧ m.num = accepted := by
  have hlen := h.length_le_one
  rw [← List.append_assoc] at hlen
  obtain ⟨hfront, hl⟩ := nil_of_length_le_one hlen
  obtain ⟨hrsps, hq⟩ := List.append_eq_nil_iff.1 hfront
  exact ⟨hrsps, hq, hl, h.num_of_mem (by simp)⟩

theorem move (h : RspInv (m :: rsps) acked srv accepted delivered) :
    RspInv (rsps ++ [m]) acked srv accepted delivered := by
  obtain ⟨-, rfl, rfl, -⟩ := h.nil_of_rsps (q := [])
  exact h

theorem take (h : RspInv (q ++ m :: rsps) acked srv accepted delivered) (st : IpcRouteStatus) :
    RspInv (q ++ rsps) (m.ackOf st :: acked) srv accepted delivered := by
  obtain ⟨rfl, rfl, rfl, -⟩ := h.nil_of_rsps
  refine { h with isRsp := ?_, isAck := ⟨by simp, by simp [PairMsg.ackOf]⟩, tag := by simp, tok := h.tok }
  intro x hx
  obtain rfl := List.mem_singleton.1 hx
  exact h.isRsp m (by simp)

theorem sendAck (h : RspInv rsps (m :: acked) srv accepted delivered) :
    RspInv rsps (acked ++ [m]) srv accepted delivered := by
  obtain ⟨rfl, -, rfl, -⟩ := h.nil_of_acked (q := [])
  exact h

theorem done (h : RspInv rsps (q ++ m :: acked) srv accepted delivered) :
    RspInv rsps (q ++ acked) { srv with rxInProcess := false } accepted delivered := by
  obtain ⟨rfl, rfl, rfl, -⟩ := h.nil_of_acked
  exact ⟨rfl, by simp, ⟨by simp, by simp⟩, by simp, fun hrx => (by cases hrx), h.socket, h.nodup, h.le⟩

theorem read (h : RspInv rsps acked srv accepted delivered) (o : Nat) (a : IpcApiImplStatus) :
    RspInv rsps acked { srv with rxReadOffset := o, rxCmd.apiImplStatus := a } accepted delivered :=
  ⟨h.tok, h.isRsp, h.isAck, h.tag, h.rx, h.socket, h.nodup, h.le⟩

theorem answer (h : RspInv (q ++ l) acked srv accepted delivered) (hrx : srv.rxInProcess)
    (hrsp : srv.rxCmd.rsp = false) :
    RspInv (q ++ [⟨false, accepted, srv.rspCmd⟩] ++ l) acked (srv.txRsp .statusOk) accepted delivered := by
  obtain ⟨hnil, rfl⟩ := h.nil_of_idle (by simp [hrsp])
  obtain ⟨rfl, rfl⟩ := List.append_eq_nil_iff.1 hnil
  obtain ⟨htag, hcmd, hdel⟩ := h.rx hrx
  refine ⟨?_, ?_, ⟨?_, by simp⟩, ?_, fun _ => ⟨htag, hcmd, hdel⟩, h.socket, h.nodup, h.le⟩
  · simp [MbIpcSocket.txRsp, MbIpcSocket.rspCmd, MbIpcSocket.setAddr, hrx]
  · simpa [MbIpcSocket.rspCmd, MbIpcSocket.setAddr] using hcmd
  · simp
  · simpa [MbIpcSocket.rspCmd, MbIpcSocket.setAddr] using htag

theorem drop (h : RspInv rsps acked srv accepted delivered) (hrsp : srv.rxCmd.rsp = false) :
    RspInv rsps acked (srv.txRsp .queueFull) accepted delivered := by
  obtain ⟨rfl, rfl⟩ := h.nil_of_idle (by simp [hrsp])
  exact ⟨by simp [MbIpcSocket.txRsp], by simp, ⟨by simp, by simp⟩, by simp,
    fun hrx => (by simp [MbIpcSocket.txRsp] at hrx), h.socket, h.nodup, h.le⟩

theorem accept (h : RspInv rsps acked srv accepted delivered) (hrx : srv.rxInProcess = false) {c : MbIpcCmd}
    {n : Nat} (hlt : accepted < n) (hrsp : c.rsp = false) (htag : c.tag = IpcPair.tagOf n) (hcmd : c.cmd = .send) :
    RspInv rsps acked { srv with
      rxCmd := { c with apiImplStatus := .statusOk }, rxReadOffset := 0, rxInProcess := true, rxTag :=
        c.tag } n (delivered ++ [n]) := by
  obtain ⟨rfl, rfl⟩ := h.nil_of_idle (by simp [hrx])
  refine ⟨by simp [hrsp], by simp, ⟨by simp, by simp⟩, by simp, fun _ => ⟨htag, hcmd, by simp⟩,
    ⟨h.socket.1, h.socket.2.1, htag⟩, ?_, ?_⟩
  · rw [List.nodup_append]
    refine ⟨h.nodup, by simp, ?_⟩
    rintro a ha b hb rfl
    have := h.le a ha
    rw [List.mem_singleton] at hb
    omega
  · intro k hk
    rcases List.mem_append.1 hk with hk | hk
    · have := h.le k hk
      omega
    · rw [List.mem_singleton] at hk
      omega

end RspInv

/-! ### The call -/

namespace TaskInv
variable {p : Nat} {task : PairTask} {sema : Nat} {c : MbIpcSocket} {attempts : Nat} {late late' : Prop}
  {delivered delivered' : List Nat} {results : List (Nat × MbIpcStatus)}

theorem phase_iff (htask : task ≠ .started ∧ task ≠ .cleared) : TaskPhase task sema c attempts late ↔
    c.txCmd.tag = IpcPair.tagOf attempts ∧ sema ≤ 1 ∧ (late → sema = 0) ∧ (c.txInProcess = true → sema = 0) := by
  cases task with
  | started => exact absurd rfl htask.1
  | cleared => exact absurd rfl htask.2
  | idle | waiting | woken | timedOut => exact .rfl

theorem mono (h : TaskInv p task sema c attempts late delivered results) (hl : late' → late)
    (hd : delivered ⊆ delivered') : TaskInv p task sema c attempts late' delivered' results where
  socket := h.socket
  phase := by
    have hphase := h.phase
    cases task with
    | started | cleared => exact hphase
    | idle | waiting | woken | timedOut =>
      exact ⟨hphase.1, hphase.2.1, fun hlate => hphase.2.2.1 (hl hlate), hphase.2.2.2⟩
  own := fun hp hok => hd (h.own hp hok)
  results := fun r hr hok => hd (h.results r hr hok)

theorem sema_le (h : TaskInv p task sema c attempts late delivered results) : sema ≤ 1 := by
  have hphase := h.phase
  cases task with
  | started => exact hphase.2.2
  | cleared => exact hphase.2.2 ▸ Nat.zero_le 1
  | idle | waiting | woken | timedOut => exact hphase.2.1

theorem send (h : TaskInv p .idle sema c attempts late delivered results) {userCmd crc8 : BitVec 8} {len : Nat}
    {c' : MbIpcSocket} (hc : c.sendStart userCmd len crc8 = (.txOk, c')) :
    TaskInv p .started sema c' attempts late delivered results := by
  obtain ⟨htx, rfl⟩ := MbIpcSocket.sendStart_txOk hc
  exact ⟨h.socket, ⟨htx, ⟨rfl, rfl, rfl, rfl⟩, h.sema_le⟩,
    fun hp => absurd hp.waits Bool.false_ne_true, h.results⟩

theorem clear (h : TaskInv p .started sema c attempts late delivered results) :
    TaskInv p .cleared (sema - 1) c attempts late delivered results :=
  ⟨h.socket, ⟨h.phase.1, h.phase.2.1, by have := h.phase.2.2; omega⟩,
    fun hp => absurd hp.waits Bool.false_ne_true, h.results⟩

theorem tx (h : TaskInv p .cleared sema c attempts late delivered results) (st : IpcRouteStatus) (task : PairTask)
    (htask : task ≠ .started ∧ task ≠ .cleared ∧ task ≠ .woken) :
    TaskInv p task sema (c.txCmdTo st) (attempts + 1) late' delivered results := by
  obtain ⟨hport, hp, htag⟩ := h.socket
  have hnext : c.txTag + 1 = IpcPair.tagOf (attempts + 1) := by rw [htag, IpcPair.tagOf_succ]
  have hsema : sema = 0 := h.phase.2.2
  refine ⟨⟨hport, hp, hnext⟩, ?_, ?_, h.results⟩
  · exact (phase_iff ⟨htask.1, htask.2.1⟩).2 ⟨hnext, by omega, fun _ => hsema, fun _ => hsema⟩
  · rintro (hw | ⟨-, hpos⟩)
    · exact absurd hw htask.2.2
    · omega

theorem get (h : TaskInv p .waiting sema c attempts late delivered results) (hpos : 0 < sema) :
    TaskInv p .woken (sema - 1) c attempts late delivered results := by
  obtain ⟨htag, hle, -, -⟩ := h.phase
  exact ⟨h.socket, ⟨htag, by omega, fun _ => by omega, fun _ => by omega⟩, fun _ => h.own (.inr ⟨rfl, hpos⟩), h.results⟩

theorem timeout (h : TaskInv p .waiting sema c attempts late delivered results) :
    TaskInv p .timedOut sema c attempts late delivered results :=
  ⟨h.socket, h.phase, fun hp => absurd hp.waits Bool.false_ne_true, h.results⟩

theorem finish (h : TaskInv p task sema c attempts late delivered results)
    (htask : task ≠ .started ∧ task ≠ .cleared) {ret : MbIpcStatus} (hret : ret = .txOk → attempts ∈ delivered) :
    TaskInv p .idle sema c attempts late delivered (results ++ [(attempts, ret)]) := by
  refine ⟨h.socket, (phase_iff htask).1 h.phase, fun hp => absurd hp.waits Bool.false_ne_true, ?_⟩
  intro r hr hok
  rcases List.mem_append.1 hr with hr | hr
  · exact h.results r hr hok
  · obtain rfl := List.mem_singleton.1 hr
    exact hret hok

theorem giveUp (h : TaskInv p .timedOut sema c attempts late delivered results) :
    TaskInv p .timedOut sema { c with txInProcess := false } attempts late delivered results :=
  ⟨h.socket, ⟨h.phase.1, h.phase.2.1, h.phase.2.2.1, nofun⟩,
    fun hp => absurd hp.waits Bool.false_ne_true, h.results⟩

variable (h : TaskInv p task sema c attempts late delivered results)
include h

theorem post (hsema : sema = 0)
    (htask : task ≠ .started ∧ task ≠ .cleared) {st : MbIpcStatus} (hst : st = .txOk → attempts ∈ delivered)
    (hlate : ¬ late') :
    TaskInv p task (sema + 1) { c with txStatus := st, txInProcess := false } attempts late' delivered results := by
  have hphase := (phase_iff htask).1 h.phase
  exact ⟨h.socket, (phase_iff htask).2 ⟨hphase.1, by omega, fun hl => absurd hl hlate, nofun⟩,
    fun _ hok => hst hok, h.results⟩

theorem task_of_inProcess (htx : c.txInProcess) : (task ≠ .started ∧ task ≠ .cleared) ∧ sema = 0 := by
  have hphase := h.phase
  cases task with
  | started | cleared => rw [hphase.1] at htx; cases htx
  | idle | waiting | woken | timedOut => exact ⟨⟨nofun, nofun⟩, hphase.2.2.2 htx⟩

theorem task_of_srcPort (hport : c.txCmd.srcPort = p) :
    (task ≠ .started ∧ task ≠ .cleared) ∧ c.txCmd.tag = IpcPair.tagOf attempts ∧ (late → sema = 0) := by
  have hphase := h.phase
  have hp := h.socket.2.1
  cases task with
  | started | cleared => exact absurd (hport.symm.trans hphase.2.1.2.2.2) hp
  | idle | waiting | woken | timedOut => exact ⟨⟨nofun, nofun⟩, hphase.1, hphase.2.2.1⟩

end TaskInv

/-! ### Runs -/

namespace IpcPair.PairInv
variable {p : Nat} {s s' : IpcPair} {k : Nat}

theorem of_connected (h : Connected k s) : s.PairInv s.client.srcPort := by
  obtain ⟨⟨-, -, hport, htx, htxTag, hcmdTag⟩, ⟨hsa, hsc, hrx, hrxTag⟩, ⟨hsema, htask, hcIsr, hsIsr, hout⟩,
    ⟨hq, hc2s, hsq, hs2c⟩, ⟨hatt, hacc⟩, ⟨hdel, hres, -, hresults⟩⟩ := h
  refine ⟨?_, ?_, ?_, hres⟩
  · rw [hc2s, hsIsr, hs2c, hq, hout, hatt, hacc]
    exact .empty ..
  · rw [hc2s, hcIsr, hs2c, hsq, hacc, hdel]
    exact .empty hsa hsc hrx hrxTag
  · have hne : s.client.srcPort ≠ 0 := by
      intro h0
      rw [h0] at hport
      cases hport
    rw [htask, hsema, hatt, hdel, hresults]
    exact ⟨⟨rfl, hne, htxTag⟩, ⟨hcmdTag, by omega, fun _ => rfl, fun _ => rfl⟩,
      fun hp => absurd hp.waits Bool.false_ne_true, by simp⟩

theorem tx (h : s.PairInv p) (htask : s.task = .cleared) (hok : s.attempts + 1 < s.accepted + 256) (full : Bool) :
    (s.txCmd full).PairInv p := by
  have ht := h.task
  rw [htask] at ht
  cases full with
  | true =>
    refine ⟨h.cmd.skip hok, h.rsp, ?_, h.resent⟩
    exact (ht.tx .queueFull .idle ⟨nofun, nofun, nofun⟩).finish ⟨nofun, nofun⟩ nofun
  | false =>
    obtain ⟨hcmd, hrsp, hfail, -⟩ := ht.phase.2.1
    have htag : s.client.txTag + 1 = tagOf (s.attempts + 1) := by rw [ht.socket.2.2, tagOf_succ]
    have hm : IsCmd p ⟨false, s.attempts + 1, s.client.nextCmd⟩ := ⟨hrsp, hfail, htag, hcmd, ht.socket.1⟩
    exact ⟨h.cmd.push hok hm rfl rfl, h.rsp, ht.tx .statusOk .waiting ⟨nofun, nofun, nofun⟩, h.resent⟩

variable {rest : List PairMsg}

section
variable (h : s.PairInv p)
include h

theorem sameTask {out : List Nat} (hout : ∀ n ∈ out, n ∈ s.out) : TaskInv p s.task s.sema s.client s.attempts
    (s.attempts ∈ out ∧ s.accepted < s.attempts) s.delivered s.results :=
  h.task.mono (And.imp_left (hout _)) fun _ hn => hn

theorem wire {m : PairMsg} (hout : s.outstanding = false) (hq : s.queue = m :: rest) :
    IpcPair.PairInv { s with queue := rest, outstanding := true, c2s := s.c2s ++ [m] } p := by
  have hcmd := h.cmd
  rw [hout, hq] at hcmd
  obtain ⟨hsent, hacked⟩ := hcmd.nil_of_idle
  have hack : m.isAck = false := hcmd.isAck.1 m (by simp)
  have hpkts : pkts (s.c2s ++ [m]) = pkts s.c2s ++ [m] := by simp [pkts_cons, hack]
  have hacks : acks (s.c2s ++ [m]) = acks s.c2s := by simp [acks_cons, hack]
  refine ⟨?_, ?_, h.sameTask ?_, h.resent⟩
  · show CmdInv p (pkts (s.c2s ++ [m])) _ rest true _ _
    rw [hpkts]
    exact hcmd.wire
  · show RspInv _ (s.cIsr.toList ++ acks (s.c2s ++ [m])) _ _ _
    rw [hacks]
    exact h.rsp
  · intro n hn
    simp only [IpcPair.out, hpkts, hsent, hacked, hq, List.nil_append, List.append_nil] at hn ⊢
    exact hn

theorem srvTxCmpl {m : PairMsg} (hc : s.c2s = m :: rest)
    (hack : m.isAck) : (IpcPair.srvTxCmpl { s with c2s := rest } m).PairInv p := by
  have hpkts : pkts s.c2s = pkts rest := by simp [hc, pkts_cons, hack]
  have hcmd := h.cmd
  have hrsp := h.rsp
  rw [hpkts] at hcmd
  rw [hc, acks_cons, if_pos hack] at hrsp
  obtain ⟨hr, hsend⟩ := hrsp.isRsp m (by simp)
  refine ⟨hcmd, ?_, h.sameTask ?_, h.resent⟩
  · show RspInv _ (s.cIsr.toList ++ acks rest) (s.server.txCmplHandler m.pkt).1 _ _
    rw [MbIpcSocket.txCmplHandler_rsp hr hsend]
    exact hrsp.done
  · intro n hn
    simpa [IpcPair.out, IpcPair.srvTxCmpl, hpkts] using hn

theorem srvRxCmd {m : PairMsg} (hisr : s.sIsr = none)
    (hc : s.c2s = m :: rest) (hack : m.isAck = false) (full : Bool) :
    (IpcPair.srvRxCmd { s with c2s := rest } m full).PairInv p := by
  have hacks : acks s.c2s = acks rest := by simp [hc, acks_cons, hack]
  have hpkts : pkts s.c2s = m :: pkts rest := by simp [hc, pkts_cons, hack]
  have hcmd := h.cmd
  have hrsp := h.rsp
  rw [hpkts, hisr, Option.toList_none, List.nil_append] at hcmd
  rw [hacks] at hrsp
  have hm := hcmd.isCmd m (by simp)
  have hlt := hcmd.fresh m (by simp)
  have hle := hcmd.le m (by simp)
  obtain ⟨hsent, hacked⟩ := hcmd.nil_of_sent
  cases hrx : s.server.rxInProcess with
  | true =>
    simp only [IpcPair.srvRxCmd, MbIpcSocket.rxCmdHandler_busy hrx, Bool.false_eq_true, if_false]
    refine ⟨hcmd.refuse .rxBusy, hrsp, h.sameTask ?_, h.resent⟩
    intro n hn
    simpa [IpcPair.out, PairMsg.ackOf, hpkts, hisr, hsent, hacked] using hn
  | false =>
    obtain ⟨ha, hcn, hrxTag⟩ := hrsp.socket
    have htag : s.server.rxTag ≠ m.pkt.tag := by
      intro he
      rw [hrxTag, hm.tag] at he
      have := tagOf_inj he (Nat.le_of_lt hlt) (by have := hcmd.window; omega)
      omega
    simp only [IpcPair.srvRxCmd, MbIpcSocket.rxCmdHandler_new hrx ha hcn hm.cmd htag, Bool.false_eq_true, if_false,
      if_true]
    refine ⟨hcmd.accept, hrsp.accept hrx hlt hm.rsp hm.tag hm.cmd,
      h.task.mono (And.imp ?_ (Nat.lt_trans hlt)) (fun _ hn => List.mem_append_left _ hn), h.resent⟩
    intro hn
    simpa [IpcPair.out, PairMsg.ackOf, hpkts, hisr, hsent, hacked] using hn

theorem srvAck {m : PairMsg} (hisr : s.sIsr = some m) :
    IpcPair.PairInv { s with sIsr := none, s2c := s.s2c ++ [m] } p := by
  have hcmd := h.cmd
  rw [hisr, Option.toList_some, List.singleton_append] at hcmd
  obtain ⟨-, -, hnil⟩ := hcmd.nil_of_acked (q := [])
  have hack : m.isAck := hcmd.isAck.2 m (by simp)
  have hacks : acks (s.s2c ++ [m]) = [m] := by simp [acks_cons, hnil, hack]
  have hpkts : pkts (s.s2c ++ [m]) = pkts s.s2c := by simp [pkts_cons, hack]
  rw [hnil] at hcmd
  refine ⟨?_, ?_, h.sameTask ?_, h.resent⟩
  · show CmdInv p _ (acks (s.s2c ++ [m])) _ _ _ _
    rw [hacks]
    exact hcmd
  · show RspInv (s.sQueue ++ pkts (s.s2c ++ [m])) _ _ _ _
    rw [hpkts]
    exact h.rsp
  · intro n hn
    simpa [IpcPair.out, hacks, hisr, hnil] using hn

theorem recv (buffLen : Nat) (crc8 : BitVec 8) (full : Bool) :
    (s.recv buffLen crc8 full).PairInv p := by
  obtain ⟨o, a, hsock⟩ := s.server.mbIpcRecvAsync_socket buffLen crc8
  have hread := h.rsp.read o a
  simp only [IpcPair.recv, hsock]
  split
  next hrsp =>
    obtain ⟨hrx, hnot⟩ := MbIpcSocket.mbIpcRecvAsync_rsp hrsp
    cases full with
    | true => exact ⟨h.cmd, hread.drop hnot, h.task, h.resent⟩
    | false => exact ⟨h.cmd, hread.answer hrx hnot, h.task, h.resent⟩
  next => exact ⟨h.cmd, hread, h.task, h.resent⟩

theorem srvWire {m : PairMsg} (hq : s.sQueue = m :: rest) :
    IpcPair.PairInv { s with sQueue := rest, s2c := s.s2c ++ [m] } p := by
  have hrsp := h.rsp
  rw [hq] at hrsp
  have hack : m.isAck = false := hrsp.isAck.1 m (by simp)
  have hacks : acks (s.s2c ++ [m]) = acks s.s2c := by simp [acks_cons, hack]
  have hpkts : rest ++ pkts (s.s2c ++ [m]) = rest ++ pkts s.s2c ++ [m] := by simp [pkts_cons, hack]
  refine ⟨?_, ?_, h.sameTask ?_, h.resent⟩
  · show CmdInv p _ (s.sIsr.toList ++ acks (s.s2c ++ [m])) _ _ _ _
    rw [hacks]
    exact h.cmd
  · show RspInv (rest ++ pkts (s.s2c ++ [m])) _ _ _ _
    rw [hpkts]
    exact hrsp.move
  · intro n hn
    simpa [IpcPair.out, hacks] using hn

theorem cliTxCmpl {m : PairMsg} (hs : s.s2c = m :: rest)
    (hack : m.isAck) : (IpcPair.cliTxCmpl { s with s2c := rest } m).PairInv p := by
  have hpkts : pkts s.s2c = pkts rest := by simp [hs, pkts_cons, hack]
  have hcmd := h.cmd
  have hrsp := h.rsp
  rw [hs, acks_cons, if_pos hack] at hcmd
  rw [hpkts] at hrsp
  have hm := hcmd.isCmd m (by simp)
  have hle := hcmd.le m (by simp)
  have hwin := hcmd.window
  obtain ⟨hsent, hsIsr, hacked⟩ := hcmd.nil_of_acked
  rcases s.client.txCmplHandler_cmd hm.rsp hm.comFail with he | ⟨r, he, hst, htag, hport⟩
  · simp only [IpcPair.cliTxCmpl, he, Bool.false_eq_true, if_false]
    refine ⟨hcmd.done, hrsp, h.sameTask ?_, h.resent⟩
    intro n hn
    simp only [IpcPair.out, hsent, hsIsr, hacked, List.nil_append] at hn
    simp [IpcPair.out, hsent, hsIsr, hs, acks_cons, hack, hacked, List.mem_map.1 hn]
  · -- the refused command is the last one: its number is above `accepted` and has the last tag
    obtain ⟨htask, hlast, hlate⟩ := h.task.task_of_srcPort (hport.trans hm.srcPort)
    have hbusy := hcmd.busy m (by simp) hst
    have hnum : m.num = s.attempts := by
      rw [hlast, hm.tag] at htag
      exact tagOf_inj htag.symm hle (by omega)
    have hsorted := hcmd.sorted
    simp only [hsent, hsIsr, hacked, List.nil_append, List.cons_append, List.map_cons, List.pairwise_cons] at hsorted
    have hsema : s.sema = 0 := hlate ⟨by simp [IpcPair.out, hs, acks_cons, hack, hnum], by omega⟩
    simp only [IpcPair.cliTxCmpl, he, if_true]
    refine ⟨hcmd.done, hrsp, h.task.post hsema htask nofun ?_, h.resent⟩
    rintro ⟨hmem, -⟩
    simp only [IpcPair.out, hsent, hsIsr, hacked, List.nil_append] at hmem
    have := hsorted.1 _ hmem
    omega

theorem accepted_eq {m : PairMsg} (hm : m ∈ s.sQueue ++ pkts s.s2c)
    (htag : s.client.txTag = m.pkt.tag) : s.accepted = s.attempts := by
  rw [h.task.socket.2.2, h.rsp.tag m hm] at htag
  exact tagOf_inj htag.symm h.cmd.window.1 h.cmd.window.2

theorem cliRxRsp {m : PairMsg} (hisr : s.cIsr = none)
    (hs : s.s2c = m :: rest) (hack : m.isAck = false) : (IpcPair.cliRxRsp { s with s2c := rest } m).PairInv p := by
  have hacks : acks s.s2c = acks rest := by simp [hs, acks_cons, hack]
  have hcmd := h.cmd
  have hrsp := h.rsp
  rw [hacks] at hcmd
  rw [hs, pkts_cons, hack, hisr, Option.toList_none, List.nil_append] at hrsp
  simp only [Bool.false_eq_true, if_false] at hrsp
  have hout : ∀ n ∈ (pkts s.c2s ++ (s.sIsr.toList ++ acks rest) ++ s.queue).map PairMsg.num, n ∈ s.out := by
    intro n hn
    simpa [IpcPair.out, hacks] using hn
  rcases s.client.rxRspHandler_cases m.pkt with ⟨st, he⟩ | ⟨st, he, htx, htag, -⟩
  · simp only [IpcPair.cliRxRsp, he, Bool.false_eq_true, if_false]
    exact ⟨hcmd, hrsp.take st, h.sameTask hout, h.resent⟩
  · obtain ⟨htask, hsema⟩ := h.task.task_of_inProcess htx
    have hacc : s.accepted = s.attempts := h.accepted_eq (by simp [hs, pkts_cons, hack]) htag
    obtain ⟨hrx, -⟩ := hrsp.of_mem (m := m) (by simp)
    obtain ⟨-, -, hdel⟩ := hrsp.rx hrx
    simp only [IpcPair.cliRxRsp, he, if_true]
    refine ⟨hcmd, hrsp.take .statusOk, h.task.post hsema htask (fun _ => hacc ▸ hdel) ?_, h.resent⟩
    rintro ⟨-, hlt⟩
    exact absurd hacc (Nat.ne_of_lt hlt)

theorem cliAck {m : PairMsg} (hisr : s.cIsr = some m) :
    IpcPair.PairInv { s with cIsr := none, c2s := s.c2s ++ [m] } p := by
  have hrsp := h.rsp
  rw [hisr, Option.toList_some, List.singleton_append] at hrsp
  have hack : m.isAck := hrsp.isAck.2 m (by simp)
  have hpkts : pkts (s.c2s ++ [m]) = pkts s.c2s := by simp [pkts_cons, hack]
  have hacks : acks (s.c2s ++ [m]) = acks s.c2s ++ [m] := by simp [acks_cons, hack]
  refine ⟨?_, ?_, h.sameTask ?_, h.resent⟩
  · show CmdInv p (pkts (s.c2s ++ [m])) _ _ _ _ _
    rw [hpkts]
    exact h.cmd
  · show RspInv _ (acks (s.c2s ++ [m])) _ _ _
    rw [hacks]
    exact hrsp.sendAck
  · intro n hn
    simpa [IpcPair.out, hpkts] using hn

theorem step {a : PairAct} (hok : TagFresh s a) (hs : s.step a = some s') : s'.PairInv p := by
  have htask := h.task
  cases step_cases hs with
  | send ht hc => rw [ht] at htask; exact ⟨h.cmd, h.rsp, htask.send hc, h.resent⟩
  | sendFails => exact h
  | clear ht => rw [ht] at htask; exact ⟨h.cmd, h.rsp, htask.clear, h.resent⟩
  | tx ht full => exact h.tx ht hok full
  | get ht hpos => rw [ht] at htask; exact ⟨h.cmd, h.rsp, htask.get hpos, h.resent⟩
  | ret ht =>
    rw [ht] at htask
    exact ⟨h.cmd, h.rsp, htask.finish ⟨nofun, nofun⟩ (htask.own (.inl rfl)), h.resent⟩
  | timeout ht _ => rw [ht] at htask; exact ⟨h.cmd, h.rsp, htask.timeout, h.resent⟩
  | leave ht =>
    rw [ht] at htask
    exact ⟨h.cmd, h.rsp, htask.giveUp.finish ⟨nofun, nofun⟩ nofun, h.resent⟩
  | wire hout hq => exact h.wire hout hq
  | srvTxCmpl hc hack => exact h.srvTxCmpl hc hack
  | srvRxCmd hisr hc hack full => exact h.srvRxCmd hisr hc hack full
  | srvAck hisr => exact h.srvAck hisr
  | recv buffLen crc8 full => exact h.recv buffLen crc8 full
  | srvWire hq => exact h.srvWire hq
  | cliTxCmpl hc hack => exact h.cliTxCmpl hc hack
  | cliRxRsp hisr hc hack => exact h.cliRxRsp hisr hc hack
  | cliAck hisr => exact h.cliAck hisr

end

theorem of_run {s₀ : IpcPair} (h₀ : Connected k s₀) (hr : Run IpcPair.step TagFresh s₀ s) :
    s.PairInv s₀.client.srcPort :=
  hr.invariant (I := fun t => t.PairInv s₀.client.srcPort) (of_connected h₀) fun _ _ _ _ h hok hs => h.step hok hs

end IpcPair.PairInv

/-- If no tag comes back before the receiver has accepted a command, a send that returns 0 was passed to the application
once. -/
theorem send_ok_delivered_once {k : Nat} {s₀ s : IpcPair} (h₀ : Connected k s₀)
    (hr : Run IpcPair.step TagFresh s₀ s) :
    (∀ r ∈ s.results, r.2 = .txOk → s.delivered.count r.1 = 1) ∧ s.resent = [] := by
  have hinv := IpcPair.PairInv.of_run h₀ hr
  refine ⟨fun r hmem hok => ?_, hinv.resent⟩
  exact List.count_eq_one_of_mem hinv.rsp.nodup (hinv.task.results r hmem hok)

theorem send_ok_delivered_third : ∃ s, Run IpcPair.step TagFresh (.init 1) s ∧
    s.results = [(2, .txTimeout), (3, .routeFailed .rxBusy), (4, .txOk)] ∧
    (∀ r ∈ s.results, r.2 = .txOk → s.delivered.count r.1 = 1) ∧ s.resent = [] := by
  refine Run.of_exec_and [.send 0 4 0, .clear, .tx false, .wire, .srvRx false, .srvAck, .cliRx, .timeout, .leave,
    .send 0 4 0, .clear, .tx false, .wire, .srvRx false, .srvAck, .cliRx, .get, .ret,
    .recv 4 0 false, .srvWire, .cliRx, .cliAck, .srvRx false,
    .send 0 4 0, .clear, .tx false, .wire, .srvRx false, .srvAck, .cliRx, .recv 4 0 false, .srvWire, .cliRx,
    .get, .ret] (by decide) fun s hr _ => ?_
  exact send_ok_delivered_once (IpcPair.init_connected 1) hr

def IpcPair.afterRefusals (j : Nat) (results : List (Nat × MbIpcStatus)) : IpcPair :=
  { IpcPair.init 1 with
    attempts := j + 2
    client := { (IpcPair.init 1).client with
      txTag := tagOf (j + 2)
      txCmd := { cmd := .send, cmdDataLen := 4, dstPort := 1, srcPort := 16, srcCpu := 1, tag := tagOf (j + 2) } }
    results := results }

theorem IpcPair.run_afterRefusals (j : Nat) : ∃ results,
    Run IpcPair.step (fun _ _ => True) (.init 1) (.afterRefusals j results) := by
  induction j with
  | zero => exact ⟨_, exec_run (show exec IpcPair.step _ (.init 1) [.send 0 4 0, .clear, .tx true] = _ from rfl)⟩
  | succ j ih =>
    obtain ⟨results, hr⟩ := ih
    have hstep : exec IpcPair.step (fun _ _ => True) (.afterRefusals j results) [.send 0 4 0, .clear, .tx true] =
        some (.afterRefusals (j + 1) (results ++ [(j + 3, .routeFailed .queueFull)])) := by
      have htag : tagOf (j + 1 + 2) = tagOf (j + 2) + 1 := tagOf_succ (j + 2)
      simp only [afterRefusals, htag]
      rfl
    exact ⟨_, hr.trans (exec_run hstep)⟩

/-- Tag 1 comes back after 255 refused sends: command 257 is taken for command 1 and answered unseen. -/
theorem send_ok_not_delivered : ∃ s, Run IpcPair.step (fun _ _ => True) (.init 1) s ∧
    (257, .txOk) ∈ s.results ∧ s.delivered = [] ∧ s.resent = [257] := by
  obtain ⟨results, hr⟩ := IpcPair.run_afterRefusals 254
  have hrun : (exec IpcPair.step (fun _ _ => True) (.afterRefusals 254 results)
      [.send 0 4 0, .clear, .tx false, .wire, .srvRx false, .srvAck, .cliRx, .srvWire, .cliRx, .get, .ret]).map
      (fun s => (s.results, s.delivered, s.resent)) = some (results ++ [(257, .txOk)], [], [257]) := rfl
  obtain ⟨s, he, hs⟩ := Option.map_eq_some_iff.1 hrun
  simp only [Prod.mk.injEq] at hs
  obtain ⟨hres, hdel, hresent⟩ := hs
  exact ⟨s, hr.trans (exec_run he), by simp [hres], hdel, hresent⟩

end Bk7258

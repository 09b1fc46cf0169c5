import Bk7258.Flash.Client

/-!
# Write and erase requests

`bk_flash_erase_sector`, `bk_flash_erase_fast` and `flash_write_bytes` make one exchange with the flash server, an
`Xchg`; `bk_flash_write_bytes` cuts its range into requests of 512 bytes and one last request for what is left, which
may be empty. A late answer to an earlier request is taken for the answer to this one when the command codes are the
same. In `flash_cmd_t` an address has 24 bits and a length 16.
-/

namespace Bk7258
open Lts

structure FlashReq where
  cmd : FlashCmd
  data : List UInt8 := []
  crc : UInt32 := 0
deriving DecidableEq, Repr

/-- How an exchange ends: `mb_ipc_send` fails, `mb_ipc_recv` does not return a `flash_cmd_t`, or there is an answer. -/
inductive FlashReply
  | sendFail
  | recvFail
  | answer (userCmd : FlashUserCmd) (retStatus : Int)
deriving DecidableEq, Repr

def FlashReply.check (c : FlashUserCmd) : FlashReply → FlashErr
  | .sendFail => .fail
  | .recvFail => .fail
  | .answer userCmd retStatus => if userCmd ≠ c then .fail else if retStatus ≠ 0 then .fail else .ok

/-! ## One exchange -/

inductive XchgPc
  | init
  | discard
  | send
  | recv
  | ret (e : FlashErr)
deriving DecidableEq, Repr

/-- The socket, the requests the server has not answered, oldest first, and those it has carried out -/
structure Xchg where
  pc : XchgPc
  inbox : Option (FlashUserCmd × Int)
  server : List FlashReq
  done : List FlashReq
deriving DecidableEq, Repr

inductive XchgAct
  | init (ok : Bool)
  | discard (again : Bool)
  | send (r : FlashSend)
  | recv (ok : Bool)
  | recvTimeout
  /-- The server answers its oldest request; it has carried it out when `retStatus` is 0, and nothing of it
  otherwise. -/
  | serve (retStatus : Int)
deriving DecidableEq, Repr

def XchgAct.InTime : XchgAct → Prop
  | .init ok => ok = true
  | .discard _ => True
  | .send r => r = .ok
  | .recv ok => ok = true
  | .recvTimeout => False
  | .serve _ => True

namespace Xchg
variable (r : FlashReq)

def ret (s : Xchg) (reply : FlashReply) : Xchg := { s with pc := .ret (reply.check r.cmd.userCmd) }

def sendStep (s : Xchg) : FlashSend → Xchg
  | .ok => { s with server := s.server ++ [r], pc := .recv }
  | .lost => s.ret r .sendFail
  | .timeout => { s.ret r .sendFail with server := s.server ++ [r] }

def step (s : Xchg) : XchgAct → Option Xchg
  | .init ok => if s.pc = .init then some { s with pc := if ok then .discard else .ret .fail } else none
  | .discard again =>
    if s.pc = .discard then some { s with inbox := none, pc := if again then .discard else .send } else none
  | .send k => if s.pc = .send then some (s.sendStep r k) else none
  | .recv ok =>
    if s.pc = .recv then
      s.inbox.map fun a => { s with inbox := none }.ret r (if ok then .answer a.1 a.2 else .recvFail)
    else none
  | .recvTimeout => if s.pc = .recv ∧ s.inbox = none then some (s.ret r .recvFail) else none
  | .serve retStatus =>
    match s.inbox, s.server with
    | none, c :: cs =>
      some { s with
        inbox := some (c.cmd.userCmd, retStatus)
        server := cs
        done := if retStatus = 0 then s.done ++ [c] else s.done }
    | _, _ => none

structure Answered (done : List FlashReq) (retStatus : Int) (s : Xchg) : Prop where
  server : s.server = []
  done_eq : s.done = if retStatus = 0 then done ++ [r] else done

/-- What an exchange in time that finds nothing outstanding has done so far -/
def Own (done : List FlashReq) (s : Xchg) : Prop :=
  match s.pc with
  | .recv =>
    s.inbox = none ∧ s.server = [r] ∧ s.done = done ∨
      ∃ st, s.inbox = some (r.cmd.userCmd, st) ∧ s.Answered r done st
  | .ret e =>
    s.inbox = none ∧ ∃ st, e = (FlashReply.answer r.cmd.userCmd st).check r.cmd.userCmd ∧ s.Answered r done st
  | _ => s.inbox = none ∧ s.server = [] ∧ s.done = done

variable {r : FlashReq} {done : List FlashReq} {s t : Xchg}

theorem Own.serve {retStatus : Int} (h : s.Own r done) (hs : s.step r (.serve retStatus) = some t) : t.Own r done := by
  obtain ⟨pc, inbox, server, d⟩ := s
  cases inbox with
  | some a => cases hs
  | none =>
    cases server with
    | nil => cases hs
    | cons c cs =>
      cases hs
      -- a request is with the server only while its answer is waited for
      cases pc with
      | init | discard | send => exact absurd h.2.1 (List.cons_ne_nil _ _)
      | recv =>
        rcases h with ⟨-, hsrv, hd⟩ | ⟨st, hin, -⟩
        · cases hsrv
          cases hd
          exact .inr ⟨retStatus, rfl, rfl, rfl⟩
        · cases hin
      | ret e =>
        obtain ⟨-, st, -, ha⟩ := h
        exact absurd ha.server (List.cons_ne_nil _ _)

theorem Own.step {l : XchgAct} (hl : l.InTime) (h : s.Own r done) (hs : s.step r l = some t) : t.Own r done := by
  cases l with
  | serve st => exact h.serve hs
  | init ok =>
    obtain ⟨hpc, hs⟩ := Option.ite_none_right_eq_some.1 hs
    cases hs
    unfold Own at h
    rw [hpc] at h
    cases ok with
    | true => exact h
    | false => exact absurd hl Bool.false_ne_true
  | discard again =>
    obtain ⟨hpc, hs⟩ := Option.ite_none_right_eq_some.1 hs
    cases hs
    unfold Own at h
    rw [hpc] at h
    cases again with
    | true | false => exact ⟨rfl, h.2⟩
  | send k =>
    obtain ⟨hpc, hs⟩ := Option.ite_none_right_eq_some.1 hs
    cases hs
    unfold Own at h
    rw [hpc] at h
    obtain ⟨hin, hsrv, hd⟩ := h
    cases k with
    | ok => exact .inl ⟨hin, by rw [sendStep, hsrv, List.nil_append], hd⟩
    | lost | timeout => exact absurd hl FlashSend.noConfusion
  | recv ok =>
    obtain ⟨hpc, hs⟩ := Option.ite_none_right_eq_some.1 hs
    obtain ⟨a, ha, rfl⟩ := Option.map_eq_some_iff.1 hs
    unfold Own at h
    rw [hpc] at h
    -- the only answer there can be is the one to `r`
    rcases h with ⟨hin, -⟩ | ⟨st, hin, hans⟩
    · rw [hin] at ha
      cases ha
    · rw [hin] at ha
      cases ha
      cases ok with
      | true => exact ⟨rfl, st, rfl, hans.server, hans.done_eq⟩
      | false => exact absurd hl Bool.false_ne_true
  | recvTimeout => exact hl.elim

def idle (pc : XchgPc) (done : List FlashReq) : Xchg := ⟨pc, none, [], done⟩

theorem check_own (c : FlashUserCmd) (st : Int) : (FlashReply.answer c st).check c = if st = 0 then .ok else .fail := by
  by_cases h : st = 0 <;> simp [FlashReply.check, h]

/-- What an exchange takes for its own answer is the answer to a request `P` holds of, when it holds of those that are
outstanding. -/
def Served (r : FlashReq) (P : FlashReq → Prop) (s : Xchg) : Prop :=
  (∀ q ∈ s.server, q.cmd.userCmd = r.cmd.userCmd → P q) ∧
  match s.pc with
  | .send | .recv => s.inbox = some (r.cmd.userCmd, 0) → ∃ q ∈ s.done, P q
  | .ret e => e = .ok → ∃ q ∈ s.done, P q
  | _ => True

theorem Served.serve {P : FlashReq → Prop} {retStatus : Int} (h : s.Served r P)
    (hs : s.step r (.serve retStatus) = some t) : t.Served r P := by
  obtain ⟨pc, inbox, server, d⟩ := s
  cases inbox with
  | some a => cases hs
  | none =>
    cases server with
    | nil => cases hs
    | cons c cs =>
      cases hs
      obtain ⟨hsrv, hpc⟩ := h
      refine ⟨fun q hq => hsrv q (List.mem_cons_of_mem _ hq), ?_⟩
      have hnew : some (c.cmd.userCmd, retStatus) = some (r.cmd.userCmd, 0) →
          ∃ q ∈ if retStatus = 0 then d ++ [c] else d, P q := fun hin => by
        obtain ⟨hcmd, rfl⟩ := Prod.mk.inj (Option.some.inj hin)
        exact ⟨c, by simp, hsrv c List.mem_cons_self hcmd⟩
      cases pc with
      | init | discard => trivial
      | send | recv => exact hnew
      | ret e =>
        intro he
        obtain ⟨q, hq, hP⟩ := hpc he
        refine ⟨q, ?_, hP⟩
        split
        · exact List.mem_append_left _ hq
        · exact hq

theorem Served.step {P : FlashReq → Prop} (hr : P r) {l : XchgAct} (h : s.Served r P) (hs : s.step r l = some t) :
    t.Served r P := by
  cases l with
  | serve st => exact h.serve hs
  | init ok =>
    obtain ⟨hpc, hs⟩ := Option.ite_none_right_eq_some.1 hs
    cases hs
    cases ok with
    | true => exact ⟨h.1, trivial⟩
    | false => exact ⟨h.1, fun he => FlashErr.noConfusion he⟩
  | discard again =>
    obtain ⟨hpc, hs⟩ := Option.ite_none_right_eq_some.1 hs
    cases hs
    cases again with
    | true => exact ⟨h.1, trivial⟩
    | false => exact ⟨h.1, fun hin => absurd hin.symm (Option.some_ne_none _)⟩
  | send k =>
    obtain ⟨hpc, hs⟩ := Option.ite_none_right_eq_some.1 hs
    cases hs
    unfold Served at h
    rw [hpc] at h
    have hsrv : ∀ q ∈ s.server ++ [r], q.cmd.userCmd = r.cmd.userCmd → P q := by
      intro q hq
      rcases List.mem_append.1 hq with hq | hq
      · exact h.1 q hq
      · rw [List.mem_singleton.1 hq]
        exact fun _ => hr
    cases k with
    | ok => exact ⟨hsrv, h.2⟩
    | lost => exact ⟨h.1, fun he => FlashErr.noConfusion he⟩
    | timeout => exact ⟨hsrv, fun he => FlashErr.noConfusion he⟩
  | recv ok =>
    obtain ⟨hpc, hs⟩ := Option.ite_none_right_eq_some.1 hs
    obtain ⟨a, ha, rfl⟩ := Option.map_eq_some_iff.1 hs
    unfold Served at h
    rw [hpc] at h
    refine ⟨h.1, fun he => ?_⟩
    cases ok with
    | false => cases he
    | true =>
      unfold FlashReply.check at he
      simp only [if_true] at he
      split at he
      · cases he
      split at he
      · cases he
      rename_i hcmd hst
      refine h.2 ?_
      rw [ha, ← Decidable.not_not.1 hcmd, ← Decidable.not_not.1 hst]
  | recvTimeout =>
    obtain ⟨hpc, hs⟩ := Option.ite_none_right_eq_some.1 hs
    cases hs
    exact ⟨h.1, fun he => FlashErr.noConfusion he⟩

theorem ok_served {P : FlashReq → Prop} (hr : P r) {inbox : Option (FlashUserCmd × Int)} {server : List FlashReq}
    (hserver : ∀ q ∈ server, q.cmd.userCmd = r.cmd.userCmd → P q)
    (h : Run (step r) (fun _ _ => True) ⟨.init, inbox, server, []⟩ s) (hret : s.pc = .ret .ok) : ∃ q ∈ s.done, P q := by
  have hI := h.invariant (I := Served r P) ⟨hserver, trivial⟩ fun t u l _ ht _ hs => ht.step hr hs
  unfold Served at hI
  rw [hret] at hI
  exact hI.2 rfl

/-- Answers that arrive before the request is sent are thrown away. -/
theorem run_discard (inbox : Option (FlashUserCmd × Int)) (before server : List FlashReq) :
    Run (step r) (fun _ _ => True) ⟨.discard, inbox, before ++ server, []⟩ ⟨.discard, none, server, []⟩ := by
  induction before generalizing inbox with
  | nil => exact .tail .refl (l := .discard true) trivial rfl
  | cons c cs ih =>
    have hserve : Run (step r) (fun _ _ => True) ⟨.discard, inbox, c :: (cs ++ server), []⟩
        ⟨.discard, some (c.cmd.userCmd, 1), cs ++ server, []⟩ :=
      .tail (.tail .refl (l := .discard true) trivial rfl) (l := .serve 1) trivial rfl
    exact hserve.trans (ih _)

/-- Each request with the command of `r` that is outstanding may be the only one that is carried out. -/
theorem run_answer (inbox : Option (FlashUserCmd × Int)) (before : List FlashReq) {server rest : List FlashReq}
    {q : FlashReq} (hq : q.cmd.userCmd = r.cmd.userCmd) (hserver : server ++ [r] = q :: rest) :
    ∃ s, Run (step r) (fun _ _ => True) ⟨.init, inbox, before ++ server, []⟩ s ∧ s.pc = .ret .ok ∧ s.done = [q] := by
  have hinit : Run (step r) (fun _ _ => True) ⟨.init, inbox, before ++ server, []⟩
      ⟨.discard, inbox, before ++ server, []⟩ := .tail .refl (l := .init true) trivial rfl
  have hsend : Run (step r) (fun _ _ => True) ⟨.discard, none, server, []⟩ ⟨.recv, none, server ++ [r], []⟩ :=
    .tail (.tail .refl (l := .discard false) trivial rfl) (l := .send .ok) trivial rfl
  have hrecv : Run (step r) (fun _ _ => True) ⟨.recv, none, q :: rest, []⟩
      ⟨.ret ((FlashReply.answer q.cmd.userCmd 0).check r.cmd.userCmd), none, rest, [q]⟩ :=
    .tail (.tail .refl (l := .serve 0) trivial rfl) (l := .recv true) trivial rfl
  rw [hserver] at hsend
  refine ⟨_, (hinit.trans (run_discard inbox before server)).trans (hsend.trans hrecv), ?_, rfl⟩
  rw [hq, check_own, if_pos rfl]

end Xchg

/-! ## Erase requests -/

def eraseSectorReq (address : UInt32) : FlashReq := ⟨⟨.eraseSector, address.toNat % 0x1000000, 0⟩, [], 0⟩

def eraseFastReq (eraseOff len : UInt32) : FlashReq :=
  ⟨⟨.fastErase, eraseOff.toNat % 0x1000000, len.toNat % 0x10000⟩, [], 0⟩

def bkFlashEraseFast (eraseOff len : UInt32) : Xchg → XchgAct → Option Xchg := Xchg.step (eraseFastReq eraseOff len)

/-- The bytes a request erases, when the server does what it is asked for -/
def FlashReq.Erases (r : FlashReq) (a : Nat) : Prop :=
  match r.cmd.userCmd with
  | .eraseSector => a / 0x1000 = r.cmd.addr / 0x1000
  | .fastErase => r.cmd.addr ≤ a ∧ a < r.cmd.addr + r.cmd.len
  | _ => False

def FlashReq.Covers (r : FlashReq) (eraseOff len : UInt32) : Prop :=
  r.cmd.addr ≤ eraseOff.toNat ∧ eraseOff.toNat + len.toNat ≤ r.cmd.addr + r.cmd.len

instance (r : FlashReq) (eraseOff len : UInt32) : Decidable (r.Covers eraseOff len) :=
    inferInstanceAs (Decidable (_ ∧ _))

theorem FlashReq.covers_of_erases {r : FlashReq} {eraseOff len : UInt32} (hr : r.cmd.userCmd = .fastErase)
    (hlen : len ≠ 0) (h : ∀ a, eraseOff.toNat ≤ a → a < eraseOff.toNat + len.toNat → r.Erases a) :
    r.Covers eraseOff len := by
  have hpos : len.toNat ≠ 0 := fun h => hlen (UInt32.toNat_inj.1 h)
  have hfirst := h eraseOff.toNat (Nat.le_refl _) (by omega)
  have hlast := h (eraseOff.toNat + len.toNat - 1) (by omega) (by omega)
  unfold FlashReq.Erases at hfirst hlast
  rw [hr] at hfirst hlast
  exact ⟨hfirst.1, by omega⟩

/-- A fast erase that returns `BK_OK` has erased its range, if and only if that is less than 64 KB and each fast erase
that is outstanding when it begins is about the range too. -/
theorem eraseFast_erases {eraseOff len : UInt32} (hend : eraseOff.toNat + len.toNat ≤ 0x1000000)
    (inbox : Option (FlashUserCmd × Int)) (server : List FlashReq) :
    (∀ s, Run (bkFlashEraseFast eraseOff len) (fun _ _ => True) ⟨.init, inbox, server, []⟩ s → s.pc = .ret .ok →
      ∀ a, eraseOff.toNat ≤ a → a < eraseOff.toNat + len.toNat → ∃ r ∈ s.done, r.Erases a) ↔
    len = 0 ∨ len.toNat ≤ 0xFFFF ∧ ∀ r ∈ server, r.cmd.userCmd = .fastErase → r.Covers eraseOff len := by
  constructor
  · intro h
    by_cases hlen : len = 0
    · exact .inl hlen
    -- a request that is the only one carried out has to be about the whole range
    have honly (before rest : List FlashReq) (server' : List FlashReq) (q : FlashReq) (hs : server = before ++ server')
        (hq : q.cmd.userCmd = .fastErase) (hserver : server' ++ [eraseFastReq eraseOff len] = q :: rest) :
        q.Covers eraseOff len := by
      obtain ⟨s, hrun, hret, hdone⟩ := Xchg.run_answer inbox before hq hserver
      refine FlashReq.covers_of_erases hq hlen fun a ha ha' => ?_
      obtain ⟨r, hr, he⟩ := h s (hs ▸ hrun) hret a ha ha'
      rw [hdone, List.mem_singleton] at hr
      rwa [← hr]
    refine .inr ⟨?_, fun q hq hcmd => ?_⟩
    · have hown := (honly server [] [] (eraseFastReq eraseOff len) (List.append_nil _).symm rfl rfl).2
      have hmod : eraseOff.toNat + len.toNat ≤ eraseOff.toNat % 0x1000000 + len.toNat % 0x10000 := hown
      omega
    · obtain ⟨before, after, hs⟩ := List.append_of_mem hq
      exact honly before _ (q :: after) q hs hcmd rfl
  · rintro (rfl | ⟨hlen, hserver⟩) s hrun hret a ha ha'
    · exact absurd ha' (Nat.not_lt.2 ha)
    have hown : (eraseFastReq eraseOff len).Covers eraseOff len := by
      show eraseOff.toNat % 0x1000000 ≤ eraseOff.toNat ∧
        eraseOff.toNat + len.toNat ≤ eraseOff.toNat % 0x1000000 + len.toNat % 0x10000
      omega
    obtain ⟨q, hq, hcmd, hcov⟩ := Xchg.ok_served (P := fun q => q.cmd.userCmd = .fastErase ∧ q.Covers eraseOff len)
      ⟨rfl, hown⟩ (fun q hq hcmd => ⟨hcmd, hserver q hq hcmd⟩) hrun hret
    refine ⟨q, hq, ?_⟩
    unfold FlashReq.Erases
    rw [hcmd]
    exact ⟨Nat.le_trans hcov.1 ha, Nat.lt_of_lt_of_le ha' hcov.2⟩

theorem eraseFast_erases_run :
    ∃ s, Run (bkFlashEraseFast 0x1000 0x2000) (fun _ _ => True)
        ⟨.init, none, [eraseSectorReq 0x8000, eraseFastReq 0x1000 0x4000], []⟩ s ∧ s.pc = .ret .ok ∧
      ∀ a, 0x1000 ≤ a → a < 0x3000 → ∃ r ∈ s.done, r.Erases a := by
  refine Run.of_exec_and [.init true, .serve 0, .discard false, .send .ok, .serve 0, .recv true] (by decide) ?_
  exact (eraseFast_erases (by decide) none [eraseSectorReq 0x8000, eraseFastReq 0x1000 0x4000]).2
    (.inr ⟨by decide, by decide⟩)

/-- 64 KB are sent as length 0, and nothing is erased. The second call takes the late answer to an earlier erase for its
own. -/
theorem eraseFast_short :
    (∃ s, Run (bkFlashEraseFast 0 0x10000) (fun _ _ => True) (Xchg.idle .init []) s ∧ s.pc = .ret .ok ∧
      ∀ a, ¬ ∃ r ∈ s.done, r.Erases a) ∧
    ∃ s, Run (bkFlashEraseFast 0x4000 0x1000) (fun _ _ => True) ⟨.init, none, [eraseFastReq 0 0x1000], []⟩ s ∧
      s.pc = .ret .ok ∧ ∀ a, 0x4000 ≤ a → ¬ ∃ r ∈ s.done, r.Erases a := by
  constructor
  · refine Run.of_exec_imp (p := fun s => s.pc = .ret .ok ∧ s.done = [⟨⟨.fastErase, 0, 0⟩, [], 0⟩])
      [.init true, .discard false, .send .ok, .serve 0, .recv true] (by decide) fun s _ ⟨hret, hd⟩ => ?_
    refine ⟨hret, fun a ⟨r, hr, he⟩ => ?_⟩
    rw [hd, List.mem_singleton] at hr
    subst hr
    exact absurd he.2 (Nat.not_lt_zero a)
  · refine Run.of_exec_imp (p := fun s => s.pc = .ret .ok ∧ s.done = [eraseFastReq 0 0x1000])
      [.init true, .discard false, .send .ok, .serve 0, .recv true] (by decide) fun s _ ⟨hret, hd⟩ => ?_
    refine ⟨hret, fun a ha ⟨r, hr, he⟩ => ?_⟩
    rw [hd, List.mem_singleton] at hr
    subst hr
    have hlt : a < 0 + 0x1000 := he.2
    omega

/-! ## Writing -/

abbrev FlashReqM := StateM (List (FlashReq × FlashReply))

def flashIpcWriteSize : Nat := 0x200

section
variable (reply : Nat → FlashReply)

def exchange (r : FlashReq) : FlashReqM FlashErr := fun log =>
  ((reply log.length).check r.cmd.userCmd, log ++ [(r, reply log.length)])

def writeReq (address : Nat) (userBuf : Nat → UInt8) (size : Nat) : FlashReq :=
  let data := (List.range size).map userBuf
  ⟨⟨.write, address % 0x1000000, size % 0x10000⟩, data, calcCrc32 0 data⟩

def flashWriteBytes (address : Nat) (userBuf : Nat → UInt8) (size : Nat) : FlashReqM FlashErr := do
  if size > 0xFFFF then return .fail
  exchange reply (writeReq address userBuf size)

/-- The loop of `bk_flash_write_bytes` and the request after it; `address + wr_len` is a `uint32_t`. -/
def writeLoop (address : Nat) (userBuf : Nat → UInt8) (wrLen size : Nat) : FlashReqM FlashErr := do
  if size > flashIpcWriteSize then
    let ret ← flashWriteBytes reply ((address + wrLen) % 0x100000000) (fun i => userBuf (wrLen + i)) flashIpcWriteSize
    if ret ≠ .ok then return ret
    writeLoop address userBuf (wrLen + flashIpcWriteSize) (size - flashIpcWriteSize)
  else flashWriteBytes reply ((address + wrLen) % 0x100000000) (fun i => userBuf (wrLen + i)) size
termination_by size
decreasing_by simp only [flashIpcWriteSize] at *; omega

def bkFlashWriteBytes (inited : Bool) (address : UInt32) (userBuf : Nat → UInt8) (size : UInt32) :
    FlashReqM FlashErr := do
  if !inited then return .fail
  writeLoop reply address.toNat userBuf 0 size.toNat

end

def FlashReq.writes (r : FlashReq) : List (Nat × UInt8) :=
  (List.range r.cmd.len).map fun i => (r.cmd.addr + i, r.data.getD i 0)

/-- The bytes that are written when the server does as it is asked, or refuses a request as a whole -/
def written (log : List (FlashReq × FlashReply)) : List (Nat × UInt8) :=
  log.flatMap fun x => if x.2 = .answer .write 0 then x.1.writes else []

def bufferWrites (address : Nat) (userBuf : Nat → UInt8) (n : Nat) : List (Nat × UInt8) :=
  (List.range n).map fun i => (address + i, userBuf i)

theorem FlashReqM.bind_run {α β : Type} (x : FlashReqM α) (f : α → FlashReqM β) (log : List (FlashReq × FlashReply)) :
    (x >>= f) log = f (x log).1 (x log).2 := rfl

theorem bufferWrites_add (address : Nat) (userBuf : Nat → UInt8) (m n : Nat) : bufferWrites address userBuf (m + n) =
      bufferWrites address userBuf m ++ bufferWrites (address + m) (fun i => userBuf (m + i)) n := by
  simp only [bufferWrites, List.range_add, List.map_append, List.map_map]
  congr 1
  apply List.map_congr_left
  intro i _
  simp only [Function.comp, Nat.add_assoc]

theorem writes_writeReq {address size : Nat} (userBuf : Nat → UInt8) (hend : address + size ≤ 0x1000000)
    (hsize : size ≤ 0xFFFF) :
    (writeReq (address % 0x100000000) userBuf size).writes = bufferWrites address userBuf size := by
  simp only [FlashReq.writes, writeReq, bufferWrites, Nat.mod_eq_of_lt (show size < 0x10000 by omega)]
  apply List.map_congr_left
  intro i hi
  rw [List.mem_range] at hi
  have hget : ((List.range size).map userBuf).getD i 0 = userBuf i := by
    simp [List.getD_eq_getElem?_getD, hi]
  rw [hget]
  congr 1
  omega

theorem written_append (log log' : List (FlashReq × FlashReply)) :
    written (log ++ log') = written log ++ written log' :=
  List.flatMap_append

/-- How a write of `size` bytes ends that starts with the `k`-th request: `n` bytes are written by `m` requests. -/
inductive WriteEnd (status : Nat → Int) (k size : Nat) : FlashErr → (n m : Nat) → Prop
  | whole {m : Nat} (hacc : ∀ i < m, status (k + i) = 0) (hm : m = (size - 1) / flashIpcWriteSize + 1) :
      WriteEnd status k size .ok size m
  | refused {j : Nat} (hacc : ∀ i < j, status (k + i) = 0) (href : status (k + j) ≠ 0)
      (hj : j = 0 ∨ j * flashIpcWriteSize < size) : WriteEnd status k size .fail (j * flashIpcWriteSize) (j + 1)

section
variable {status : Nat → Int} {address : Nat}

def answers (status : Nat → Int) (k : Nat) : FlashReply := .answer .write (status k)

theorem flashWriteBytes_run (status : Nat → Int) {address size : Nat} (userBuf : Nat → UInt8)
    (log : List (FlashReq × FlashReply)) (hend : address + size ≤ 0x1000000) (hsize : size ≤ 0xFFFF) :
    ∃ x, flashWriteBytes (answers status) (address % 0x100000000) userBuf size log =
        (if status log.length = 0 then .ok else .fail, log ++ [x]) ∧
      written [x] = if status log.length = 0 then bufferWrites address userBuf size else [] := by
  refine ⟨(writeReq (address % 0x100000000) userBuf size, answers status log.length), ?_, ?_⟩
  · unfold flashWriteBytes
    rw [if_neg (Nat.not_lt.2 hsize)]
    exact Prod.ext (Xchg.check_own .write _) rfl
  · by_cases hst : status log.length = 0
    · simp [written, answers, hst, writes_writeReq userBuf hend hsize]
    · simp [written, answers, hst]

theorem WriteEnd.cons {k size n m : Nat} {e : FlashErr} (hst : status k = 0) (hsize : flashIpcWriteSize < size)
    (h : WriteEnd status (k + 1) (size - flashIpcWriteSize) e n m) :
    WriteEnd status k size e (flashIpcWriteSize + n) (m + 1) := by
  have hacc {b : Nat} (hb : ∀ i < b, status (k + 1 + i) = 0) : ∀ i < b + 1, status (k + i) = 0 := by
    intro i hi
    cases i with
    | zero => exact hst
    | succ i => rw [← Nat.succ_add_eq_add_succ]; exact hb i (by omega)
  cases h with
  | whole hb hm =>
    rw [Nat.add_sub_cancel' (Nat.le_of_lt hsize)]
    refine .whole (hacc hb) ?_
    rw [flashIpcWriteSize] at *
    omega
  | @refused j hb href hj =>
    have he : flashIpcWriteSize + j * flashIpcWriteSize = (j + 1) * flashIpcWriteSize := by
      rw [Nat.succ_mul, Nat.add_comm]
    rw [he]
    refine .refused (hacc hb) ?_ (.inr ?_)
    · rw [← Nat.succ_add_eq_add_succ]; exact href
    · rcases hj with rfl | hj
      · omega
      · omega

theorem WriteEnd.at_once {k size : Nat} (hst : status k ≠ 0) : WriteEnd status k size .fail 0 1 := by
  rw [← Nat.zero_mul flashIpcWriteSize]
  exact .refused (fun i hi => absurd hi (Nat.not_lt_zero i)) hst (.inl rfl)

theorem writeLoop_run (status : Nat → Int) (userBuf : Nat → UInt8) (log : List (FlashReq × FlashReply))
    (wrLen size : Nat)
    (hend : address + wrLen + size ≤ 0x1000000) :
    ∃ e new n, writeLoop (answers status) address userBuf wrLen size log = (e, log ++ new) ∧
      WriteEnd status log.length size e n new.length ∧
      written new = bufferWrites (address + wrLen) (fun i => userBuf (wrLen + i)) n := by
  -- the loop goes on after an accepted request, at the next 512 bytes
  induction hs : size using Nat.strongRecOn generalizing wrLen size log with
  | _ _ ih =>
    subst hs
    rw [writeLoop]
    by_cases hlt : size > flashIpcWriteSize
    · obtain ⟨x, hx, hw⟩ := flashWriteBytes_run status (fun i => userBuf (wrLen + i)) log
        (show address + wrLen + flashIpcWriteSize ≤ 0x1000000 by omega) (by decide)
      rw [if_pos hlt, FlashReqM.bind_run, hx]
      by_cases hst : status log.length = 0
      · rw [if_pos hst] at hw
        obtain ⟨e, new, n, hr, he, hn⟩ := ih (size - flashIpcWriteSize) (by rw [flashIpcWriteSize] at *; omega)
          (log ++ [x]) (wrLen + flashIpcWriteSize) (size - flashIpcWriteSize) (by omega) rfl
        refine ⟨e, x :: new, flashIpcWriteSize + n, ?_, ?_, ?_⟩
        · simp only [if_pos hst, ne_eq, not_true_eq_false, if_false, hr, List.append_assoc, List.singleton_append]
        · rw [List.length_append] at he
          exact he.cons hst hlt
        · rw [← List.singleton_append, written_append, hw, hn, bufferWrites_add]
          simp only [Nat.add_assoc]
      · rw [if_neg hst] at hw
        refine ⟨.fail, [x], 0, ?_, .at_once hst, hw⟩
        simp only [if_neg hst]
        rfl
    · obtain ⟨x, hx, hw⟩ := flashWriteBytes_run status (fun i => userBuf (wrLen + i)) log hend
        (by rw [flashIpcWriteSize] at hlt; omega)
      rw [if_neg hlt, hx]
      by_cases hst : status log.length = 0
      · rw [if_pos hst] at hw ⊢
        refine ⟨.ok, [x], size, rfl, .whole (fun i hi => ?_) ?_, hw⟩
        · rw [Nat.lt_one_iff.1 hi]
          exact hst
        · rw [flashIpcWriteSize] at *
          rw [List.length_singleton]
          omega
      · rw [if_neg hst] at hw ⊢
        exact ⟨.fail, [x], 0, rfl, .at_once hst, hw⟩

/-- The front of the range is written in ascending order, each byte once, up to the first refused request. For an empty
range there is one request too. -/
theorem bkFlashWriteBytes_writes (status : Nat → Int) {address size : UInt32} (userBuf : Nat → UInt8)
    (hend : address.toNat + size.toNat ≤ 0x1000000) :
    bkFlashWriteBytes (answers status) false address userBuf size [] = (.fail, []) ∧
    let r := bkFlashWriteBytes (answers status) true address userBuf size []
    ∃ n ≤ size.toNat, written r.2 = bufferWrites address.toNat userBuf n ∧
      (r.1 = .ok ↔ ∀ k < r.2.length, status k = 0) ∧
      (size ≠ 0 → (r.1 = .ok ↔ n = size.toNat)) ∧
      (r.1 ≠ .ok → ∃ k, status k ≠ 0 ∧ (∀ i < k, status i = 0) ∧ r.2.length = k + 1 ∧ n = k * flashIpcWriteSize) ∧
      (size = 0 → r.2.length = 1) := by
  refine ⟨rfl, ?_⟩
  obtain ⟨e, new, n, hr, he, hw⟩ := writeLoop_run status userBuf [] 0 size.toNat hend
  have hrun : bkFlashWriteBytes (answers status) true address userBuf size [] = (e, new) := hr
  have hzero : size = 0 ↔ size.toNat = 0 := by rw [← UInt32.toNat_inj]; rfl
  obtain ⟨m, hm⟩ : ∃ m, new.length = m := ⟨_, rfl⟩
  simp only [Nat.add_zero, Nat.zero_add] at hw
  simp only [List.length_nil, hm] at he
  simp only [hrun, hm]
  cases he with
  | whole hacc hlen =>
    simp only [Nat.zero_add] at hacc
    refine ⟨_, Nat.le_refl _, hw, iff_of_true rfl hacc, fun _ => iff_of_true rfl rfl,
      fun h => absurd rfl h, fun h => ?_⟩
    rw [hlen, hzero.1 h]
    rfl
  | @refused j hacc href hj =>
    simp only [Nat.zero_add] at hacc href
    have hj0 (h : size = 0) : j = 0 := hj.resolve_right (by rw [hzero.1 h]; exact Nat.not_lt_zero _)
    have hlt (h : size ≠ 0) : j * flashIpcWriteSize < size.toNat := by
      rcases hj with rfl | hj
      · rw [Nat.zero_mul]
        exact Nat.pos_of_ne_zero fun h' => h (hzero.2 h')
      · exact hj
    refine ⟨_, ?_, hw, ?_, fun h => ?_, fun _ => ⟨j, href, hacc, rfl, rfl⟩, fun h => by rw [hj0 h]⟩
    · by_cases h : size = 0
      · rw [hj0 h, Nat.zero_mul]
        exact Nat.zero_le _
      · exact Nat.le_of_lt (hlt h)
    · exact iff_of_false FlashErr.noConfusion fun h => href (h j (Nat.lt_succ_self j))
    · exact iff_of_false FlashErr.noConfusion (Nat.ne_of_lt (hlt h))

theorem bkFlashWriteBytes_writes_two :
    let r := bkFlashWriteBytes (answers fun k => if k = 1 then -1 else 0) true 0x1000 (fun i => i.toUInt8) 0x401 []
    ∃ n ≤ 0x401, written r.2 = bufferWrites 0x1000 (fun i => i.toUInt8) n ∧ (r.1 = .ok ↔ n = 0x401) := by
  obtain ⟨n, hn, hw, -, hok, -⟩ := (bkFlashWriteBytes_writes (fun k => if k = 1 then -1 else 0) (fun i => i.toUInt8)
    (show UInt32.toNat 0x1000 + UInt32.toNat 0x401 ≤ 0x1000000 by decide)).2
  exact ⟨n, hn, hw, hok (by decide)⟩

theorem bkFlashWriteBytes_empty_refused :
    let r := bkFlashWriteBytes (answers fun _ => -1) true 0x1000 (fun _ => 0) 0 []
    r.1 = .fail ∧ written r.2 = bufferWrites 0x1000 (fun _ => 0) 0 := by
  intro r
  have hr : r = (.fail, [(writeReq 0x1000 (fun _ => 0) 0, .answer .write (-1))]) := by
    show writeLoop _ _ _ _ _ _ = _
    rw [writeLoop]
    rfl
  rw [hr]
  exact ⟨rfl, rfl⟩

end

end Bk7258

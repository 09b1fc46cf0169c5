import Bk7258.Flash.Client

/-!
# When a flash read returns the bytes it was asked for

When a `FLASH_CMD_READ` is sent, no request for another address and the same length may be outstanding: not answered by
the server, or answered and not read.
-/

namespace Bk7258
open Lts

variable (flash : Nat → UInt8)

def ReadCall.Filled (c : ReadCall) (n : Nat) : Prop := ∀ i < n, c.userBuf i = flash (c.address + i)

structure ReadCall.Inv (c : ReadCall) : Prop where
  len : c.rdLen + c.size = c.bytes
  range : c.address + c.bytes ≤ 2 ^ 24
  filled : c.Filled flash c.rdLen

def ReadTask.Inv : ReadTask → Prop
  | .run c => c.Inv flash
  | .ret c .ok => c.Filled flash c.bytes
  | _ => True

section
variable {flash} {c : ReadCall}

theorem getElem?_flashBytes {addr len i : Nat} (h : i < len) :
    (flashBytes flash addr len)[i]? = some (flash (addr + i)) := by
  simp [flashBytes, h]

theorem ReadCall.chunk_le (c : ReadCall) : c.chunk ≤ c.size := by
  unfold chunk
  split <;> omega

theorem ReadCall.Inv.chunkAddr (h : c.Inv flash) (hc : 0 < c.chunk) : c.chunkAddr = c.address + c.rdLen := by
  have h1 := c.chunk_le
  have h2 := h.len
  have h3 := h.range
  have hlt : c.address + c.rdLen < 2 ^ 24 := by omega
  rw [ReadCall.chunkAddr, Nat.mod_eq_of_lt (Nat.lt_trans hlt (by decide)), Nat.mod_eq_of_lt hlt]

theorem ReadCall.memcpy_before (data : List UInt8) {i : Nat} (h : i < c.rdLen) :
    (c.memcpy data).userBuf i = c.userBuf i :=
  if_neg fun h' => absurd h'.1 (Nat.not_le.2 h)

theorem ReadCall.memcpy_chunk (data : List UInt8) {i : Nat} (h : i < c.chunk) :
    (c.memcpy data).userBuf (c.rdLen + i) = data.getD i 0 := by
  have hi : c.rdLen ≤ c.rdLen + i ∧ c.rdLen + i < c.rdLen + c.chunk := by omega
  show (if _ then _ else _) = _
  rw [if_pos hi, Nat.add_sub_cancel_left]

theorem ReadCall.Inv.memcpy (h : c.Inv flash) (data : List UInt8) : (c.memcpy data).Inv flash where
  len := h.len
  range := h.range
  filled i hi := (c.memcpy_before data hi).trans (h.filled i hi)

theorem ReadCall.Inv.filled_memcpy (h : c.Inv flash) :
    (c.memcpy (flashBytes flash c.chunkAddr c.chunk)).Filled flash (c.rdLen + c.chunk) := by
  intro i hi
  by_cases hlt : i < c.rdLen
  · rw [c.memcpy_before _ hlt]
    exact h.filled i hlt
  · obtain ⟨j, rfl⟩ := Nat.exists_eq_add_of_le (Nat.not_lt.1 hlt)
    have hj : j < c.chunk := by omega
    rw [c.memcpy_chunk _ hj, List.getD_eq_getElem?_getD, getElem?_flashBytes hj, h.chunkAddr (by omega)]
    show flash (c.address + c.rdLen + j) = flash (c.address + (c.rdLen + j))
    rw [Nat.add_assoc]

theorem ReadCall.Inv.failed (h : c.Inv flash) : c.failed.Inv flash := by
  unfold ReadCall.failed
  split
  · trivial
  · exact ⟨h.len, h.range, h.filled⟩

theorem ReadCall.Inv.done (h : c.Inv flash) (hf : c.Filled flash (c.rdLen + c.chunk)) : c.done.Inv flash := by
  have hlen := h.len
  unfold ReadCall.done
  unfold ReadCall.chunk at hf
  split
  · rename_i hs
    rw [if_pos hs] at hf
    refine ⟨?_, h.range, hf⟩
    show c.rdLen + flashIpcReadSize + (c.size - flashIpcReadSize) = c.bytes
    omega
  · rename_i hs
    rw [if_neg hs, hlen] at hf
    exact hf

end

namespace FlashSys

variable {T : Type}

def Alone (s : FlashSys T) (c : ReadCall) : Prop :=
  ∀ r ∈ s.outstanding, r.userCmd = .read → r.len = c.chunk → r.addr = c.chunkAddr

instance (s : FlashSys T) (c : ReadCall) : Decidable (s.Alone c) :=
  inferInstanceAs (Decidable (∀ r ∈ s.outstanding, _ → _ → _))

def sending (s : FlashSys T) : Option ReadCall :=
  match s.mutex with
  | some (t, .send) =>
    match s.task t with
    | .run c => some c
    | _ => none
  | _ => none

def ReadOk (s : FlashSys T) : FlashAct T → Prop
  | .call _ address size _ _ => address.toNat + size.toNat ≤ 2 ^ 24
  | .send _ => ∀ c ∈ s.sending, s.Alone c
  | _ => True

instance (s : FlashSys T) : (l : FlashAct T) → Decidable (s.ReadOk l)
  | .call _ address size _ _ => inferInstanceAs (Decidable (address.toNat + size.toNat ≤ 2 ^ 24))
  | .send _ => inferInstanceAs (Decidable (∀ c ∈ s.sending, s.Alone c))
  | .lock _ => isTrue trivial
  | .discard _ => isTrue trivial
  | .recv _ => isTrue trivial
  | .recvTimeout => isTrue trivial
  | .serve _ => isTrue trivial

def PcInv (s : FlashSys T) (c : ReadCall) : ReadPc → Prop
  | .recv => s.Alone c
  | .sendDone _ => c.Filled flash (c.rdLen + c.chunk)
  | .recvDone => c.Filled flash (c.rdLen + c.chunk)
  | _ => True

structure Inv (s : FlashSys T) : Prop where
  inbox : ∀ a, s.inbox = some a → ∃ st, a = serve flash a.cmd st
  task : ∀ t, (s.task t).Inv flash
  pc : ∀ t pc, s.mutex = some (t, pc) → ∃ c, s.task t = .run c ∧ s.PcInv flash c pc

section
variable {flash} [DecidableEq T] {s s' : FlashSys T} {t : T} {c : ReadCall} {l : FlashAct T}

omit [DecidableEq T] in
theorem Inv.running (h : s.Inv flash) (hc : s.task t = .run c) : c.Inv flash := by
  have hi := h.task t
  rw [hc] at hi
  exact hi

omit [DecidableEq T] in
theorem Inv.holder (h : s.Inv flash) {pc : ReadPc} (hm : s.mutex = some (t, pc)) (hc : s.task t = .run c) :
    s.PcInv flash c pc := by
  obtain ⟨c', hc', hp⟩ := h.pc t pc hm
  rw [hc] at hc'
  cases hc'
  exact hp

theorem Inv.setTask (h : s.Inv flash) {k : ReadTask} (hk : k.Inv flash) (t' : T) :
    ((s.setTask t k).task t').Inv flash := by
  by_cases he : t' = t
  · rw [he]
    simpa [FlashSys.setTask] using hk
  · simpa [FlashSys.setTask, he] using h.task t'

theorem Inv.leave (h : s.Inv flash) {k : ReadTask} (hk : k.Inv flash) {inbox : Option FlashAns} {server : List FlashCmd}
    (hi : inbox = none ∨ inbox = s.inbox) :
    ({ s.leave t k with inbox := inbox, server := server } : FlashSys T).Inv flash where
  inbox a ha := by
    rcases hi with rfl | rfl
    · cases ha
    · exact h.inbox a ha
  task t' := h.setTask hk t'
  pc _ _ hm := nomatch hm

theorem Inv.ipcSend (h : s.Inv flash) (hc : s.task t = .run c) (cmd : FlashCmd) (next : ReadPc)
    (hn : ({ s with server := s.server ++ [cmd] } : FlashSys T).PcInv flash c next) (r : FlashSend) :
    (s.ipcSend t c cmd next r).Inv flash := by
  have hi := h.running hc
  cases r with
  | ok =>
    refine ⟨h.inbox, h.task, ?_⟩
    rintro t' pc' ⟨⟩
    exact ⟨c, hc, hn⟩
  | lost | timeout => exact h.leave hi.failed (.inr rfl)

theorem Inv.readAnswer (h : s.Inv flash) (hc : s.task t = .run c) (ha : s.Alone c) {a : FlashAns}
    (hb : s.inbox = some a) : (({ s with inbox := none } : FlashSys T).readAnswer t c a).Inv flash := by
  have hi := h.running hc
  unfold FlashSys.readAnswer
  split
  · rename_i hm
    simp only [ReadCall.matchesHdr, Bool.and_eq_true, decide_eq_true_eq] at hm
    obtain ⟨⟨hcmd, -⟩, hlen⟩ := hm
    have haddr := ha a.cmd (by simp [outstanding, hb]) hcmd hlen
    obtain ⟨st, hst⟩ := h.inbox a hb
    have hdata : a.data = flashBytes flash c.chunkAddr c.chunk := by
      rw [hst]
      simp [serve, hcmd, haddr, hlen]
    dsimp only
    split
    · refine ⟨nofun, h.setTask (hi.memcpy _), ?_⟩
      rintro t' pc' ⟨⟩
      refine ⟨c.memcpy a.data, by simp [FlashSys.setTask], ?_⟩
      rw [hdata]
      exact hi.filled_memcpy
    · exact h.leave (hi.memcpy _).failed (.inl rfl)
  · exact h.leave hi.failed (.inl rfl)

theorem Inv.readStep (h : s.Inv flash) {pc : ReadPc} (hm : s.mutex = some (t, pc)) (hc : s.task t = .run c)
    (hok : s.ReadOk l) (hs : s.readStep t c pc l = some s') : s'.Inv flash := by
  have hi := h.running hc
  have hpc := h.holder hm hc
  unfold FlashSys.readStep at hs
  -- the steps in the order of `flash_read_bytes`; each wait ends with a message or without one
  split at hs
  · cases hs
    refine ⟨nofun, h.task, ?_⟩
    rintro t' pc' ⟨⟩
    exact ⟨c, hc, by split <;> trivial⟩
  · cases hs
    have ha : s.Alone c := hok c (by simp [sending, hm, hc])
    refine h.ipcSend hc _ .recv ?_ _
    intro r hr hcmd hlen
    simp only [outstanding, List.append_assoc, List.mem_append, List.mem_cons, List.not_mem_nil, or_false] at hr
    rcases hr with hr | rfl | hr
    · exact ha r (by simp [outstanding, hr]) hcmd hlen
    · rfl
    · exact ha r (List.mem_append_right _ hr) hcmd hlen
  · obtain ⟨a, hb, rfl⟩ := Option.map_eq_some_iff.1 hs
    dsimp only
    split
    · exact h.readAnswer hc hpc hb
    · exact h.leave hi.failed (.inl rfl)
  · split at hs
    · cases hs
      exact h.leave hi.failed (.inr rfl)
    · cases hs
  · cases hs
    exact h.ipcSend hc _ .recvDone hpc _
  · obtain ⟨a, -, rfl⟩ := Option.map_eq_some_iff.1 hs
    exact h.leave (hi.done hpc) (.inl rfl)
  · split at hs
    · cases hs
      exact h.leave (hi.done hpc) (.inr rfl)
    · cases hs
  · cases hs

theorem Inv.step (h : s.Inv flash) (hok : s.ReadOk l) (hs : s.step flash l = some s') : s'.Inv flash := by
  unfold FlashSys.step at hs
  split at hs
  · -- a call; the holder of the mutex is another task
    rename_i t address size userBuf inited
    split at hs
    · cases hs
    · rename_i hr
      cases hs
      refine ⟨h.inbox, h.setTask ?_, ?_⟩
      · split
        · exact ⟨Nat.zero_add _, hok, nofun⟩
        · trivial
      · intro t' pc hm
        obtain ⟨c, hc, hp⟩ := h.pc t' pc hm
        have hne : t' ≠ t := by
          rintro rfl
          exact hr c hc
        exact ⟨c, by simp [FlashSys.setTask, hne, hc], by cases pc <;> exact hp⟩
  · split at hs
    · rename_i c hc _
      cases hs
      refine ⟨h.inbox, h.task, ?_⟩
      rintro t' pc' ⟨⟩
      exact ⟨c, hc, trivial⟩
    · cases hs
  · -- the answer takes the place of its request
    split at hs
    · rename_i hb hq
      cases hs
      refine ⟨?_, h.task, ?_⟩
      · rintro a ⟨⟩
        exact ⟨_, rfl⟩
      · intro t pc hm
        obtain ⟨c, hc, hp⟩ := h.pc t pc hm
        refine ⟨c, hc, ?_⟩
        cases pc with
        | recv =>
          intro r hr
          refine hp r ?_
          simp only [outstanding, serve, Option.map_some, Option.toList_some, List.mem_append, List.mem_singleton] at hr
          simp only [outstanding, hb, hq, Option.map_none, Option.toList_none, List.append_nil, List.mem_cons]
          exact hr.symm
        | _ => exact hp
    · cases hs
  · split at hs
    · split at hs
      · rename_i hm _ c hc
        exact h.readStep hm hc hok hs
      · cases hs
    · cases hs

omit [DecidableEq T] in
theorem inv_init : (({} : FlashSys T)).Inv flash where
  inbox := nofun
  task _ := trivial
  pc := nofun

theorem inv_of_run (h : Run (FlashSys.step flash) ReadOk ({} : FlashSys T) s) : s.Inv flash :=
  h.invariant inv_init fun _ _ _ _ hi hok hs => hi.step hok hs

end
end FlashSys

/-- If no read of the same length and another address is outstanding when a request is sent, and addresses are below
2^24, a call that returns `BK_OK` has the bytes of its addresses. -/
theorem flash_read_fills_buffer {T : Type} [DecidableEq T] {flash : Nat → UInt8} {s : FlashSys T}
    (h : Run (FlashSys.step flash) FlashSys.ReadOk {} s) {t : T} {c : ReadCall} (hr : s.task t = .ret c .ok) :
    ∀ i < c.bytes, c.userBuf i = flash (c.address + i) := by
  have hi := (FlashSys.inv_of_run h).task t
  rw [hr] at hi
  exact hi

def ReadTask.okBytes (n : Nat) : ReadTask → Bool
  | .ret c .ok => c.bytes = n
  | _ => false

theorem ReadTask.eq_ret_of_okBytes {n : Nat} {k : ReadTask} (h : k.okBytes n) : ∃ c, k = .ret c .ok ∧ c.bytes = n := by
  unfold okBytes at h
  split at h
  · exact ⟨_, rfl, of_decide_eq_true h⟩
  · cases h

def twoSectors (i : Nat) : UInt8 := if i < 0x1000 then 0xAA else 0x55

theorem flash_read_fills_buffer_retry :
    ∃ (s : FlashSys Unit) (c : ReadCall), Run (FlashSys.step twoSectors) FlashSys.ReadOk {} s ∧ s.task () = .ret c .ok ∧
      c.bytes = 2 ∧ ∀ i < 2, c.userBuf i = twoSectors (c.address + i) := by
  have hrun : ∃ s : FlashSys Unit, Run (FlashSys.step twoSectors) FlashSys.ReadOk {} s ∧ (s.task ()).okBytes 2 :=
    Run.of_exec (List.flatten [[.call () 0x0FFF 2 (fun _ => 0) true],
      [.lock (), .discard false, .send .ok, .serve 0, .recv false],
      [.lock (), .discard false, .send .ok, .serve 0, .recv true, .send .ok, .serve 0, .recv true]]) (by decide +kernel)
  obtain ⟨s, hr, hp⟩ := hrun
  obtain ⟨c, hc, hn⟩ := ReadTask.eq_ret_of_okBytes hp
  exact ⟨s, c, hr, hc, hn, hn ▸ flash_read_fills_buffer hr hc⟩

/-- Both tries for address 0 time out, and the read of address 0x1000 gets the answer to the first of them. -/
theorem flash_read_stale_answer :
    ∃ (s : FlashSys Unit), Run (FlashSys.step twoSectors) (fun _ _ => True) {} s ∧
      ∃ c, s.task () = .ret c .ok ∧ c.address = 0x1000 ∧ c.bytes = 1 ∧ c.userBuf 0 ≠ twoSectors c.address := by
  refine Run.of_exec_imp (p := fun s => (match s.task () with
      | .ret c .ok => decide (c.address = 0x1000 ∧ c.bytes = 1 ∧ c.userBuf 0 ≠ twoSectors c.address)
      | _ => false) = true)
    (List.flatten [[.call () 0 1 (fun _ => 0) true],
      [.lock (), .discard false, .send .ok, .recvTimeout],
      [.lock (), .discard false, .send .ok, .recvTimeout],
      [.call () 0x1000 1 (fun _ => 0) true],
      [.lock (), .discard false, .send .ok, .serve 0, .recv true, .send .ok, .recvTimeout]]) (by decide +kernel)
    fun s _ hp => ?_
  split at hp
  · exact ⟨_, by assumption, of_decide_eq_true hp⟩
  · cases hp

end Bk7258

import Bk7258.Rtos.Queue

/-!
# Semaphores of the RTOS layer

`beken_rtos.c` makes a semaphore of the RTOS API from one of NuttX and does not hand `max_count` on: `nxsem_post` counts
up to `SEM_VALUE_MAX`. `semcount` is negative while tasks wait.
-/

namespace Bk7258
open Lts

/-- `nxsem_init` takes `init_count` as an unsigned number and refuses one above `SEM_VALUE_MAX`. -/
def rtosInitSemaphoreEx (semValueMax : Nat) (mallocOk : Bool) (_maxCount initCount : BitVec 32) : Except RtosErr Int :=
  if mallocOk = false ∨ semValueMax < initCount.toNat then .error .kGeneralErr else .ok initCount.toNat

def rtosInitSemaphore (semValueMax : Nat) (mallocOk : Bool) (maxCount : BitVec 32) : Except RtosErr Int :=
  rtosInitSemaphoreEx semValueMax mallocOk maxCount 0

/-- A semaphore, the tasks that wait for it, each with whether it waits for ever, and what the last
`rtos_get_semaphore` of a task has returned -/
structure SemSys (T : Type) where
  semcount : Int
  waiters : List (T × Bool) := []
  ret : T → Option RtosErr := fun _ => none

inductive SemAct (T : Type)
  /-- `rtos_set_semaphore`; if there are waiters, NuttX wakes the one at `i`. -/
  | set (i : Nat)
  | get (t : T) (timeoutMs : UInt32)
  | timeout (i : Nat)
deriving DecidableEq

namespace SemSys
section
variable {T : Type} (s : SemSys T)

def rtosGetSemaphoreCount : Int := if s.semcount < 0 then 0 else s.semcount

def SetOk (maxCount : BitVec 32) (s : SemSys T) : SemAct T → Prop
  | .set _ => s.rtosGetSemaphoreCount < maxCount.toInt
  | _ => True

instance (maxCount : BitVec 32) : ∀ a, Decidable (s.SetOk maxCount a)
  | .set _ => inferInstanceAs (Decidable (_ < _))
  | .get .. | .timeout _ => .isTrue trivial

variable {s} {m : Int}

structure Inv (m : Int) (s : SemSys T) : Prop where
  bound : s.semcount ≤ m
  nonneg : 0 ≤ m
  waits : s.semcount < 0 → (s.waiters.length : Int) = -s.semcount
  none : 0 ≤ s.semcount → s.waiters = []

theorem Inv.count_le (h : s.Inv m) : s.rtosGetSemaphoreCount ≤ m := by
  have hbound := h.bound
  have hnonneg := h.nonneg
  unfold rtosGetSemaphoreCount
  split <;> omega

end

variable {T : Type} [DecidableEq T] (semValueMax : Nat) (s : SemSys T)

def setRet (t : T) (e : RtosErr) : SemSys T := { s with ret := Function.update s.ret t (some e) }

def leave (i : Nat) (t : T) (e : RtosErr) : SemSys T :=
  { s.setRet t e with semcount := s.semcount + 1, waiters := s.waiters.eraseIdx i }

def rtosSetSemaphore (i : Nat) : Option (SemSys T × RtosErr) :=
  if semValueMax ≤ s.semcount then some (s, .kGeneralErr)
  else if s.semcount < 0 then s.waiters[i]?.map fun x => (s.leave i x.1 .kNoErr, .kNoErr)
  else some ({ s with semcount := s.semcount + 1 }, .kNoErr)

/-- `nxsem_wait`, `nxsem_trywait` and `nxsem_timedwait`; a call that has to wait counts down as well. -/
def rtosGetSemaphore (t : T) (timeoutMs : UInt32) : SemSys T :=
  if 0 < s.semcount then { s.setRet t .kNoErr with semcount := s.semcount - 1 }
  else if timeoutMs = 0 then s.setRet t .kGeneralErr
  else { s with semcount := s.semcount - 1, waiters := s.waiters ++ [(t, decide (timeoutMs = bekenWaitForever))] }

def step : SemAct T → Option (SemSys T)
  | .set i => (s.rtosSetSemaphore semValueMax i).map (·.1)
  | .get t timeoutMs => if t ∈ s.waiters.map (·.1) then none else some (s.rtosGetSemaphore t timeoutMs)
  | .timeout i => match s.waiters[i]? with
    | some (t, false) => some (s.leave i t .kTimeoutErr)
    | _ => none

variable {s} {semValueMax} {s' : SemSys T} {m : Int}

theorem Inv.leave (h : s.Inv m) {i : Nat} {x : T × Bool} (hx : s.waiters[i]? = some x) (e : RtosErr) :
    (s.leave i x.1 e).Inv m := by
  obtain ⟨hi, -⟩ := List.getElem?_eq_some_iff.1 hx
  have hneg : s.semcount < 0 := by
    by_contra hge
    have hnil := h.none (by omega)
    rw [hnil] at hi
    exact Nat.not_lt_zero _ hi
  have hwaits := h.waits hneg
  have hlen : (s.waiters.eraseIdx i).length = s.waiters.length - 1 := List.length_eraseIdx_of_lt hi
  have hnonneg := h.nonneg
  constructor
  · show s.semcount + 1 ≤ m
    omega
  · exact hnonneg
  · intro hlt
    change s.semcount + 1 < 0 at hlt
    show ((s.waiters.eraseIdx i).length : Int) = -(s.semcount + 1)
    omega
  · intro hge
    change 0 ≤ s.semcount + 1 at hge
    show s.waiters.eraseIdx i = []
    rw [← List.length_eq_zero_iff]
    omega

theorem Inv.get (h : s.Inv m) (t : T) (timeoutMs : UInt32) : (s.rtosGetSemaphore t timeoutMs).Inv m := by
  have hbound := h.bound
  unfold rtosGetSemaphore
  split
  · rename_i hpos
    exact ⟨show s.semcount - 1 ≤ m by omega, h.nonneg, fun hlt => absurd (show s.semcount - 1 < 0 from hlt) (by omega),
      fun _ => h.none (by omega)⟩
  split
  · exact ⟨h.bound, h.nonneg, h.waits, h.none⟩
  · rename_i hpos _
    refine ⟨show s.semcount - 1 ≤ m by omega, h.nonneg, ?_,
      fun hge => absurd (show 0 ≤ s.semcount - 1 from hge) (by omega)⟩
    intro _
    have hlen : (s.waiters.length : Int) = -s.semcount := by
      rcases Int.lt_or_eq_of_le (Int.not_lt.1 hpos) with hlt | heq
      · exact h.waits hlt
      · rw [h.none (by omega), heq]
        rfl
    show ((s.waiters ++ [_]).length : Int) = -(s.semcount - 1)
    rw [List.length_append, List.length_singleton]
    omega

theorem Inv.step {maxCount : BitVec 32} (h : s.Inv maxCount.toInt) {a : SemAct T} (hok : s.SetOk maxCount a)
    (hs : s.step semValueMax a = some s') : s'.Inv maxCount.toInt := by
  cases a with
  | set i =>
    obtain ⟨r, hr, rfl⟩ := Option.map_eq_some_iff.1 hs
    unfold rtosSetSemaphore at hr
    split at hr
    · cases hr
      exact h
    split at hr
    · obtain ⟨x, hx, rfl⟩ := Option.map_eq_some_iff.1 hr
      exact h.leave hx _
    · rename_i hge
      cases hr
      have hlt : s.semcount < maxCount.toInt := by
        have hcount : s.rtosGetSemaphoreCount < maxCount.toInt := hok
        unfold rtosGetSemaphoreCount at hcount
        rwa [if_neg hge] at hcount
      exact ⟨show s.semcount + 1 ≤ _ by omega, h.nonneg,
        fun hneg => absurd (show s.semcount + 1 < 0 from hneg) (by omega),
        fun _ => h.none (by omega)⟩
  | get t timeoutMs =>
    simp only [SemSys.step] at hs
    split at hs
    · cases hs
    · cases hs
      exact h.get t timeoutMs
  | timeout i =>
    simp only [SemSys.step] at hs
    split at hs
    · rename_i t hx
      cases hs
      exact h.leave hx _
    · cases hs

end SemSys

theorem rtosInitSemaphoreEx_eq_ok {semValueMax : Nat} {mallocOk : Bool} {maxCount initCount : BitVec 32} {c : Int}
    (h : rtosInitSemaphoreEx semValueMax mallocOk maxCount initCount = .ok c) (hn : 0 ≤ initCount.toInt) :
    c = initCount.toInt := by
  unfold rtosInitSemaphoreEx at h
  split at h
  · cases h
  · cases h
    have hlt := initCount.isLt
    rw [BitVec.toInt_eq_toNat_cond] at hn ⊢
    split <;> rename_i hc
    · rfl
    · rw [if_neg hc] at hn
      omega

/-- When posts come only while the count is below `max_count`, it stays within it, and one `rtos_get_semaphore` with
timeout 0 clears a semaphore of `max_count` 1. -/
theorem semaphore_count_bounded {T : Type} [DecidableEq T] {semValueMax : Nat} {mallocOk : Bool}
    {maxCount initCount : BitVec 32} {c : Int}
    (hc : rtosInitSemaphoreEx semValueMax mallocOk maxCount initCount = .ok c)
    (hn : 0 ≤ initCount.toInt) (hle : initCount.toInt ≤ maxCount.toInt) {s : SemSys T}
    (hr : Run (SemSys.step semValueMax) (SemSys.SetOk maxCount) { semcount := c } s) :
    s.rtosGetSemaphoreCount ≤ maxCount.toInt ∧
      (maxCount.toInt = 1 → ∀ t s', s.step semValueMax (.get t 0) = some s' → s'.rtosGetSemaphoreCount = 0) := by
  have hinit := rtosInitSemaphoreEx_eq_ok hc hn
  have hinv : s.Inv maxCount.toInt := by
    refine hr.invariant (I := SemSys.Inv maxCount.toInt) ?_ ?_
    · exact ⟨by rw [hinit]; exact hle, by omega, fun hlt => absurd (show c < 0 from hlt) (by omega), fun _ => rfl⟩
    · intro t u a _ ht hok hs
      exact ht.step hok hs
  refine ⟨hinv.count_le, ?_⟩
  intro hone t s' hs
  have hbound := hinv.bound
  simp only [SemSys.step] at hs
  split at hs
  · cases hs
  · cases hs
    unfold SemSys.rtosGetSemaphore
    split
    · show (if s.semcount - 1 < 0 then 0 else s.semcount - 1) = 0
      rw [if_neg (by omega)]
      omega
    · rw [if_pos rfl]
      show (if s.semcount < 0 then 0 else s.semcount) = 0
      split <;> omega

theorem semaphore_count_bounded_one : ∃ c, ∃ s : SemSys Unit, rtosInitSemaphore 0x7FFF true 1 = .ok c ∧
    Run (SemSys.step 0x7FFF) (SemSys.SetOk 1) { semcount := c } s ∧ s.rtosGetSemaphoreCount = 1 ∧
    ∀ t s', s.step 0x7FFF (.get t 0) = some s' → s'.rtosGetSemaphoreCount = 0 := by
  obtain ⟨s, hr, hs⟩ : ∃ s : SemSys Unit, Run (SemSys.step 0x7FFF) (SemSys.SetOk 1) { semcount := 0 } s ∧
      s.rtosGetSemaphoreCount = 1 := Run.of_exec
    [.set 0, .get () 0, .get () 100, .timeout 0, .set 0] (by decide +kernel)
  have hc : rtosInitSemaphoreEx 0x7FFF true 1 0 = .ok 0 := rfl
  exact ⟨0, s, hc, hr, hs, (semaphore_count_bounded hc (by decide) (by decide) hr).2 (by decide)⟩

/-- Posted twice with `max_count` 1, the count is 2. -/
theorem semaphore_not_cleared : ∃ c, ∃ s : SemSys Unit, rtosInitSemaphore 0x7FFF true 1 = .ok c ∧
    Run (SemSys.step 0x7FFF) (fun _ _ => True) { semcount := c } s ∧ s.rtosGetSemaphoreCount = 2 ∧
    ∃ s', s.step 0x7FFF (.get () 0) = some s' ∧ s'.rtosGetSemaphoreCount = 1 := by
  obtain ⟨s, hr, hs, hget⟩ : ∃ s : SemSys Unit, Run (SemSys.step 0x7FFF) (fun _ _ => True) { semcount := 0 } s ∧
      (s.rtosGetSemaphoreCount = 2 ∧ (s.step 0x7FFF (.get () 0)).any (·.rtosGetSemaphoreCount = 1)) := Run.of_exec
    [.set 0, .set 0] (by decide +kernel)
  obtain ⟨s', hs', hone⟩ := (Option.any_eq_true _ _).1 hget
  exact ⟨0, s, rfl, hr, hs, s', hs', of_decide_eq_true hone⟩

end Bk7258

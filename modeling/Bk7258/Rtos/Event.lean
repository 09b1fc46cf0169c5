import Bk7258.Rtos.Queue

/-!
# Events of `rtos_ext.c`

An event is a word of flags and a semaphore. `rtos_set_event_ex` sets flags in a critical section and posts the
semaphore afterwards. `rtos_wait_event_ex`, called by one task, takes the flags it waits for in a critical section, or
looks at the clock, a 32-bit number of milliseconds, and waits for the semaphore. `log` is the history, the last event
first.
-/

namespace Bk7258
open Lts Function

/-- A call of `rtos_wait_event_ex` with `start_time`; `start` is the time it began at, of which `start_time` are the
lower 32 bits. -/
structure WaitCall where
  eventFlag : BitVec 32
  anyEvent : Bool
  timeout : UInt32
  startTime : UInt32
  start : Nat
deriving DecidableEq, Repr

def WaitCall.Started (now : Nat) (c : WaitCall) : Prop := c.startTime = UInt32.ofNat c.start ∧ c.start ≤ now

inductive WaitExit
  | flags
  | elapsed
  | semaphore
deriving DecidableEq, Repr

inductive EventEntry
  | set (eventFlag : BitVec 32)
  | ret (c : WaitCall) (flag : BitVec 32) (exit : WaitExit) (now : Nat)
deriving DecidableEq, Repr

inductive EventWaiter
  | idle
  | check (c : WaitCall)
  | clock (c : WaitCall)
  | get (c : WaitCall) (timeoutMs : UInt32)
deriving DecidableEq, Repr

def EventWaiter.sleeps : EventWaiter → Option WaitCall
  | .clock c | .get c _ => some c
  | .idle | .check _ => none

def EventWaiter.call : EventWaiter → Option WaitCall
  | .check c | .clock c | .get c _ => some c
  | .idle => none

/-- The clock is not below its value at the beginning of the call when it is read. -/
def EventWaiter.NotWrapped (curTime : UInt32) : EventWaiter → Prop
  | .clock c => c.startTime ≤ curTime
  | _ => True

instance (curTime : UInt32) : ∀ w : EventWaiter, Decidable (w.NotWrapped curTime)
  | .clock _ => inferInstanceAs (Decidable (_ ≤ _))
  | .idle | .check _ | .get .. => .isTrue trivial

/-- `rtos_event_ext_t` after `rtos_init_event_ex`, and its users. A context `t` with `setting t` has set flags and not
posted the semaphore yet. -/
structure EventExt (T : Type) where
  eventFlag : BitVec 32 := 0
  semaphore : Nat := 0
  now : Nat
  setting : T → Bool := fun _ => false
  waiter : EventWaiter := .idle
  log : List EventEntry := []

inductive EventAct (T : Type)
  | set (t : T) (eventFlag : BitVec 32)
  | post (t : T)
  | wait (eventFlag : BitVec 32) (anyEvent : Bool) (timeout : UInt32)
  | check
  | clock
  | get
  | getFails
  | tick (ms : Nat)
deriving DecidableEq

def retFlag (flags eventFlag : BitVec 32) (anyEvent : Bool) : BitVec 32 :=
  let ret := flags &&& eventFlag
  if !anyEvent && ret ≠ eventFlag then 0 else ret

def elapsedTime (startTime curTime timeout : UInt32) : UInt32 :=
  if timeout ≠ bekenWaitForever then
    if curTime < startTime then ~~~curTime + 1 + startTime else curTime - startTime
  else 0

namespace EventExt

section
variable {T : Type} (s : EventExt T)

def time : UInt32 := UInt32.ofNat s.now

/-- A flag of the mask is set in any mode, every one in all mode. -/
def Satisfies (c : WaitCall) : Prop :=
  if c.anyEvent then ∃ i, c.eventFlag.getLsbD i = true ∧ s.eventFlag.getLsbD i = true
  else ∀ i, c.eventFlag.getLsbD i = true → s.eventFlag.getLsbD i = true

def finish (c : WaitCall) (flag : BitVec 32) (exit : WaitExit) : EventExt T :=
  { s with waiter := .idle, log := .ret c flag exit s.now :: s.log }

def checkFlags (c : WaitCall) : EventExt T :=
  let ret := retFlag s.eventFlag c.eventFlag c.anyEvent
  let s := { s with eventFlag := s.eventFlag ^^^ ret }
  if ret ≠ 0 then s.finish c ret .flags else { s with waiter := .clock c }

def checkClock (c : WaitCall) : EventExt T :=
  let elapsed := elapsedTime c.startTime s.time c.timeout
  if elapsed ≥ c.timeout then s.finish c 0 .elapsed else { s with waiter := .get c (c.timeout - elapsed) }

def ClockOk : EventAct T → Prop
  | .clock => s.waiter.NotWrapped s.time
  | _ => True

instance : ∀ a, Decidable (s.ClockOk a)
  | .clock => inferInstanceAs (Decidable (EventWaiter.NotWrapped _ _))
  | .set .. | .post _ | .wait .. | .check | .get | .getFails | .tick _ => .isTrue trivial

end

variable {T : Type} [DecidableEq T] (s : EventExt T)

def step : EventAct T → Option (EventExt T)
  | .set t eventFlag =>
    if s.setting t then none
    else if eventFlag = 0 then some s
    else some { s with
      eventFlag := s.eventFlag ||| eventFlag
      setting := update s.setting t true
      log := .set eventFlag :: s.log }
  | .post t =>
    if s.setting t then
      some { s with semaphore := s.semaphore + 1, setting := update s.setting t false }
    else none
  | .wait eventFlag anyEvent timeout =>
    if s.waiter = .idle then
      if eventFlag = 0 then some s
      else some { s with waiter := .check ⟨eventFlag, anyEvent, timeout, s.time, s.now⟩ }
    else none
  | .check => match s.waiter with
    | .check c => some (s.checkFlags c)
    | _ => none
  | .clock => match s.waiter with
    | .clock c => some (s.checkClock c)
    | _ => none
  | .get => match s.waiter with
    | .get c _ => if 0 < s.semaphore then some { s with semaphore := s.semaphore - 1, waiter := .check c } else none
    | _ => none
  | .getFails => match s.waiter with
    | .get c _ => some (s.finish c 0 .semaphore)
    | _ => none
  | .tick ms => some { s with now := s.now + ms }

/-! ## The steps as cases -/

inductive Step (s : EventExt T) : EventAct T → EventExt T → Prop
  | setNone (t : T) : Step s (.set t 0) s
  | set {t : T} (ht : s.setting t = false) (eventFlag : BitVec 32) : Step s (.set t eventFlag) { s with
      eventFlag := s.eventFlag ||| eventFlag
      setting := update s.setting t true
      log := .set eventFlag :: s.log }
  | post {t : T} (ht : s.setting t = true) : Step s (.post t)
      { s with semaphore := s.semaphore + 1, setting := update s.setting t false }
  | waitNone (anyEvent : Bool) (timeout : UInt32) : Step s (.wait 0 anyEvent timeout) s
  | wait {eventFlag : BitVec 32} (h0 : eventFlag ≠ 0) (anyEvent : Bool) (timeout : UInt32) :
      Step s (.wait eventFlag anyEvent timeout)
      { s with waiter := .check ⟨eventFlag, anyEvent, timeout, s.time, s.now⟩ }
  | check {c : WaitCall} (hw : s.waiter = .check c) : Step s .check (s.checkFlags c)
  | clock {c : WaitCall} (hw : s.waiter = .clock c) : Step s .clock (s.checkClock c)
  | get {c : WaitCall} {timeoutMs : UInt32} (hw : s.waiter = .get c timeoutMs) :
      Step s .get { s with semaphore := s.semaphore - 1, waiter := .check c }
  | getFails {c : WaitCall} {timeoutMs : UInt32} (hw : s.waiter = .get c timeoutMs) :
      Step s .getFails (s.finish c 0 .semaphore)
  | tick (ms : Nat) : Step s (.tick ms) { s with now := s.now + ms }

variable {s} {s' : EventExt T} {a : EventAct T}

theorem step_cases (hs : s.step a = some s') : s.Step a s' := by
  cases a with
  | set t eventFlag =>
    simp only [step] at hs
    split at hs
    · cases hs
    · rename_i ht
      split at hs <;> cases hs
      · rename_i h0
        rw [h0]
        exact .setNone t
      · exact .set (Bool.eq_false_iff.2 ht) eventFlag
  | post t =>
    simp only [step] at hs
    split at hs <;> cases hs
    rename_i ht
    exact .post ht
  | wait eventFlag anyEvent timeout =>
    simp only [step] at hs
    split at hs
    · split at hs <;> cases hs
      · rename_i h0
        rw [h0]
        exact .waitNone anyEvent timeout
      · rename_i h0
        exact .wait h0 anyEvent timeout
    · cases hs
  | check =>
    simp only [step] at hs
    split at hs <;> cases hs
    rename_i hw
    exact .check hw
  | clock =>
    simp only [step] at hs
    split at hs <;> cases hs
    rename_i hw
    exact .clock hw
  | get =>
    simp only [step] at hs
    split at hs
    · rename_i hw
      split at hs <;> cases hs
      exact .get hw
    · cases hs
  | getFails =>
    simp only [step] at hs
    split at hs <;> cases hs
    rename_i hw
    exact .getFails hw
  | tick ms => cases hs; exact .tick ms

end EventExt

/-! ## The flags -/

variable {flags eventFlag : BitVec 32} {i : Nat}

theorem retFlag_getLsbD {anyEvent : Bool} (h : (retFlag flags eventFlag anyEvent).getLsbD i) :
    flags.getLsbD i ∧ eventFlag.getLsbD i := by
  unfold retFlag at h
  dsimp only at h
  split at h
  · rw [BitVec.ofNat_eq_ofNat, BitVec.getLsbD_zero] at h
    cases h
  · rw [BitVec.getLsbD_and, Bool.and_eq_true] at h
    exact h

theorem retFlag_all (h : retFlag flags eventFlag false ≠ 0) : retFlag flags eventFlag false = eventFlag := by
  unfold retFlag at h ⊢
  dsimp only at h ⊢
  split at h
  · exact absurd rfl h
  · rename_i hall
    rw [if_neg hall]
    simpa using hall

theorem retFlag_ne_zero {T : Type} {s : EventExt T} {c : WaitCall} (hmask : c.eventFlag ≠ 0) (h : s.Satisfies c) :
    retFlag s.eventFlag c.eventFlag c.anyEvent ≠ 0 := by
  unfold EventExt.Satisfies at h
  unfold retFlag
  cases hany : c.anyEvent with
  | true =>
    rw [if_pos hany] at h
    obtain ⟨i, hm, hf⟩ := h
    intro hz
    have hbit : (s.eventFlag &&& c.eventFlag).getLsbD i = (0 : BitVec 32).getLsbD i := congrArg (·.getLsbD i) hz
    rw [BitVec.getLsbD_and, hf, hm, BitVec.ofNat_eq_ofNat, BitVec.getLsbD_zero] at hbit
    cases hbit
  | false =>
    rw [hany, if_neg Bool.false_ne_true] at h
    have hall : s.eventFlag &&& c.eventFlag = c.eventFlag := by
      refine BitVec.eq_of_getLsbD_eq fun i _ => ?_
      rw [BitVec.getLsbD_and]
      cases hm : c.eventFlag.getLsbD i with
      | true => rw [h i hm, Bool.and_true]
      | false => rw [Bool.and_false]
    rw [hall]
    simpa using hmask

def EventEntry.returns (i : Nat) : EventEntry → Bool
  | .set _ => false
  | .ret _ flag _ _ => flag.getLsbD i

/-- Flag `i` was set, and no call has returned it since. -/
inductive SetSince (i : Nat) : List EventEntry → Prop
  | set {eventFlag : BitVec 32} {log : List EventEntry} (h : eventFlag.getLsbD i = true) :
      SetSince i (.set eventFlag :: log)
  | keep {e : EventEntry} {log : List EventEntry} (h : SetSince i log) (he : e.returns i = false) :
    SetSince i (e :: log)

variable {log : List EventEntry}

theorem setSince_set : SetSince i (.set eventFlag :: log) ↔ SetSince i log ∨ eventFlag.getLsbD i := by
  constructor
  · intro h
    cases h with
    | set h => exact .inr h
    | keep h => exact .inl h
  · rintro (h | h)
    · exact .keep h rfl
    · exact .set h

theorem setSince_ret {c : WaitCall} {flag : BitVec 32} {exit : WaitExit} {now : Nat} :
    SetSince i (.ret c flag exit now :: log) ↔ SetSince i log ∧ flag.getLsbD i = false := by
  constructor
  · intro h
    cases h with
    | keep h he => exact ⟨h, he⟩
  · rintro ⟨h, he⟩
    exact .keep h he

/-- What a call returns are flags it waits for, set and not returned since, and all of them if it waits for all. -/
structure RetOk (earlier : List EventEntry) (c : WaitCall) (flag : BitVec 32) : Prop where
  since : ∀ i, flag.getLsbD i = true → c.eventFlag.getLsbD i = true ∧ SetSince i earlier
  all : c.anyEvent = false → flag ≠ 0 → flag = c.eventFlag

theorem RetOk.zero (earlier : List EventEntry) (c : WaitCall) : RetOk earlier c 0 where
  since i h := by
    rw [BitVec.ofNat_eq_ofNat, BitVec.getLsbD_zero] at h
    cases h
  all _ h := absurd rfl h

namespace EventExt
variable {T : Type} {s s' : EventExt T}

structure FlagInv (s : EventExt T) : Prop where
  flags : ∀ i, s.eventFlag.getLsbD i = true ↔ SetSince i s.log
  rets : ∀ c flag exit now earlier, .ret c flag exit now :: earlier <:+ s.log → RetOk earlier c flag

theorem FlagInv.congr (h : s.FlagInv) (hf : s'.eventFlag = s.eventFlag) (hl : s'.log = s.log) : s'.FlagInv where
  flags := by rw [hf, hl]; exact h.flags
  rets := by rw [hl]; exact h.rets

theorem FlagInv.set (h : s.FlagInv) (eventFlag : BitVec 32) (hf : s'.eventFlag = s.eventFlag ||| eventFlag)
    (hl : s'.log = .set eventFlag :: s.log) : s'.FlagInv where
  flags i := by rw [hf, hl, setSince_set, BitVec.getLsbD_or, Bool.or_eq_true, h.flags i]
  rets c flag exit now earlier hsuf := by
    rw [hl, List.suffix_cons_iff] at hsuf
    rcases hsuf with he | hsuf
    · cases he
    · exact h.rets c flag exit now earlier hsuf

variable {c : WaitCall} {flag : BitVec 32} {exit : WaitExit} {now : Nat}

theorem FlagInv.ret (h : s.FlagInv) (hok : RetOk s.log c flag)
    (hf : s'.eventFlag = s.eventFlag ^^^ flag) (hl : s'.log = .ret c flag exit now :: s.log) : s'.FlagInv where
  flags i := by
    rw [hf, hl, setSince_ret, BitVec.getLsbD_xor, ← h.flags i]
    cases hflag : flag.getLsbD i with
    | false => simp
    | true =>
      rw [(h.flags i).2 (hok.since i hflag).2]
      simp
  rets c' flag' exit' now' earlier hsuf := by
    rw [hl, List.suffix_cons_iff] at hsuf
    rcases hsuf with he | hsuf
    · cases he
      exact hok
    · exact h.rets c' flag' exit' now' earlier hsuf

theorem FlagInv.finish (h : s.FlagInv) (c : WaitCall) (exit : WaitExit) : (s.finish c 0 exit).FlagInv :=
  h.ret (.zero s.log c) (BitVec.xor_zero).symm rfl

theorem FlagInv.checkFlags (h : s.FlagInv) (c : WaitCall) : (s.checkFlags c).FlagInv := by
  have hret : RetOk s.log c (retFlag s.eventFlag c.eventFlag c.anyEvent) := by
    constructor
    · intro i hi
      obtain ⟨hset, hmask⟩ := retFlag_getLsbD hi
      exact ⟨hmask, (h.flags i).1 hset⟩
    · intro hall hne
      rw [hall] at hne ⊢
      exact retFlag_all hne
  unfold EventExt.checkFlags
  dsimp only
  split
  · exact h.ret hret rfl rfl
  · rename_i hzero
    rw [ne_eq, not_not] at hzero
    rw [hzero]
    exact h.congr BitVec.xor_zero rfl

theorem FlagInv.checkClock (h : s.FlagInv) (c : WaitCall) : (s.checkClock c).FlagInv := by
  unfold EventExt.checkClock
  dsimp only
  split
  · exact h.finish c .elapsed
  · exact h.congr rfl rfl

theorem FlagInv.step [DecidableEq T] {a : EventAct T} (h : s.FlagInv) (hs : s.step a = some s') : s'.FlagInv := by
  cases step_cases hs with
  | setNone | waitNone => exact h
  | set _ eventFlag => exact h.set eventFlag rfl rfl
  | check => exact h.checkFlags _
  | clock => exact h.checkClock _
  | getFails => exact h.finish _ _
  | post | wait | get | tick => exact h.congr rfl rfl

/-! ## The semaphore -/

/-- If the flags satisfy a wait whose task has looked at them, the semaphore is posted, or a setter is about to. -/
structure WakeInv (s : EventExt T) : Prop where
  mask : ∀ c, s.waiter.call = some c → c.eventFlag ≠ 0
  wake : ∀ c, s.waiter.sleeps = some c → s.Satisfies c → 0 < s.semaphore ∨ ∃ t, s.setting t = true

theorem WakeInv.finish (s : EventExt T) (c : WaitCall) (flag : BitVec 32) (exit : WaitExit) :
    (s.finish c flag exit).WakeInv :=
  ⟨fun _ hc => absurd hc.symm (Option.some_ne_none _), fun _ hc => absurd hc.symm (Option.some_ne_none _)⟩

theorem WakeInv.checkFlags (hmask : c.eventFlag ≠ 0) : (s.checkFlags c).WakeInv := by
  unfold EventExt.checkFlags
  dsimp only
  split
  · exact .finish ..
  · rename_i hzero
    rw [ne_eq, not_not] at hzero
    refine ⟨fun d hd => ?_, fun d hd hsat => ?_⟩
    · cases hd
      exact hmask
    cases hd
    -- nothing was taken, so the flags are those the task has just looked at
    have hret := retFlag_ne_zero hmask hsat
    rw [hzero] at hret
    dsimp only at hret
    rw [BitVec.ofNat_eq_ofNat, BitVec.xor_zero] at hret
    exact absurd hzero hret

theorem WakeInv.checkClock (h : s.WakeInv) (hw : s.waiter = .clock c) : (s.checkClock c).WakeInv := by
  unfold EventExt.checkClock
  dsimp only
  split
  · exact .finish ..
  · refine ⟨fun d hd => ?_, fun d hd hsat => ?_⟩
    · cases hd
      exact h.mask c (by rw [hw]; rfl)
    · cases hd
      exact h.wake c (by rw [hw]; rfl) hsat

theorem WakeInv.step [DecidableEq T] {a : EventAct T} (h : s.WakeInv) (hs : s.step a = some s') : s'.WakeInv := by
  have hawake {d : WaitCall} {p : Prop} (hd : none = some d) : p := absurd hd.symm (Option.some_ne_none d)
  cases step_cases hs with
  | setNone | waitNone => exact h
  | set => exact ⟨h.mask, fun c _ _ => .inr ⟨_, update_self ..⟩⟩
  | post => exact ⟨h.mask, fun c _ _ => .inl (Nat.succ_pos _)⟩
  | wait h0 =>
    refine ⟨fun d hd => ?_, fun d hd => hawake hd⟩
    cases hd
    exact h0
  | check hw => exact .checkFlags (h.mask _ (by rw [hw]; rfl))
  | clock hw => exact h.checkClock hw
  | get hw =>
    refine ⟨fun d hd => ?_, fun d hd => hawake hd⟩
    cases hd
    exact h.mask _ (by rw [hw]; rfl)
  | getFails => exact .finish ..
  | tick => exact ⟨h.mask, h.wake⟩

/-! ## The clock -/

theorem elapsedTime_le (hc : c.Started now) (hle : c.startTime ≤ UInt32.ofNat now)
    (h : elapsedTime c.startTime (UInt32.ofNat now) c.timeout ≥ c.timeout) :
    c.timeout.toNat ≤ (now - c.start) % 0x100000000 := by
  unfold elapsedTime at h
  split at h
  · rw [if_neg (UInt32.not_lt.2 hle)] at h
    have hge := UInt32.le_iff_toNat_le.1 h
    rw [UInt32.toNat_sub_of_le _ _ hle, hc.1, UInt32.toNat_ofNat', UInt32.toNat_ofNat'] at hge
    rw [hc.1, UInt32.le_iff_toNat_le, UInt32.toNat_ofNat', UInt32.toNat_ofNat'] at hle
    have hstart := hc.2
    omega
  · rename_i hforever
    rw [ne_eq, not_not] at hforever
    rw [hforever] at h
    exact absurd h (by decide)

/-- A wait that has given up after the test of the elapsed time has lasted for its timeout. -/
structure ClockInv (s : EventExt T) : Prop where
  started : ∀ c, s.waiter = .check c ∨ s.waiter.sleeps = some c → c.Started s.now
  elapsed : ∀ c flag now, .ret c flag .elapsed now ∈ s.log →
    flag = 0 ∧ c.timeout.toNat ≤ (now - c.start) % 0x100000000

theorem ClockInv.finish (h : s.ClockInv)
    (hexit : exit = .elapsed → flag = 0 ∧ c.timeout.toNat ≤ (s.now - c.start) % 0x100000000) :
    (s.finish c flag exit).ClockInv where
  started d hd := by
    rcases hd with hd | hd
    · cases hd
    · cases hd
  elapsed d flag' now hmem := by
    rcases List.mem_cons.1 hmem with he | hmem
    · cases he
      exact hexit rfl
    · exact h.elapsed d flag' now hmem

theorem ClockInv.goOn (h : s.ClockInv) (hc : c.Started s.now) (hnow : s'.now = s.now) (hlog : s'.log = s.log)
    (hw : ∀ d, s'.waiter = .check d ∨ s'.waiter.sleeps = some d → d = c) : s'.ClockInv where
  started d hd := by
    rw [hw d hd, hnow]
    exact hc
  elapsed := by rw [hlog]; exact h.elapsed

theorem ClockInv.checkFlags (h : s.ClockInv) (hc : c.Started s.now) : (s.checkFlags c).ClockInv := by
  unfold EventExt.checkFlags
  dsimp only
  split
  · have hmid : ClockInv { s with eventFlag := s.eventFlag ^^^ retFlag s.eventFlag c.eventFlag c.anyEvent } :=
      ⟨h.started, h.elapsed⟩
    exact hmid.finish nofun
  · refine h.goOn hc rfl rfl ?_
    rintro d (hd | hd)
    · cases hd
    · exact (Option.some.inj hd).symm

theorem ClockInv.checkClock (h : s.ClockInv) (hc : c.Started s.now) (hle : c.startTime ≤ s.time) :
    (s.checkClock c).ClockInv := by
  unfold EventExt.checkClock
  dsimp only
  split
  · rename_i helapsed
    exact h.finish fun _ => ⟨rfl, elapsedTime_le hc hle helapsed⟩
  · refine h.goOn hc rfl rfl ?_
    rintro d (hd | hd)
    · cases hd
    · exact (Option.some.inj hd).symm

theorem ClockInv.step [DecidableEq T] {a : EventAct T} (h : s.ClockInv) (hok : s.ClockOk a) (hs : s.step a = some s') :
    s'.ClockInv := by
  cases step_cases hs with
  | setNone | waitNone => exact h
  | set =>
    refine ⟨h.started, fun c flag now hmem => ?_⟩
    rcases List.mem_cons.1 hmem with he | hmem
    · cases he
    · exact h.elapsed c flag now hmem
  | post => exact ⟨h.started, h.elapsed⟩
  | @wait eventFlag _ anyEvent timeout =>
    refine h.goOn (c := ⟨eventFlag, anyEvent, timeout, s.time, s.now⟩) ⟨rfl, Nat.le_refl _⟩ rfl rfl ?_
    rintro d (hd | hd)
    · cases hd
      rfl
    · cases hd
  | check hw => exact h.checkFlags (h.started _ (.inl hw))
  | clock hw =>
    have hle : s.waiter.NotWrapped s.time := hok
    rw [hw] at hle
    exact h.checkClock (h.started _ (.inr (by rw [hw]; rfl))) hle
  | get hw =>
    refine h.goOn (h.started _ (.inr (by rw [hw]; rfl))) rfl rfl ?_
    rintro d (hd | hd)
    · cases hd
      rfl
    · cases hd
  | getFails => exact h.finish nofun
  | tick ms =>
    refine ⟨fun c hc => ?_, h.elapsed⟩
    obtain ⟨hstart, hle⟩ := h.started c hc
    exact ⟨hstart, Nat.le_trans hle (Nat.le_add_right ..)⟩

end EventExt

/-- As long as the clock is not read below its value at the beginning of the call, a wait gives up only when its timeout
is over. -/
theorem wait_elapsed_late {T : Type} [DecidableEq T] {now : Nat} {s : EventExt T}
    (hr : Run EventExt.step EventExt.ClockOk { now := now } s) {c : WaitCall} {flag : BitVec 32} {t : Nat}
    (hret : .ret c flag .elapsed t ∈ s.log) : flag = 0 ∧ c.timeout.toNat ≤ (t - c.start) % 0x100000000 := by
  have hinv : s.ClockInv := by
    refine hr.invariant (I := EventExt.ClockInv) ⟨?_, nofun⟩ ?_
    · rintro c (hc | hc)
      · cases hc
      · cases hc
    · intro t u a _ ht hok hs
      exact ht.step hok hs
  exact hinv.elapsed c flag t hret

theorem wait_elapsed_late_other : ∃ s : EventExt Unit, Run EventExt.step EventExt.ClockOk { now := 0xFFFFF000 } s ∧
    s.eventFlag = 2 ∧ .ret ⟨1, true, 1000, 0xFFFFF000, 0xFFFFF000⟩ 0 .elapsed 0xFFFFF3E9 ∈ s.log ∧
    1000 ≤ (0xFFFFF3E9 - 0xFFFFF000) % 0x100000000 := by
  refine Run.of_exec_imp
    (p := fun s => s.eventFlag = 2 ∧ .ret ⟨1, true, 1000, 0xFFFFF000, 0xFFFFF000⟩ 0 .elapsed 0xFFFFF3E9 ∈ s.log)
    [.wait 1 true 1000, .check, .clock, .tick 1001, .set () 2, .post (), .get, .check, .clock] (by decide +kernel) ?_
  exact fun s hr ⟨hflag, hmem⟩ => ⟨hflag, hmem, (wait_elapsed_late hr hmem).2⟩

/-- The clock goes around while the task waits: the wait of 1000 milliseconds is given up after 32. -/
theorem wait_gives_up_early : ∃ s : EventExt Unit, Run EventExt.step (fun _ _ => True) { now := 0xFFFFFFF0 } s ∧
    .ret ⟨1, true, 1000, 0xFFFFFFF0, 0xFFFFFFF0⟩ 0 .elapsed 0x100000010 ∈ s.log ∧
    (0x100000010 - 0xFFFFFFF0) % 0x100000000 < 1000 :=
  Run.of_exec [.wait 1 true 1000, .check, .clock, .tick 32, .set () 2, .post (), .get, .check, .clock]
    (by decide +kernel)

/-- The flags that are set are those no wait has returned since; a wait returns such flags only; and it does not sleep
while they satisfy it, unless a setter is about to post. -/
theorem event_flags_served {T : Type} [DecidableEq T] {now : Nat} {s : EventExt T}
    (hr : Run EventExt.step (fun _ _ => True) { now := now } s) :
    (∀ i, s.eventFlag.getLsbD i = true ↔ SetSince i s.log) ∧
    (∀ c flag exit t earlier, .ret c flag exit t :: earlier <:+ s.log → RetOk earlier c flag) ∧
    ∀ c timeoutMs, s.waiter = .get c timeoutMs → s.semaphore = 0 → s.Satisfies c → ∃ t, s.setting t = true := by
  have hflags : s.FlagInv := by
    refine hr.invariant (I := EventExt.FlagInv) ⟨fun i => ?_, fun c flag exit t earlier hsuf => ?_⟩ ?_
    · simp only [BitVec.ofNat_eq_ofNat, BitVec.getLsbD_zero, Bool.false_eq_true, false_iff]
      intro hset
      cases hset
    · cases List.suffix_nil.1 hsuf
    · intro t u a _ ht _ hs
      exact ht.step hs
  have hwake : s.WakeInv := by
    refine hr.invariant (I := EventExt.WakeInv)
      ⟨fun _ hc => absurd hc.symm (Option.some_ne_none _), fun _ hc => absurd hc.symm (Option.some_ne_none _)⟩ ?_
    intro t u a _ ht _ hs
    exact ht.step hs
  refine ⟨hflags.flags, hflags.rets, fun c timeoutMs hw hsem hsat => ?_⟩
  rcases hwake.wake c (by rw [hw]; rfl) hsat with hpos | ht
  · omega
  · exact ht

theorem event_flags_served_all : ∃ s : EventExt Bool, Run EventExt.step (fun _ _ => True) { now := 0 } s ∧
    s.waiter = .get ⟨3, false, bekenWaitForever, 0, 0⟩ bekenWaitForever ∧ s.semaphore = 0 ∧ s.eventFlag = 3 ∧
    s.log = [.set 2, .ret ⟨4, true, bekenWaitForever, 0, 0⟩ 4 .flags 0, .set 5] ∧ SetSince 0 s.log ∧
    RetOk [.set 5] ⟨4, true, bekenWaitForever, 0, 0⟩ 4 ∧ ∃ t, s.setting t = true := by
  obtain ⟨s, hr, hw, hsem, hflag, hlog⟩ : ∃ s : EventExt Bool, Run EventExt.step (fun _ _ => True) { now := 0 } s ∧
      (s.waiter = .get ⟨3, false, bekenWaitForever, 0, 0⟩ bekenWaitForever ∧ s.semaphore = 0 ∧ s.eventFlag = 3 ∧
        s.log = [.set 2, .ret ⟨4, true, bekenWaitForever, 0, 0⟩ 4 .flags 0, .set 5]) := Run.of_exec
    [.set true 5, .post true, .wait 4 true bekenWaitForever, .check, .wait 3 false bekenWaitForever,
      .check, .clock, .get,
      .check, .clock, .set false 2] (by decide +kernel)
  obtain ⟨hset, hret, hwake⟩ := event_flags_served hr
  refine ⟨s, hr, hw, hsem, hflag, hlog, (hset 0).1 (by rw [hflag]; decide), ?_, hwake _ _ hw hsem ?_⟩
  · refine hret _ _ .flags 0 _ ?_
    rw [hlog]
    exact List.suffix_cons ..
  · unfold EventExt.Satisfies
    rw [hflag]
    exact fun i hi => hi

end Bk7258

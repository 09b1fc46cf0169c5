import Bk7258.Lib.Bits
import Bk7258.Lib.Lts

/-!
# High ISRs of `rtos_ext.c`

`rtos_activate_hisr` sets the handler's bit in a critical section and posts the semaphore afterwards; the high-ISR task
takes the lowest bit that is set and runs the handler of `hisr_list` at that place, and waits when no bit is set. `found
c` is the number of activations of `c` that found its bit clear, `taken k` how often the task has taken bit `k`, and
`ran` which handler it has run.
-/

namespace Bk7258
open Lts Function

structure HisrCb (H P : Type) where
  hisr : Option H := none
  hisrParam : Option P := none
  eventId : Nat := 0
  inited : Bool := false

def rtosHisrMax : Nat := 32

structure HisrTable (C H P : Type) where
  cb : C → HisrCb H P := fun _ => {}
  hisrList : Nat → Option C := fun _ => none

namespace HisrTable
variable {C H P : Type} [DecidableEq H] [DecidableEq P]

/-- The loop of `rtos_create_hisr`: the first place of `hisr_list` that is free, unless the handler is found before. -/
def freePlace (s : HisrTable C H P) (hisr : Option H) (param : Option P) : List Nat → Option Nat
  | [] => none
  | i :: is =>
    match s.hisrList i with
    | none => some i
    | some c => if (s.cb c).hisr = hisr ∧ (s.cb c).hisrParam = param then none else s.freePlace hisr param is

structure Create (C H P : Type) where
  hisrCb : C
  hisr : Option H
  param : Option P

variable [DecidableEq C]

def rtosCreateHisr (s : HisrTable C H P) (x : Create C H P) : HisrTable C H P :=
  match s.freePlace x.hisr x.param (List.range rtosHisrMax) with
  | none => s
  | some i =>
    { cb := update s.cb x.hisrCb ⟨x.hisr, x.param, i, true⟩
      hisrList := update s.hisrList i (some x.hisrCb) }

def create (xs : List (Create C H P)) : HisrTable C H P := xs.foldl rtosCreateHisr {}

end HisrTable

inductive HisrTask
  | start
  | scan
  | wait
  | run (eventId : Nat)
deriving DecidableEq, Repr

/-- A context `t` with `posting t` has set the bit of a handler and not posted the semaphore yet; the semaphore is
`none` before it is made. -/
structure HisrSys (C H P T : Type) where
  table : HisrTable C H P
  eventGrp : Nat → BitVec 8 := fun _ => 0
  notifySema : Option Nat := none
  task : HisrTask := .start
  posting : T → Bool := fun _ => false
  found : C → Nat := fun _ => 0
  taken : Nat → Nat := fun _ => 0
  ran : List (Nat × Option (Option H × Option P)) := []

inductive HisrAct (C T : Type)
  | activate (t : T) (hisrCb : C)
  | post (t : T)
  | init
  | scan
  | get
  | getFails
  | run
deriving DecidableEq

/-- The critical section of `get_hisr_event_id`: the bit and `hisr_event_grp` without it -/
def getHisrEventId (eventGrp : Nat → BitVec 8) : Option (Nat × (Nat → BitVec 8)) :=
  (Bits.firstWord eventGrp 4).map fun i =>
    let j := Bits.firstBit (eventGrp i)
    (i * 8 + j, update eventGrp i (eventGrp i &&& ~~~(1#8 <<< j)))

namespace HisrSys
variable {C H P T : Type}

section
variable (s : HisrSys C H P T)

def Pending (eventId : Nat) : Prop := Bits.mem s.eventGrp eventId = true

instance (eventId : Nat) : Decidable (s.Pending eventId) := inferInstanceAs (Decidable (_ = _))

def handler (eventId : Nat) : Option (Option H × Option P) :=
  (s.table.hisrList eventId).map fun c => ((s.table.cb c).hisr, (s.table.cb c).hisrParam)

end

section
variable [DecidableEq C] [DecidableEq T] (s : HisrSys C H P T)

def setBit (t : T) (c : C) : HisrSys C H P T :=
  let eventId := (s.table.cb c).eventId
  { s with
    eventGrp := Bits.insert s.eventGrp eventId
    posting := update s.posting t true
    found := if s.Pending eventId then s.found else update s.found c (s.found c + 1) }

def step : HisrAct C T → Option (HisrSys C H P T)
  | .activate t c =>
    if s.posting t then none
    else if (s.table.cb c).inited = false then some s
    else if (s.table.cb c).eventId ≥ rtosHisrMax then some s
    else some (s.setBit t c)
  | .post t =>
    if s.posting t then
      some { s with notifySema := s.notifySema.map (· + 1), posting := update s.posting t false }
    else none
  | .init => if s.task = .start then some { s with notifySema := some 0, task := .scan } else none
  | .scan =>
    if s.task = .scan then
      match getHisrEventId s.eventGrp with
      | some (eventId, eventGrp) => some { s with
          eventGrp := eventGrp
          task := .run eventId
          taken := update s.taken eventId (s.taken eventId + 1) }
      | none => some { s with task := .wait }
    else none
  | .get => match s.task, s.notifySema with
    | .wait, some (n + 1) => some { s with notifySema := some n, task := .scan }
    | _, _ => none
  | .getFails => if s.task = .wait then some { s with task := .scan } else none
  | .run => match s.task with
    | .run eventId => some { s with task := .scan, ran := s.ran ++ [(eventId, s.handler eventId)] }
    | _ => none

/-! ## The steps as cases -/

inductive Step : HisrAct C T → HisrSys C H P T → Prop
  | refuse (t : T) (c : C) : Step (.activate t c) s
  | activate {t : T} {c : C} (hin : (s.table.cb c).inited = true) : Step (.activate t c) (s.setBit t c)
  | post {t : T} (ht : s.posting t = true) : Step (.post t)
      { s with notifySema := s.notifySema.map (· + 1), posting := update s.posting t false }
  | init : Step .init { s with notifySema := some 0, task := .scan }
  | take {eventId : Nat} {eventGrp : Nat → BitVec 8} (hscan : getHisrEventId s.eventGrp = some (eventId, eventGrp))
      (hp : s.task = .scan) : Step .scan { s with
        eventGrp := eventGrp
        task := .run eventId
        taken := update s.taken eventId (s.taken eventId + 1) }
  | sleep (hscan : getHisrEventId s.eventGrp = none) (hp : s.task = .scan) : Step .scan { s with task := .wait }
  | get {n : Nat} (hn : s.notifySema = some (n + 1)) : Step .get { s with notifySema := some n, task := .scan }
  | getFails (hp : s.task = .wait) : Step .getFails { s with task := .scan }
  | run {eventId : Nat} (hp : s.task = .run eventId) :
      Step .run { s with task := .scan, ran := s.ran ++ [(eventId, s.handler eventId)] }

variable {s} {s' : HisrSys C H P T} {a : HisrAct C T}

theorem step_cases (hs : s.step a = some s') : s.Step a s' := by
  cases a with
  | activate t c =>
    simp only [step] at hs
    split at hs
    · cases hs
    split at hs
    · cases hs
      exact .refuse t c
    · rename_i hin
      split at hs <;> cases hs
      · exact .refuse t c
      · exact .activate (by simpa using hin)
  | post t =>
    simp only [step] at hs
    split at hs <;> cases hs
    rename_i ht
    exact .post ht
  | init =>
    simp only [step] at hs
    split at hs <;> cases hs
    exact .init
  | scan =>
    simp only [step] at hs
    split at hs
    · rename_i hp
      split at hs <;> cases hs
      · rename_i hscan
        exact .take hscan hp
      · rename_i hscan
        exact .sleep hscan hp
    · cases hs
  | get =>
    simp only [step] at hs
    split at hs <;> cases hs
    rename_i hn
    exact .get hn
  | getFails =>
    simp only [step] at hs
    split at hs <;> cases hs
    rename_i hp
    exact .getFails hp
  | run =>
    simp only [step] at hs
    split at hs <;> cases hs
    rename_i hp
    exact .run hp

end
end HisrSys

/-! ## The bits -/

theorem getHisrEventId_some {grp grp' : Nat → BitVec 8} {k : Nat} (h : getHisrEventId grp = some (k, grp')) :
    k < rtosHisrMax ∧ Bits.mem grp k ∧ (∀ i < k, Bits.mem grp i = false) ∧
      ∀ i, Bits.mem grp' i = (Bits.mem grp i && decide (i ≠ k)) := by
  obtain ⟨i, hi, he⟩ := Option.map_eq_some_iff.1 h
  obtain ⟨rfl, rfl⟩ := Prod.mk.inj he
  obtain ⟨hbit, hlt, hmem, hlow⟩ := Bits.firstWord_spec hi
  refine ⟨hlt, hmem, hlow, fun l => ?_⟩
  rw [← Bits.erase_mul_add hbit, Bits.mem_erase (by decide)]

/-! ## The table -/

namespace HisrTable
variable {C H P : Type}

def Listed (s : HisrTable C H P) : Prop :=
  ∀ c, (s.cb c).inited = true → (s.cb c).eventId < rtosHisrMax ∧ s.hisrList (s.cb c).eventId = some c

theorem Listed.inj {s : HisrTable C H P} (h : s.Listed) {c d : C} (hc : (s.cb c).inited)
    (hd : (s.cb d).inited) (he : (s.cb c).eventId = (s.cb d).eventId) : c = d := by
  have hlist := (h c hc).2
  rw [he, (h d hd).2] at hlist
  exact (Option.some.inj hlist).symm

variable [DecidableEq H] [DecidableEq P]

theorem freePlace_spec {s : HisrTable C H P} {hisr : Option H} {param : Option P} {is : List Nat} {i : Nat}
    (h : s.freePlace hisr param is = some i) : i ∈ is ∧ s.hisrList i = none := by
  induction is with
  | nil => cases h
  | cons k is ih =>
    simp only [freePlace] at h
    split at h
    · rename_i hk
      cases h
      exact ⟨List.mem_cons_self .., hk⟩
    · split at h
      · cases h
      · obtain ⟨hmem, hnone⟩ := ih h
        exact ⟨List.mem_cons_of_mem _ hmem, hnone⟩

variable [DecidableEq C]

theorem Listed.rtosCreateHisr {s : HisrTable C H P} (h : s.Listed) (x : Create C H P) :
    (s.rtosCreateHisr x).Listed := by
  unfold HisrTable.rtosCreateHisr
  split
  · exact h
  · rename_i i hfree
    obtain ⟨hmem, hnone⟩ := freePlace_spec hfree
    intro c hc
    by_cases he : c = x.hisrCb
    · subst he
      simp only [update_self]
      exact ⟨List.mem_range.1 hmem, trivial⟩
    · simp only [update_of_ne he] at hc ⊢
      obtain ⟨hlt, hlist⟩ := h c hc
      -- the place of another control block is not free
      have hne : (s.cb c).eventId ≠ i := by
        intro heq
        rw [heq, hnone] at hlist
        cases hlist
      rw [update_of_ne hne]
      exact ⟨hlt, hlist⟩

theorem create_listed (xs : List (Create C H P)) : (create xs).Listed := by
  unfold create
  have hfold : ∀ s : HisrTable C H P, s.Listed → (xs.foldl HisrTable.rtosCreateHisr s).Listed := by
    induction xs with
    | nil => exact fun s hs => hs
    | cons x xs ih => exact fun s hs => ih _ (hs.rtosCreateHisr x)
  exact hfold {} nofun

end HisrTable

/-! ## The invariant -/

namespace HisrSys
variable {C H P T : Type} {s s' : HisrSys C H P T}

def Owned (s : HisrSys C H P T) (k : Nat) : Prop := ∃ c, (s.table.cb c).inited = true ∧ (s.table.cb c).eventId = k

def RanOwn (s : HisrSys C H P T) (e : Nat × Option (Option H × Option P)) : Prop :=
  ∃ c, (s.table.cb c).inited = true ∧ (s.table.cb c).eventId = e.1 ∧
    e.2 = some ((s.table.cb c).hisr, (s.table.cb c).hisrParam)

structure Inv (s : HisrSys C H P T) : Prop where
  listed : s.table.Listed
  owned : ∀ k, s.Pending k → s.Owned k
  count : ∀ c, (s.table.cb c).inited = true →
    s.found c = s.taken (s.table.cb c).eventId + (Bits.mem s.eventGrp (s.table.cb c).eventId).toNat
  running : ∀ k, s.task = .run k → s.Owned k
  ran : ∀ e ∈ s.ran, s.RanOwn e
  made : s.task ≠ .start → s.notifySema.isSome = true
  wake : s.task = .wait → ∀ k, s.Pending k → s.notifySema ≠ some 0 ∨ ∃ t, s.posting t = true

theorem Inv.init (table : HisrTable C H P) (h : table.Listed) : Inv ({ table := table } : HisrSys C H P T) where
  listed := h
  owned k hk := by
    have hzero : Bits.mem (fun _ => 0#8) k = true := hk
    simp [Bits.mem] at hzero
  count c _ := by
    show 0 = 0 + (Bits.mem (fun _ => 0#8) _).toNat
    simp [Bits.mem]
  running k hk := by cases hk
  ran e he := by cases he
  made hp := absurd rfl hp
  wake hp := by cases hp

theorem Inv.goOn (h : s.Inv) (htable : s'.table = s.table) (hgrp : s'.eventGrp = s.eventGrp)
    (hfound : s'.found = s.found)
    (htaken : s'.taken = s.taken) (hran : ∀ e ∈ s'.ran, s.RanOwn e) (hp : s'.task = .scan)
    (hmade : s'.notifySema.isSome) : s'.Inv where
  listed := by rw [htable]; exact h.listed
  owned k hk := by
    unfold Pending at hk
    rw [hgrp] at hk
    unfold Owned
    rw [htable]
    exact h.owned k hk
  count := by rw [htable, hgrp, hfound, htaken]; exact h.count
  running k hk := by rw [hp] at hk; cases hk
  ran e he := by
    unfold RanOwn
    rw [htable]
    exact hran e he
  made _ := hmade
  wake hw := by rw [hp] at hw; cases hw

theorem Inv.take (h : s.Inv) {k : Nat} {grp : Nat → BitVec 8} (hscan : getHisrEventId s.eventGrp = some (k, grp))
    (hp : s.task = .scan) :
    Inv { s with eventGrp := grp, task := .run k, taken := update s.taken k (s.taken k + 1) } := by
  obtain ⟨-, hmem, -, hgrp⟩ := getHisrEventId_some hscan
  refine ⟨h.listed, ?_, ?_, ?_, h.ran, fun _ => h.made (by rw [hp]; exact nofun), fun hw => (by cases hw)⟩
  · intro i hi
    have hi : Bits.mem grp i := hi
    rw [hgrp, Bool.and_eq_true] at hi
    exact h.owned i hi.1
  · intro c hc
    have hcount := h.count c hc
    show s.found c = update s.taken k (s.taken k + 1) (s.table.cb c).eventId +
      (Bits.mem grp (s.table.cb c).eventId).toNat
    rw [hgrp]
    by_cases hk : (s.table.cb c).eventId = k
    · rw [hk, hmem] at hcount
      rw [hk, hmem, update_self, decide_eq_false (fun hne => hne rfl), hcount]
      rfl
    · rw [update_of_ne hk, decide_eq_true hk, Bool.and_true]
      exact hcount
  · intro i hi
    cases hi
    exact h.owned k hmem

theorem Inv.ranOwn (h : s.Inv) {k : Nat} (hp : s.task = .run k) : s.RanOwn (k, s.handler k) := by
  obtain ⟨c, hc, hk⟩ := h.running k hp
  have hlist := (h.listed c hc).2
  rw [hk] at hlist
  exact ⟨c, hc, hk, by rw [handler, hlist]; rfl⟩

variable [DecidableEq C] [DecidableEq T]

theorem pending_setBit (s : HisrSys C H P T) (t : T) (c : C) (k : Nat) :
    (s.setBit t c).Pending k ↔ s.Pending k ∨ k = (s.table.cb c).eventId := by
  unfold Pending setBit
  dsimp only
  rw [Bits.mem_insert (by decide), Bool.or_eq_true, decide_eq_true_eq]

theorem Inv.setBit (h : s.Inv) (t : T) {c : C} (hin : (s.table.cb c).inited) : (s.setBit t c).Inv where
  listed := h.listed
  owned k hk := by
    rcases (s.pending_setBit t c k).1 hk with hk | rfl
    · exact h.owned k hk
    · exact ⟨c, hin, rfl⟩
  count d hd := by
    have hcount := h.count d hd
    show (if s.Pending (s.table.cb c).eventId then s.found else update s.found c (s.found c + 1)) d =
      s.taken (s.table.cb d).eventId + (Bits.mem (Bits.insert s.eventGrp (s.table.cb c).eventId)
        (s.table.cb d).eventId).toNat
    rw [Bits.mem_insert (by decide)]
    by_cases hdc : d = c
    · subst hdc
      rw [decide_eq_true rfl, Bool.or_true]
      by_cases hbit : s.Pending (s.table.cb d).eventId
      · rw [if_pos hbit, hcount, show Bits.mem s.eventGrp (s.table.cb d).eventId = true from hbit]
      · rw [if_neg hbit, update_self, hcount, Bool.eq_false_iff.2 hbit]
        rfl
    · -- another control block has another bit
      have hne : (s.table.cb d).eventId ≠ (s.table.cb c).eventId := fun he => hdc (h.listed.inj hd hin he)
      rw [decide_eq_false hne, Bool.or_false]
      split
      · exact hcount
      · rw [update_of_ne hdc]
        exact hcount
  running := h.running
  ran := h.ran
  made := h.made
  wake _ _ _ := .inr ⟨t, update_self ..⟩

omit [DecidableEq C] in
theorem Inv.post (h : s.Inv) (t : T) :
    Inv { s with notifySema := s.notifySema.map (· + 1), posting := update s.posting t false } where
  listed := h.listed
  owned := h.owned
  count := h.count
  running := h.running
  ran := h.ran
  made hp := by
    rw [Option.isSome_map]
    exact h.made hp
  wake _ _ _ := by
    refine .inl fun hz => ?_
    obtain ⟨n, -, hn⟩ := Option.map_eq_some_iff.1 hz
    cases hn

theorem Inv.step (h : s.Inv) {a : HisrAct C T} (hs : s.step a = some s') : s'.Inv := by
  cases step_cases hs with
  | refuse => exact h
  | activate hin => exact h.setBit _ hin
  | post => exact h.post _
  | init => exact h.goOn rfl rfl rfl rfl h.ran rfl rfl
  | take hscan hp => exact h.take hscan hp
  | sleep hscan hp =>
    refine ⟨h.listed, h.owned, h.count, fun k hk => (by cases hk), h.ran, ?_, ?_⟩
    · exact fun _ => h.made (by rw [hp]; exact nofun)
    · intro _ k hk
      obtain ⟨c, hc, he⟩ := h.owned k hk
      have hclear := Bits.firstWord_eq_none (Option.map_eq_none_iff.1 hscan) (he ▸ (h.listed c hc).1)
      have hset : Bits.mem s.eventGrp k := hk
      rw [hclear] at hset
      cases hset
  | get => exact h.goOn rfl rfl rfl rfl h.ran rfl rfl
  | getFails hp => exact h.goOn rfl rfl rfl rfl h.ran rfl (h.made (by rw [hp]; exact nofun))
  | run hp =>
    refine h.goOn rfl rfl rfl rfl ?_ rfl (h.made (by rw [hp]; exact nofun))
    intro e he
    rcases List.mem_append.1 he with he | he
    · exact h.ran e he
    · rw [List.mem_singleton.1 he]
      exact h.ranOwn hp

end HisrSys

/-- The activations that found the bit of a handler clear are those the task has taken, and the one whose bit is set.
The task does not wait while a bit is set, unless the activation is about to post. -/
theorem hisr_activations_served {C H P T : Type} [DecidableEq C] [DecidableEq H] [DecidableEq P] [DecidableEq T]
    {xs : List (HisrTable.Create C H P)} {s : HisrSys C H P T}
    (hr : Run HisrSys.step (fun _ _ => True) { table := .create xs } s) :
    (∀ c, (s.table.cb c).inited = true →
      s.found c = s.taken (s.table.cb c).eventId + if s.Pending (s.table.cb c).eventId then 1 else 0) ∧
    (∀ s' k, s.step .scan = some s' → s'.task = .run k → s.Pending k ∧ (∀ i < k, ¬s.Pending i) ∧
      ∃ s'', s'.step .run = some s'' ∧ ∃ c, (s.table.cb c).inited = true ∧ (s.table.cb c).eventId = k ∧
        s''.ran = s.ran ++ [(k, some ((s.table.cb c).hisr, (s.table.cb c).hisrParam))]) ∧
    (∀ e ∈ s.ran, s.RanOwn e) ∧
    (s.task = .wait → s.notifySema = some 0 → ∀ k, s.Pending k → ∃ t, s.posting t = true) := by
  have hinv : s.Inv := by
    refine hr.invariant (I := HisrSys.Inv) (.init _ (HisrTable.create_listed xs)) ?_
    intro t u a _ ht _ hs
    exact ht.step hs
  refine ⟨fun c hc => ?_, fun s' k hs hk => ?_, hinv.ran, fun hp hsema k hk => ?_⟩
  · rw [hinv.count c hc]
    by_cases hbit : s.Pending (s.table.cb c).eventId
    · rw [if_pos hbit, show Bits.mem s.eventGrp (s.table.cb c).eventId = true from hbit, Bool.toNat_true]
    · rw [if_neg hbit, Bool.eq_false_iff.2 hbit, Bool.toNat_false]
  · have hinv' := hinv.step hs
    cases HisrSys.step_cases hs with
    | take hscan =>
      cases hk
      obtain ⟨-, hmem, hlow, -⟩ := getHisrEventId_some hscan
      refine ⟨hmem, fun i hi hset => ?_, _, rfl, ?_⟩
      · rw [HisrSys.Pending, hlow i hi] at hset
        cases hset
      · obtain ⟨c, hc, hk, hrun⟩ := hinv'.ranOwn rfl
        exact ⟨c, hc, hk, congrArg (fun x => s.ran ++ [(k, x)]) hrun⟩
    | sleep => cases hk
  · rcases hinv.wake hp k hk with hne | ht
    · exact absurd hsema hne
    · exact ht

def twoHisrs : HisrSys Bool Nat Nat Bool := { table := .create [⟨false, some 7, none⟩, ⟨true, some 8, none⟩] }

theorem hisr_activations_served_two :
    (∃ s : HisrSys Bool Nat Nat Bool, Run HisrSys.step (fun _ _ => True) twoHisrs s ∧
      s.task = .wait ∧ s.notifySema = some 0 ∧ s.Pending 0 ∧ s.Pending 1 ∧
      s.found false = s.taken 0 + 1 ∧ s.found true = s.taken 1 + 1 ∧ ∃ t, s.posting t = true) ∧
    ∃ s : HisrSys Bool Nat Nat Bool, Run HisrSys.step (fun _ _ => True) twoHisrs s ∧
      s.taken 0 = 1 ∧ s.ran = [(0, some (some 7, none))] ∧ (∀ e ∈ s.ran, s.RanOwn e) ∧ s.found false = s.taken 0 ∧
      s.found true = s.taken 1 + 1 := by
  constructor
  · obtain ⟨s, hr, hp, hsema, h0, h1, hf, ht⟩ : ∃ s : HisrSys Bool Nat Nat Bool,
        Run HisrSys.step (fun _ _ => True) twoHisrs s ∧
        (s.task = .wait ∧ s.notifySema = some 0 ∧ s.Pending 0 ∧ s.Pending 1 ∧
          ((s.table.cb false).inited ∧ (s.table.cb false).eventId = 0) ∧
          (s.table.cb true).inited ∧ (s.table.cb true).eventId = 1) :=
      Run.of_exec [.init, .scan, .activate true true, .activate false false] (by decide +kernel)
    obtain ⟨hcount, -, -, hwake⟩ := hisr_activations_served hr
    have hfound := hcount false hf.1
    have hfound' := hcount true ht.1
    rw [hf.2, if_pos h0] at hfound
    rw [ht.2, if_pos h1] at hfound'
    exact ⟨s, hr, hp, hsema, h0, h1, hfound, hfound', hwake hp hsema 0 h0⟩
  · -- the task is woken, takes the lower bit and runs its handler
    obtain ⟨s, hr, htaken, hran, h0, h1, hf, ht⟩ : ∃ s : HisrSys Bool Nat Nat Bool,
        Run HisrSys.step (fun _ _ => True) twoHisrs s ∧
        (s.taken 0 = 1 ∧ s.ran = [(0, some (some 7, none))] ∧ ¬s.Pending 0 ∧ s.Pending 1 ∧
          ((s.table.cb false).inited ∧ (s.table.cb false).eventId = 0) ∧
          (s.table.cb true).inited ∧ (s.table.cb true).eventId = 1) :=
      Run.of_exec [.init, .scan, .activate true true, .activate false false, .post true, .get, .scan, .run]
        (by decide +kernel)
    obtain ⟨hcount, -, hown, -⟩ := hisr_activations_served hr
    have hfound := hcount false hf.1
    have hfound' := hcount true ht.1
    rw [hf.2, if_neg h0] at hfound
    rw [ht.2, if_pos h1] at hfound'
    exact ⟨s, hr, htaken, hran, hown, hfound, hfound'⟩

end Bk7258

import Bk7258.BkIpc.Thread

/-!
# Order, shutdown and progress of the thread

What is pushed is written once and in order. The thread does not go to sleep with a message in `local_list`. `sem` is
with one context or one command at a time; only the announcement of a shutdown loses it.
-/

namespace Bk7258
open Lts

def IpcSender.writes : IpcSender → Bool
  | .write _ => true
  | _ => false

namespace BkIpcInfo
variable {T C : Type}

def writes (s : BkIpcInfo T C) : Option T → Bool
  | none => s.thread.writes
  | some t => (s.task t).writes

inductive SemMode (s : BkIpcInfo T C) : Prop
  | free (hsem : s.sem = 1) (hout : s.outstanding = none) (hw : ∀ c, s.writes c = false)
  | held (c : Option T) (hsem : s.sem = 0) (hout : s.outstanding = none) (hc : s.writes c = true)
      (hw : ∀ d, d ≠ c → s.writes d = false)
  | out (k : BkIpcCmd C) (hsem : s.sem = 0) (hout : s.outstanding = some k) (hw : ∀ c, s.writes c = false)
  | closed (hsem : s.sem = 0) (hout : s.outstanding = none) (hw : ∀ c, s.writes c = false)
      (hann : .shutdown ∈ s.written) (hthread : s.thread.needsSem = false)

namespace SemMode
variable {s s' : BkIpcInfo T C}

theorem congr (h : s.SemMode) (hsem : s'.sem = s.sem) (hout : s'.outstanding = s.outstanding)
    (hw : ∀ c, s'.writes c = s.writes c)
    (hcl : .shutdown ∈ s.written → s.thread.needsSem = false → .shutdown ∈ s'.written ∧ s'.thread.needsSem = false) :
    s'.SemMode := by
  cases h with
  | free h1 h2 h3 => exact .free (hsem.trans h1) (hout.trans h2) fun c => (hw c).trans (h3 c)
  | held c h1 h2 hc h3 =>
    exact .held c (hsem.trans h1) (hout.trans h2) ((hw c).trans hc) fun d hd => (hw d).trans (h3 d hd)
  | out k h1 h2 h3 => exact .out k (hsem.trans h1) (hout.trans h2) fun c => (hw c).trans (h3 c)
  | closed h1 h2 h3 hann hthread =>
    obtain ⟨h4, h5⟩ := hcl hann hthread
    exact .closed (hsem.trans h1) (hout.trans h2) (fun c => (hw c).trans (h3 c)) h4 h5

theorem free_of_pos (h : s.SemMode) (hpos : 0 < s.sem) :
    s.sem = 1 ∧ s.outstanding = none ∧ ∀ c, s.writes c = false := by
  cases h with
  | free h1 h2 h3 => exact ⟨h1, h2, h3⟩
  | held _ h1 | out _ h1 | closed h1 => omega

theorem get (h : s.SemMode) (hpos : 0 < s.sem) {c : Option T} (hsem : s'.sem = s.sem - 1)
    (hout : s'.outstanding = s.outstanding) (hc : s'.writes c) (hw : ∀ d, d ≠ c → s'.writes d = s.writes d) :
    s'.SemMode := by
  obtain ⟨h1, h2, h3⟩ := h.free_of_pos hpos
  exact .held c (by omega) (hout.trans h2) hc fun d hd => (hw d hd).trans (h3 d)

theorem of_writes (h : s.SemMode) {c : Option T} (hc : s.writes c) :
    s.sem = 0 ∧ s.outstanding = none ∧ ∀ d, d ≠ c → s.writes d = false := by
  cases h with
  | free _ _ hw | out _ _ _ hw | closed _ _ hw => rw [hw c] at hc; cases hc
  | held d h1 h2 hd hw =>
    by_cases hcd : c = d
    · subst hcd; exact ⟨h1, h2, hw⟩
    · rw [hw c hcd] at hc; cases hc

theorem write (h : s.SemMode) {c : Option T} (hc : s.writes c) {k : BkIpcCmd C} (hsem : s'.sem = s.sem)
    (hout : s'.outstanding = some k) (hc' : s'.writes c = false) (hw : ∀ d, d ≠ c → s'.writes d = s.writes d) :
    s'.SemMode := by
  obtain ⟨h1, -, h3⟩ := h.of_writes hc
  refine .out k (hsem.trans h1) hout fun d => ?_
  by_cases hd : d = c
  · rw [hd, hc']
  · exact (hw d hd).trans (h3 d hd)

end SemMode

def ShutdownFact (written : List (BkIpcCmd C)) : IpcThread C → Prop
  | .wait | .collect => True
  | .free bits | .recv bits => bits.localShutdown = true → .shutdown ∉ written
  | .handle bits _ => .shutdown ∉ written ∧ bits.localShutdown = false
  | .send bits again | .shutdown bits again => bits.localShutdown = true → .shutdown ∉ written ∧ again = false
  | .get bits again part c | .write bits again part c => .shutdown ∉ written ∧ match part with
    | .shutdown => c = .shutdown ∧ again = false
    | .recv | .noDev | .send => c ≠ .shutdown ∧ bits.localShutdown = false
  | .cmpl _ again part => .shutdown ∈ written ∧ part = .shutdown ∧ again = false
  | .loop bits again => bits.localShutdown = true → again = false

theorem ShutdownFact.congr {w w' : List (BkIpcCmd C)} {p : IpcThread C} (h : ShutdownFact w p)
    (hw : .shutdown ∈ w' ↔ .shutdown ∈ w) : ShutdownFact w' p := by
  cases p with
  | wait | collect => trivial
  | loop => exact h
  | _ => simpa only [ShutdownFact, hw] using h

section
variable {s : BkIpcInfo T C} [DecidableEq T] {t : T} {q : IpcSender}

theorem writes_setTask (hq : q.writes = (s.task t).writes) (c : Option T) : (s.setTask t q).writes c = s.writes c := by
  cases c with
  | none => rfl
  | some u =>
    by_cases hu : u = t
    · subst hu; simp [writes, setTask, hq]
    · simp [writes, setTask, hu]

theorem writes_setTask_of_ne {c : Option T} (hc : c ≠ some t) : (s.setTask t q).writes c = s.writes c := by
  cases c with
  | none => rfl
  | some u =>
    have hu : u ≠ t := fun h => hc (by rw [h])
    simp [writes, setTask, hu]

theorem writes_setTask_self : (s.setTask t q).writes (some t) = q.writes := by simp [writes, setTask]

theorem notify_setTask (ht : s.task t ≠ .notify) :
    (∃ u, s.task u = .notify) → ∃ u, (s.setTask t q).task u = .notify := by
  rintro ⟨u, hu⟩
  have hne : u ≠ t := by rintro rfl; exact ht hu
  exact ⟨u, by simpa [setTask, hne] using hu⟩

end

variable [DecidableEq C]

structure Inv (s : BkIpcInfo T C) : Prop where
  order : s.sentNums ++ s.thread.inHand ++ s.localList = s.pushed
  event : s.waitingEvent ≠ {} → 0 < s.waitingSem ∨ s.thread = .collect
  look : s.localList ≠ [] → (∃ t, s.task t = .notify) ∨ s.waitingEvent.send = true ∨ s.thread.looks = true
  sem : s.SemMode
  fact : ShutdownFact s.written s.thread
  once : s.written.count .shutdown ≤ 1

namespace Inv
variable {s s' : BkIpcInfo T C}

/-! ### Tasks and interrupts -/

theorem rest (h : s.Inv) (hthread : s'.thread = s.thread) (hnums : s'.sentNums = s.sentNums)
    (hann : s'.written.count .shutdown = s.written.count .shutdown) (xs : List Nat)
    (hlist : s'.localList = s.localList ++ xs) (hpushed : s'.pushed = s.pushed ++ xs)
    (hevent : 0 < s'.waitingSem ∨ s'.waitingEvent = s.waitingEvent ∧ s'.waitingSem = s.waitingSem)
    (hlook : (∃ t, s'.task t = .notify) ∨ s'.waitingEvent.send ∨ xs = [] ∧
      ((∃ t, s.task t = .notify) → ∃ t, s'.task t = .notify) ∧
      (s.waitingEvent.send → s'.waitingEvent.send))
    (hsem : s'.SemMode) : s'.Inv where
  order := by
    rw [hthread, hlist, hpushed, ← h.order, hnums]
    simp only [List.append_assoc]
  event he := by
    rcases hevent with hpos | ⟨h1, h2⟩
    · exact .inl hpos
    · rw [h2, hthread]
      exact h.event (h1 ▸ he)
  look hne := by
    rcases hlook with ht | hb | ⟨rfl, ht, hb⟩
    · exact .inl ht
    · exact .inr (.inl hb)
    · rw [hlist, List.append_nil] at hne
      rw [hthread]
      exact (h.look hne).imp ht (Or.imp_left hb)
  sem := hsem
  fact := by
    rw [hthread]
    exact h.fact.congr (by rw [← List.count_pos_iff, ← List.count_pos_iff, hann])
  once := by rw [hann]; exact h.once

theorem received (h : s.Inv) (hthread : s'.thread = s.thread) (hwritten : s'.written = s.written)
    (hlist : s'.localList = s.localList) (hpushed : s'.pushed = s.pushed) (htask : s'.task = s.task)
    (hevent : 0 < s'.waitingSem ∨ s'.waitingEvent = s.waitingEvent ∧ s'.waitingSem = s.waitingSem)
    (hsend : s.waitingEvent.send → s'.waitingEvent.send) (hsem : s'.sem = s.sem)
    (hout : s'.outstanding = s.outstanding) : s'.Inv := by
  have hw : ∀ c, s'.writes c = s.writes c := by
    intro c
    cases c with
    | none => simp only [writes, hthread]
    | some t => simp only [writes, htask]
  refine h.rest hthread (by rw [sentNums, sentNums, hwritten]) (by rw [hwritten]) [] (by rw [hlist, List.append_nil])
    (by rw [hpushed, List.append_nil]) hevent (.inr (.inr ⟨rfl, fun ht => htask ▸ ht, hsend⟩)) ?_
  exact h.sem.congr hsem hout hw fun h1 h2 => ⟨hwritten ▸ h1, hthread ▸ h2⟩

theorem txCmpl (h : s.Inv) (hout : s.outstanding.isSome) : Inv { s with outstanding := none, sem := s.sem + 1 } := by
  refine h.rest rfl rfl rfl [] (List.append_nil _).symm (List.append_nil _).symm (.inr ⟨rfl, rfl⟩)
    (.inr (.inr ⟨rfl, id, id⟩)) ?_
  cases h.sem with
  | free _ h2 | held _ _ h2 | closed _ h2 => rw [h2] at hout; cases hout
  | out k h1 h2 h3 => exact .free (by rw [h1]) rfl h3

variable [DecidableEq T] {t : T}

theorem send (h : s.Inv) (ht : s.task t = .idle) (num : Nat) :
    Inv { s.setTask t .notify with localList := s.localList ++ [num], pushed := s.pushed ++ [num] } :=
  h.rest rfl rfl rfl [num] rfl rfl (.inr ⟨rfl, rfl⟩) (.inl ⟨t, by simp [setTask]⟩)
    (h.sem.congr rfl rfl (fun c => writes_setTask (q := .notify) (by rw [ht]; rfl) c) fun h1 h2 => ⟨h1, h2⟩)

theorem notify (h : s.Inv) (ht : s.task t = .notify) : ((s.setTask t .idle).eventNotify { send := true }).Inv :=
  h.rest rfl rfl rfl [] (List.append_nil _).symm (List.append_nil _).symm (.inl (Nat.succ_pos _))
    (.inr (.inl (Bool.or_true _)))
    (h.sem.congr rfl rfl (fun c => writes_setTask (s := s) (q := .idle) (by rw [ht]; rfl) c) fun h1 h2 => ⟨h1, h2⟩)

theorem call (h : s.Inv) (ht : s.task t = .idle) (c : IpcCall) : (s.setTask t (.get c)).Inv :=
  h.rest rfl rfl rfl [] (List.append_nil _).symm (List.append_nil _).symm (.inr ⟨rfl, rfl⟩)
    (.inr (.inr ⟨rfl, notify_setTask (by rw [ht]; nofun), id⟩))
    (h.sem.congr rfl rfl (fun d => writes_setTask (q := .get c) (by rw [ht]; rfl) d) fun h1 h2 => ⟨h1, h2⟩)

theorem get (h : s.Inv) {c : IpcCall} (ht : s.task t = .get c) (hpos : 0 < s.sem) :
    Inv { s.setTask t (.write c) with sem := s.sem - 1 } :=
  h.rest rfl rfl rfl [] (List.append_nil _).symm (List.append_nil _).symm (.inr ⟨rfl, rfl⟩)
    (.inr (.inr ⟨rfl, notify_setTask (by rw [ht]; nofun), id⟩))
    (h.sem.get hpos (c := some t) rfl rfl writes_setTask_self fun d hd =>
      writes_setTask_of_ne (s := s) (q := .write c) hd)

theorem write (h : s.Inv) {c : IpcCall} (ht : s.task t = .write c) : ((s.setTask t .idle).mbChnlWrite c.cmd).2.Inv := by
  have hw : s.writes (some t) := by simp [writes, ht, IpcSender.writes]
  have hout : (s.setTask t .idle).outstanding = none := (h.sem.of_writes hw).2.1
  simp only [mbChnlWrite, hout]
  refine h.rest rfl ?_ ?_ [] (List.append_nil _).symm (List.append_nil _).symm (.inr ⟨rfl, rfl⟩)
    (.inr (.inr ⟨rfl, notify_setTask (by rw [ht]; nofun), id⟩))
    (h.sem.write hw rfl rfl writes_setTask_self fun d hd => writes_setTask_of_ne (s := s) (q := .idle) hd)
  · cases c <;> simp [sentNums, setTask, IpcCall.cmd]
  · cases c <;> simp [setTask, IpcCall.cmd]

end Inv

/-! ### The thread -/

namespace Inv
variable {s s' : BkIpcInfo T C} {p : IpcThread C} {bits : IpcEvents} {again : Bool}

section
variable (h : s.Inv) (hp : s.thread = p)
include h hp

theorem order_at : s.sentNums ++ p.inHand ++ s.localList = s.pushed := hp ▸ h.order

theorem fact_at : ShutdownFact s.written p := hp ▸ h.fact

theorem event_at (hne : p ≠ .collect) (he : s.waitingEvent ≠ {}) : 0 < s.waitingSem :=
  (h.event he).resolve_right (hp ▸ hne)

theorem look_at (hl : s.localList ≠ []) :
    (∃ t, s.task t = .notify) ∨ s.waitingEvent.send ∨ p.looks := hp ▸ h.look hl

end

theorem sem_at {q : IpcThread C} (h : s.Inv) (hp : s.thread = p) (hthread : s'.thread = q) (htask : s'.task = s.task)
    (hsem : s'.sem = s.sem) (hout : s'.outstanding = s.outstanding) (hwritten : s'.written = s.written)
    (hw : q.writes = p.writes) (hneed : .shutdown ∈ s.written → p.needsSem = false → q.needsSem = false) :
    s'.SemMode := by
  refine h.sem.congr hsem hout ?_ fun h1 h2 => ⟨hwritten ▸ h1, hthread ▸ hneed h1 (hp ▸ h2)⟩
  rintro (_ | t)
  · simp only [writes, hp, hthread, hw]
  · simp only [writes, htask]

theorem move {q : IpcThread C} (h : s.Inv) (hp : s.thread = p) (hne : p ≠ .collect) (hhand : q.inHand = p.inHand)
    (hlook : s.localList ≠ [] → p.looks → q.looks) (hw : q.writes = p.writes)
    (hneed : .shutdown ∈ s.written → p.needsSem = false → q.needsSem = false)
    (hfact : ShutdownFact s.written q) : (s.setThread q).Inv where
  order := hhand ▸ h.order_at hp
  event he := .inl (h.event_at hp hne he)
  look hl := (h.look_at hp hl).imp_right (Or.imp_right (hlook hl))
  sem := h.sem_at hp rfl rfl rfl rfl rfl hw hneed
  fact := hfact
  once := h.once

section
variable (h : s.Inv)
include h

theorem wait (hp : s.thread = .wait) :
    Inv { s with waitingSem := s.waitingSem - 1, ret := 0, thread := .collect } where
  order := (h.order_at hp :)
  event _ := .inr rfl
  look hl := (h.look_at hp hl :)
  sem := h.sem_at hp rfl rfl rfl rfl rfl rfl fun _ _ => rfl
  fact := trivial
  once := h.once

theorem collect (hp : s.thread = .collect)
    (hok : s.waitingEvent.localShutdown → .shutdown ∉ s.written) :
    Inv { s with waitingEvent := {}, thread := .free s.waitingEvent } where
  order := (h.order_at hp :)
  event he := absurd rfl he
  look hl := by
    rcases h.look_at hp hl with ht | hb | hk
    · exact .inl ht
    · exact .inr (.inr hb)
    · cases hk
  sem := h.sem_at hp rfl rfl rfl rfl rfl rfl fun _ _ => rfl
  fact := hok
  once := h.once

theorem free (hp : s.thread = .free bits) : (s.setThread (.recv bits)).Inv :=
  h.move hp nofun rfl (fun _ hk => hk) rfl (fun _ _ => rfl) (h.fact_at hp :)

theorem recv_none (hp : s.thread = .recv bits) : (s.setThread (.send bits false)).Inv :=
  h.move hp nofun rfl (fun _ hk => hk) rfl (fun _ _ => rfl) fun hl => ⟨h.fact_at hp hl, rfl⟩

theorem recv (hp : s.thread = .recv bits) (m : IpcMsg C) (rest : List (IpcMsg C))
    (hloc : bits.localShutdown = false) (hann : .shutdown ∉ s.written) :
    Inv { s with remoteList := rest, thread := .handle bits m } := by
  have h' : Inv { s with remoteList := rest } := h.received rfl rfl rfl rfl rfl (.inr ⟨rfl, rfl⟩) id rfl rfl
  exact h'.move hp nofun rfl (fun _ hk => hk) rfl (fun _ _ => rfl) ⟨hann, hloc⟩

theorem handled {m : IpcMsg C} (hp : s.thread = .handle bits m) {part : IpcPart} (hpart : part = .recv ∨ part = .noDev)
    (kept : Bool) (r ret : UInt32) (handled : List (IpcMsg C × Option IpcCb)) : Inv { s with
      thread := if kept then .send bits true else .get bits true part (.ack m r)
      ret := ret
      handled := handled } := by
  obtain ⟨hann, hloc⟩ := h.fact_at hp
  cases kept with
  | true =>
    have h' : (s.setThread (.send bits true)).Inv :=
      h.move hp nofun rfl (fun _ hk => hk) rfl (fun _ _ => rfl) fun hl => absurd hl (by simp [hloc])
    exact h'.received rfl rfl rfl rfl rfl (.inr ⟨rfl, rfl⟩) id rfl rfl
  | false =>
    have h' : (s.setThread (.get bits true part (.ack m r))).Inv := by
      refine h.move hp nofun rfl (fun _ hk => ?_) rfl (fun h1 => absurd h1 hann) ⟨hann, ?_⟩
      · exact Bool.and_eq_true_iff.2 ⟨hk, rfl⟩
      · rcases hpart with rfl | rfl <;> exact ⟨nofun, hloc⟩
    exact h'.received rfl rfl rfl rfl rfl (.inr ⟨rfl, rfl⟩) id rfl rfl

theorem send_none (hp : s.thread = .send bits again) (hnil : bits.send → s.localList = []) :
    (s.setThread (.shutdown bits again)).Inv :=
  h.move hp nofun rfl (fun hl hk => absurd (hnil hk) hl) rfl (fun _ _ => rfl) (h.fact_at hp :)

theorem pop (hp : s.thread = .send bits again) {d : Nat} {rest : List Nat} (hlist : s.localList = d :: rest)
    (hsend : bits.send) (hloc : bits.localShutdown = false) (hann : .shutdown ∉ s.written) :
    Inv { s with localList := rest, thread := .get bits true .send (.cmd d) } where
  order := by
    rw [← h.order_at hp, hlist]
    simp [sentNums, IpcThread.inHand]
  event he := .inl (h.event_at hp nofun he)
  look _ := .inr (.inr (by simp [IpcThread.looks, hsend]))
  sem := h.sem_at hp rfl rfl rfl rfl rfl rfl fun h1 => absurd h1 hann
  fact := ⟨hann, nofun, hloc⟩
  once := h.once

theorem announce (hp : s.thread = .shutdown bits again) (hloc : bits.localShutdown) :
    (s.setThread (.get bits again .shutdown .shutdown)).Inv := by
  obtain ⟨hann, hagain⟩ := h.fact_at hp hloc
  exact h.move hp nofun rfl (fun _ hk => hk) rfl (fun h1 => absurd h1 hann) ⟨hann, rfl, hagain⟩

theorem shutdown_none (hp : s.thread = .shutdown bits again) (hloc : bits.localShutdown = false) :
    (s.setThread (.loop bits again)).Inv :=
  h.move hp nofun rfl (fun _ hk => hk) rfl (fun _ _ => rfl) fun hl => absurd hl (by simp [hloc])

theorem loop (hp : s.thread = .loop bits again) :
    (s.setThread (if again then .free bits else .wait)).Inv := by
  have hfact := h.fact_at hp
  cases again with
  | true =>
    exact h.move hp nofun rfl (fun _ hk => (Bool.and_eq_true_iff.1 hk).1) rfl (fun _ _ => rfl)
      fun hl => absurd (hfact hl) nofun
  | false =>
    exact h.move hp nofun rfl (fun _ hk => absurd (Bool.and_eq_true_iff.1 hk).2 nofun) rfl (fun _ _ => rfl) trivial

end

variable {part : IpcPart} {c : BkIpcCmd C}

theorem getThread (h : s.Inv) (hp : s.thread = .get bits again part c) (hpos : 0 < s.sem) :
    Inv { s with sem := s.sem - 1, thread := .write bits again part c } where
  order := by
    have horder := (h.order_at hp :)
    cases c <;> exact horder
  event he := .inl (h.event_at hp nofun he)
  look hl := by
    have hlook := h.look_at hp hl
    cases part <;> exact hlook
  sem := by
    refine h.sem.get hpos (c := none) rfl rfl rfl ?_
    rintro (_ | t) hd
    · exact absurd rfl hd
    · rfl
  fact := (h.fact_at hp :)
  once := h.once

theorem cmpl (h : s.Inv) (hp : s.thread = .cmpl bits again part) (hpos : 0 < s.sem) :
    Inv { s with sem := s.sem - 1, thread := part.next bits again } := by
  obtain ⟨hann, rfl, rfl⟩ := h.fact_at hp
  obtain ⟨h1, h2, h3⟩ := h.sem.free_of_pos hpos
  exact {
    order := (h.order_at hp :)
    event := fun he => .inl (h.event_at hp nofun he)
    look := fun hl => (h.look_at hp hl :)
    sem := by
      refine .closed (show s.sem - 1 = 0 by omega) h2 ?_ hann rfl
      rintro (_ | t)
      · rfl
      · exact h3 (some t)
    fact := fun _ => rfl
    once := h.once }

section
variable (h : s.Inv) (hp : s.thread = .write bits again part c)
include h hp

theorem sem_write {q : IpcThread C} (hq : q.writes = false) {ret : UInt32} :
    SemMode { s with outstanding := some c, written := s.written ++ [c], ret := ret, thread := q } := by
  have hw : s.writes none := by simp only [writes, hp]; rfl
  refine h.sem.write hw rfl rfl hq ?_
  rintro (_ | t) hd
  · exact absurd rfl hd
  · rfl

theorem writeShutdown (hc : c = .shutdown) (ret : UInt32) : Inv { s with
      outstanding := some c, written := s.written ++ [c], ret := ret, thread := .cmpl bits again part } := by
  obtain ⟨hann, hpart⟩ := h.fact_at hp
  cases part with
  | recv | noDev | send => exact absurd hc hpart.1
  | shutdown =>
    subst hc
    exact {
      order := by
        rw [← h.order_at hp]
        simp [sentNums, IpcThread.inHand]
      event := fun he => .inl (h.event_at hp nofun he)
      look := fun hl => (h.look_at hp hl :)
      sem := h.sem_write hp rfl
      fact := ⟨by simp, rfl, hpart.2⟩
      once := by simp [List.count_eq_zero.2 hann] }

theorem writeMsg (hc : c ≠ .shutdown) (ret : UInt32) : Inv { s with
      outstanding := some c, written := s.written ++ [c], ret := ret, thread := part.next bits again } := by
  obtain ⟨hann, hpart⟩ := h.fact_at hp
  have hloc : bits.localShutdown → .shutdown ∉ s.written ++ [c] ∧ again = false := by
    intro hl
    cases part with
    | shutdown => exact absurd hpart.1 hc
    | recv | noDev | send => rw [hpart.2] at hl; cases hl
  exact {
    order := by
      rw [← h.order_at hp]
      cases part <;> cases c <;> simp_all [sentNums, IpcThread.inHand, IpcPart.next]
    event := fun he => .inl (h.event_at hp nofun he)
    look := by
      intro hl
      refine (h.look_at hp hl).imp_right (Or.imp_right fun hk => ?_)
      cases part with
      | recv | noDev => exact (Bool.and_eq_true_iff.1 hk).1
      | send | shutdown => exact hk
    sem := h.sem_write hp (by cases part <;> rfl)
    fact := by
      cases part with
      | shutdown => exact absurd hpart.1 hc
      | recv | noDev | send => exact hloc
    once := by simp [List.count_eq_zero.2 hann, hc] }

end

/-- Whoever has `sem` finds the channel free. -/
theorem free_of_write (h : s.Inv) (hp : s.thread = .write bits again part c) : s.outstanding = none := by
  have hw : s.writes none := by simp only [writes, hp]; rfl
  exact (h.sem.of_writes hw).2.1

omit [DecidableEq C] in
theorem no_shutdown {α : Type} {l : List α} (hne : l ≠ []) (hok : bits.localShutdown ∨ .shutdown ∈ s.written → l = []) :
    bits.localShutdown = false ∧ .shutdown ∉ s.written :=
  ⟨Bool.eq_false_iff.2 fun hl => hne (hok (.inl hl)), fun hann => hne (hok (.inr hann))⟩

variable {env : IpcEnv C} (hword : ∀ n, env.word n = .self)
include hword

theorem threadStep {e : ThreadIn} (h : s.Inv) (hok : s.ThreadOk s.thread) (hs : s.threadStep env e = some s') :
    s'.Inv := by
  cases threadStep_cases hword hs with
  | wait hp _ => exact h.wait hp
  | collect hp =>
    rw [hp] at hok
    exact h.collect hp hok
  | freeOne => exact h.received rfl rfl rfl rfl rfl (.inr ⟨rfl, rfl⟩) id rfl rfl
  | freeNone hp => exact h.free hp
  | recvOne hp hb hlist =>
    rw [hp] at hok
    obtain ⟨hloc, hann⟩ := no_shutdown (by rw [hlist]; nofun) (hok hb)
    exact h.recv hp _ _ hloc hann
  | recvNone hp => exact h.recv_none hp
  | noDev hp => exact h.handled hp (.inr rfl) false ..
  | rxCb hp => exact h.handled hp (.inl rfl) ..
  | noCb hp => exact h.handled hp (.inl rfl) ..
  | sendOne hp hb hlist =>
    rw [hp] at hok
    obtain ⟨hloc, hann⟩ := no_shutdown (by rw [hlist]; nofun) (hok hb)
    exact h.pop hp hlist hb hloc hann
  | sendNone hp hnil => exact h.send_none hp hnil
  | announce hp hb => exact h.announce hp hb
  | noShutdown hp hb => exact h.shutdown_none hp hb
  | get hp hpos => exact h.getThread hp hpos
  | @write _ _ _ c hp =>
    by_cases hc : c = .shutdown
    · rw [if_pos hc]; exact h.writeShutdown hp hc _
    · rw [if_neg hc]; exact h.writeMsg hp hc _
  | refused hp hout =>
    rw [h.free_of_write hp] at hout
    cases hout
  | cmpl hp hpos => exact h.cmpl hp hpos
  | loop hp => exact h.loop hp

variable [DecidableEq T]

theorem step {a : BkIpcAct T C} (h : s.Inv) (hok : s.ShutdownOk a) (hs : s.step env a = some s') : s'.Inv := by
  cases step_cases env hs with
  | send ht num => exact h.send ht num
  | notify ht => exact h.notify ht
  | call ht c => exact h.call ht c
  | get ht hpos => exact h.get ht hpos
  | write ht => exact h.write ht
  | thread hs => exact h.threadStep hword hok hs
  | rxCmd | rxAck => exact h.received rfl rfl rfl rfl rfl (.inr ⟨rfl, rfl⟩) id rfl rfl
  | rxNotify | shutdown =>
    exact h.received rfl rfl rfl rfl rfl (.inl (Nat.succ_pos _)) (fun hb => Bool.or_eq_true_iff.2 (.inl hb)) rfl rfl
  | txCmpl hout => exact h.txCmpl hout

omit hword [DecidableEq T] in
theorem init : Inv ({} : BkIpcInfo T C) where
  order := rfl
  event he := absurd rfl he
  look hl := absurd rfl hl
  sem := .free rfl rfl (by rintro (_ | t) <;> rfl)
  fact := trivial
  once := Nat.zero_le _

theorem run (h : Run (BkIpcInfo.step env) BkIpcInfo.ShutdownOk ({} : BkIpcInfo T C) s) : s.Inv :=
  h.invariant (I := Inv) init fun _ _ _ _ hi hok hs => hi.step hword hok hs

end Inv
end BkIpcInfo
end Bk7258

import Bk7258.Lib.Deque
import Bk7258.Lib.Lts
import Bk7258.Lib.Mqueue

/-!
# Queues of the RTOS layer

`beken_rtos.c` makes a queue from a POSIX message queue. A message has priority 0, one for the front has `MQ_PRIO_MAX`,
which is the first priority `mq_send` rejects. `rtos_reset_queue` takes messages out with a buffer of one byte. A call
that waits for ever has no result; calls come one after the other here.
-/

namespace Bk7258
open Lts Mqueue

inductive RtosErr
  | kNoErr
  | kGeneralErr
  | kTimeoutErr
  | kParamErr
deriving DecidableEq, Repr

def bekenWaitForever : UInt32 := 0xFFFFFFFF

/-- `struct beken_mqueue`, with the queue that `mqd` refers to -/
structure BekenMqueue where
  mq : Mq UInt8
  msgsize : Nat
deriving DecidableEq, Repr

def rtosInitQueue (mallocOk openOk : Bool) (messageSize numberOfMessages : UInt32) : Except RtosErr BekenMqueue :=
  if mallocOk && openOk then
    .ok { mq := { maxmsg := numberOfMessages.toNat, msgsize := messageSize.toNat }, msgsize := messageSize.toNat }
  else .error .kGeneralErr

namespace BekenMqueue

section
variable (q : BekenMqueue)

def bytes (message : Nat → UInt8) : List UInt8 := (List.range q.msgsize).map message

def sent (wait : Option (BekenMqueue × RtosErr)) : Attempt (Mq UInt8) → Option (BekenMqueue × RtosErr)
  | .done mq => some ({ q with mq }, .kNoErr)
  | .error => some (q, .kGeneralErr)
  | .wait => wait

variable (prioMax : Nat)

/-- The two push functions are the same but for the priority. -/
def pushWithPrio (prio : Nat) (message : Nat → UInt8) (timeoutMs : UInt32) : Option (BekenMqueue × RtosErr) :=
  let r := q.mq.send prioMax (q.bytes message) prio
  if timeoutMs = bekenWaitForever then q.sent none r
  else if timeoutMs = 0 then
    if q.mq.full then some (q, .kGeneralErr) else q.sent none r
  else q.sent (some (q, .kGeneralErr)) r

def rtosPushToQueue (message : Nat → UInt8) (timeoutMs : UInt32) : Option (BekenMqueue × RtosErr) :=
  q.pushWithPrio prioMax 0 message timeoutMs

def rtosPushToQueueFront (message : Nat → UInt8) (timeoutMs : UInt32) : Option (BekenMqueue × RtosErr) :=
  q.pushWithPrio prioMax prioMax message timeoutMs

def rtosPopFromQueue (timeoutMs : UInt32) : Option (BekenMqueue × Except RtosErr (List UInt8)) :=
  match q.mq.receive q.msgsize with
  | .done (m, mq) => some ({ q with mq }, .ok m)
  | .error => some (q, .error .kGeneralErr)
  | .wait => if timeoutMs = bekenWaitForever then none else some (q, .error .kGeneralErr)

/-- One pass of the loop of `rtos_reset_queue`; there is a message, so `mq_receive` does not wait. -/
def dropOne : BekenMqueue :=
  match q.mq.receive 1 with
  | .done (_, mq) => { q with mq }
  | _ => q

end

/-- `rtos_reset_queue` with at most `fuel` passes; `none` when it has not returned by then -/
def rtosResetQueue : Nat → BekenMqueue → Option BekenMqueue
  | 0, _ => none
  | fuel + 1, q => if q.mq.msgs.length > 0 then rtosResetQueue fuel q.dropOne else some q

def contents (q : BekenMqueue) : List (List UInt8) := q.mq.msgs.map (·.2)

end BekenMqueue

/-! ## Sequences of calls -/

inductive QueueCall
  | push (message : Nat → UInt8) (timeoutMs : UInt32)
  | pushFront (message : Nat → UInt8) (timeoutMs : UInt32)
  | pop (timeoutMs : UInt32)

structure QueueRun where
  q : BekenMqueue
  log : List (Deque.Op (List UInt8) × Deque.Res (List UInt8)) := []
deriving DecidableEq, Repr

namespace QueueRun

def pushRes : RtosErr → Deque.Res (List UInt8)
  | .kNoErr => .done
  | _ => .refused

def popRes : Except RtosErr (List UInt8) → Deque.Res (List UInt8)
  | .ok m => .got m
  | .error _ => .refused

variable (prioMax : Nat) (s : QueueRun)

def step : QueueCall → Option QueueRun
  | .push message timeoutMs => (s.q.rtosPushToQueue prioMax message timeoutMs).map fun r =>
      ⟨r.1, s.log ++ [(.pushBack (s.q.bytes message), pushRes r.2)]⟩
  | .pushFront message timeoutMs => (s.q.rtosPushToQueueFront prioMax message timeoutMs).map fun r =>
      ⟨r.1, s.log ++ [(.pushFront (s.q.bytes message), pushRes r.2)]⟩
  | .pop timeoutMs => (s.q.rtosPopFromQueue timeoutMs).map fun r => ⟨r.1, s.log ++ [(.pop, popRes r.2)]⟩

def FrontOk : QueueCall → Prop
  | .pushFront .. => s.q.mq.full = true
  | _ => True

instance : ∀ c, Decidable (s.FrontOk c)
  | .pushFront .. => inferInstanceAs (Decidable (_ = true))
  | .push .. | .pop _ => .isTrue trivial

end QueueRun

namespace BekenMqueue
variable {q : BekenMqueue} {prioMax : Nat} {message : Nat → UInt8} {timeoutMs : UInt32}

structure Plain (cap : Nat) (q : BekenMqueue) : Prop where
  size : q.mq.msgsize = q.msgsize
  max : q.mq.maxmsg = cap
  prio : ∀ x ∈ q.mq.msgs, x.1 = 0

theorem plain_init {mallocOk openOk : Bool} {size num : UInt32} (h : rtosInitQueue mallocOk openOk size num = .ok q) :
    q.Plain num.toNat ∧ q.contents = [] ∧ q.msgsize = size.toNat := by
  unfold rtosInitQueue at h
  split at h
  · cases h
    exact ⟨⟨rfl, rfl, fun _ hx => absurd hx List.not_mem_nil⟩, rfl, rfl⟩
  · cases h

theorem bytes_length (q : BekenMqueue) (message : Nat → UInt8) : (q.bytes message).length = q.msgsize := by
  rw [bytes, List.length_map, List.length_range]

inductive PushEnd (q : BekenMqueue) (r : Attempt (Mq UInt8)) : BekenMqueue × RtosErr → Prop
  | done {mq : Mq UInt8} (h : r = .done mq) : PushEnd q r ({ q with mq }, .kNoErr)
  | full (h : q.mq.full = true) : PushEnd q r (q, .kGeneralErr)
  | rejected (h : r = .error) : PushEnd q r (q, .kGeneralErr)

variable {m : List UInt8} {prio : Nat}

theorem send_eq_wait (h : q.mq.send prioMax m prio = .wait) : q.mq.full := by
  unfold Mq.send at h
  split at h
  · cases h
  · split at h
    · assumption
    · cases h

variable {x : BekenMqueue × RtosErr}

theorem sent_pushEnd {wait : Option (BekenMqueue × RtosErr)}
    (hwait : wait = none ∨ wait = some (q, .kGeneralErr)) (h : q.sent wait (q.mq.send prioMax m prio) = some x) :
    q.PushEnd (q.mq.send prioMax m prio) x := by
  cases hr : q.mq.send prioMax m prio with
  | done mq => rw [hr] at h; cases h; exact .done rfl
  | error => rw [hr] at h; cases h; exact .rejected rfl
  | wait =>
    rw [hr] at h
    rcases hwait with rfl | rfl
    · cases h
    · cases h
      exact .full (send_eq_wait hr)

theorem pushWithPrio_pushEnd (h : q.pushWithPrio prioMax prio message timeoutMs = some x) :
    q.PushEnd (q.mq.send prioMax (q.bytes message) prio) x := by
  unfold pushWithPrio at h
  dsimp only at h
  split at h
  · exact sent_pushEnd (.inl rfl) h
  split at h
  · split at h
    · cases h
      exact .full ‹_›
    · exact sent_pushEnd (.inl rfl) h
  · exact sent_pushEnd (.inr rfl) h

theorem rtosPushToQueueFront_eq
    (h : q.rtosPushToQueueFront prioMax message timeoutMs = some x) : x = (q, .kGeneralErr) := by
  have hrej : q.mq.send prioMax (q.bytes message) prioMax = .error := if_pos (.inl (Nat.le_refl _))
  cases pushWithPrio_pushEnd h with
  | done hdone => rw [hrej] at hdone; cases hdone
  | full | rejected => rfl

variable {cap : Nat}

theorem contents_length (q : BekenMqueue) : q.contents.length = q.mq.msgs.length := List.length_map ..

theorem rtosPopFromQueue_le {x : BekenMqueue × Except RtosErr (List UInt8)}
    (h : q.rtosPopFromQueue timeoutMs = some x) :
    x.1.mq.msgs.length ≤ q.mq.msgs.length ∧ x.1.mq.maxmsg = q.mq.maxmsg ∧ x.1.mq.msgsize = q.mq.msgsize := by
  unfold rtosPopFromQueue at h
  split at h
  · rename_i hrec
    cases h
    obtain ⟨prio, hm, hmax, hsize⟩ := Mq.receive_eq_done hrec
    refine ⟨?_, hmax, hsize⟩
    rw [hm, List.length_cons]
    exact Nat.le_succ _
  · cases h
    exact ⟨Nat.le_refl _, rfl, rfl⟩
  · split at h
    · cases h
    · cases h
      exact ⟨Nat.le_refl _, rfl, rfl⟩

theorem Plain.push (h : q.Plain cap) (hprio : 0 < prioMax) (hp : q.rtosPushToQueue prioMax message timeoutMs = some x) :
    x.1.Plain cap ∧ Deque.step cap q.contents (.pushBack (q.bytes message)) = (x.1.contents, QueueRun.pushRes x.2) := by
  have hlen := q.contents_length
  have hmax := h.max
  cases pushWithPrio_pushEnd hp with
  | done hdone =>
    obtain ⟨hroom, rfl⟩ := Mq.send_eq_done hdone
    have hins : insert 0 (q.bytes message) q.mq.msgs = q.mq.msgs ++ [(0, q.bytes message)] :=
      insert_eq_append fun _ _ => Nat.zero_le _
    rw [hins]
    constructor
    · refine ⟨h.size, h.max, ?_⟩
      intro y hy
      rcases List.mem_append.1 hy with hy | hy
      · exact h.prio y hy
      · rw [List.mem_singleton.1 hy]
    · rw [Deque.step, if_pos (by omega)]
      simp [contents, QueueRun.pushRes]
  | full hfull =>
    rw [Mq.full_eq_true] at hfull
    refine ⟨h, ?_⟩
    rw [Deque.step, if_neg (by omega)]
    rfl
  | rejected herr =>
    -- the priority is allowed and the message has the size of the queue's messages
    have hlong := q.bytes_length message
    have hsize := h.size
    unfold Mq.send at herr
    rw [if_neg (by omega)] at herr
    split at herr <;> cases herr

theorem Plain.pop (h : q.Plain cap) {x : BekenMqueue × Except RtosErr (List UInt8)}
    (hp : q.rtosPopFromQueue timeoutMs = some x) :
    x.1.Plain cap ∧ Deque.step cap q.contents .pop = (x.1.contents, QueueRun.popRes x.2) := by
  have hsize : ¬ q.msgsize < q.mq.msgsize := Nat.not_lt.2 (Nat.le_of_eq h.size)
  unfold rtosPopFromQueue Mq.receive at hp
  rw [if_neg hsize] at hp
  have hprio := h.prio
  unfold contents
  cases hm : q.mq.msgs with
  | nil =>
    rw [hm] at hp
    dsimp only at hp
    split at hp
    · cases hp
    · cases hp
      refine ⟨h, ?_⟩
      simp [Deque.step, QueueRun.popRes, hm]
  | cons y l =>
    rw [hm] at hp hprio
    cases hp
    exact ⟨⟨h.size, h.max, fun z hz => hprio z (List.mem_cons_of_mem _ hz)⟩, rfl⟩

end BekenMqueue

namespace QueueRun
variable {prioMax cap : Nat} {s s' : QueueRun}

structure Inv (cap : Nat) (s : QueueRun) : Prop where
  plain : s.q.Plain cap
  answers : Deque.exec cap [] (s.log.map (·.1)) = (s.q.contents, s.log.map (·.2))

theorem Inv.snoc (h : s.Inv cap) {q : BekenMqueue} {op : Deque.Op (List UInt8)} {r : Deque.Res (List UInt8)}
    (hp : q.Plain cap) (hs : Deque.step cap s.q.contents op = (q.contents, r)) : Inv cap ⟨q, s.log ++ [(op, r)]⟩ := by
  refine ⟨hp, ?_⟩
  rw [List.map_append, List.map_append]
  exact Deque.exec_snoc h.answers hs

theorem Inv.step (h : s.Inv cap) (hprio : 0 < prioMax) {c : QueueCall} (hok : s.FrontOk c)
    (hs : s.step prioMax c = some s') : s'.Inv cap := by
  cases c with
  | push message timeoutMs =>
    obtain ⟨x, hx, rfl⟩ := Option.map_eq_some_iff.1 hs
    obtain ⟨hp, hstep⟩ := h.plain.push hprio hx
    exact h.snoc hp hstep
  | pop timeoutMs =>
    obtain ⟨x, hx, rfl⟩ := Option.map_eq_some_iff.1 hs
    obtain ⟨hp, hstep⟩ := h.plain.pop hx
    exact h.snoc hp hstep
  | pushFront message timeoutMs =>
    obtain ⟨x, hx, rfl⟩ := Option.map_eq_some_iff.1 hs
    obtain rfl := BekenMqueue.rtosPushToQueueFront_eq hx
    refine h.snoc h.plain ?_
    have hfull := Mq.full_eq_true.1 hok
    rw [h.plain.max, ← s.q.contents_length] at hfull
    exact if_neg (Nat.not_lt.2 hfull)

end QueueRun

theorem queue_is_deque {prioMax : Nat} (hprio : 0 < prioMax) {mallocOk openOk : Bool} {size num : UInt32}
    {q : BekenMqueue}
    (hq : rtosInitQueue mallocOk openOk size num = .ok q) {s : QueueRun}
    (hr : Run (QueueRun.step prioMax) QueueRun.FrontOk ⟨q, []⟩ s) :
    Deque.exec num.toNat [] (s.log.map (·.1)) = (s.q.contents, s.log.map (·.2)) := by
  have hinit : QueueRun.Inv num.toNat ⟨q, []⟩ := by
    obtain ⟨hplain, hnil, -⟩ := BekenMqueue.plain_init hq
    refine ⟨hplain, ?_⟩
    rw [hnil]
    rfl
  refine (hr.invariant (I := QueueRun.Inv num.toNat) hinit ?_).answers
  intro t u c _ ht hok hs
  exact ht.step hprio hok hs

theorem queue_is_deque_full : ∃ q s, rtosInitQueue true true 1 1 = .ok q ∧
    Run (QueueRun.step 32) QueueRun.FrontOk ⟨q, []⟩ s ∧
    s.log.map (·.2) = [.done, .refused, .refused, .got [5], .refused] ∧
    Deque.exec 1 [] (s.log.map (·.1)) = (s.q.contents, s.log.map (·.2)) := by
  have hq : rtosInitQueue true true 1 1 = .ok ⟨⟨1, 1, []⟩, 1⟩ := rfl
  obtain ⟨s, hr, hlog⟩ : ∃ s, Run (QueueRun.step 32) QueueRun.FrontOk ⟨⟨⟨1, 1, []⟩, 1⟩, []⟩ s ∧
      s.log.map (·.2) = [.done, .refused, .refused, .got [5], .refused] := Run.of_exec
    [.push (fun _ => 5) bekenWaitForever, .push (fun _ => 6) 100, .pushFront (fun _ => 7) 0, .pop 0, .pop 100]
    (by decide +kernel)
  exact ⟨_, s, hq, hr, hlog, queue_is_deque (by decide) hq hr⟩

theorem queue_front_refused : ∃ q s, rtosInitQueue true true 1 1 = .ok q ∧
    Run (QueueRun.step 32) (fun _ _ => True) ⟨q, []⟩ s ∧ s.log = [(.pushFront [5], .refused)] ∧
    Deque.exec 1 [] (s.log.map (·.1)) = ([[5]], [.done]) := by
  have hq : rtosInitQueue true true 1 1 = .ok ⟨⟨1, 1, []⟩, 1⟩ := rfl
  obtain ⟨s, hr, hs⟩ : ∃ s, Run (QueueRun.step 32) (fun _ _ => True) ⟨⟨⟨1, 1, []⟩, 1⟩, []⟩ s ∧
      (s.log = [(.pushFront [5], .refused)] ∧ Deque.exec 1 [] (s.log.map (·.1)) = ([[5]], [.done])) := Run.of_exec
    [.pushFront (fun _ => 5) 0] (by decide +kernel)
  exact ⟨_, s, hq, hr, hs⟩

/-! ## Emptying a queue -/

namespace BekenMqueue
variable {q : BekenMqueue}

theorem dropOne_cons (hsize : q.mq.msgsize ≤ 1) {x : Nat × List UInt8} {l : List (Nat × List UInt8)}
    (hm : q.mq.msgs = x :: l) : q.dropOne = { q with mq := { q.mq with msgs := l } } := by
  unfold dropOne Mq.receive
  rw [if_neg (by omega), hm]

theorem dropOne_eq_self (hsize : 1 < q.mq.msgsize) : q.dropOne = q := by
  unfold dropOne Mq.receive
  rw [if_pos hsize]

theorem rtosResetQueue_empties (hsize : q.mq.msgsize ≤ 1) :
    rtosResetQueue (q.mq.msgs.length + 1) q = some { q with mq := { q.mq with msgs := [] } } := by
  generalize hn : q.mq.msgs.length = n
  induction n generalizing q with
  | zero =>
    have hnil : q.mq.msgs = [] := List.length_eq_zero_iff.1 hn
    rw [rtosResetQueue, if_neg (by omega), ← hnil]
  | succ n ih =>
    obtain ⟨x, l, hm⟩ := List.exists_cons_of_length_eq_add_one hn
    rw [rtosResetQueue, if_pos (by omega), dropOne_cons hsize hm]
    rw [hm, List.length_cons, Nat.add_right_cancel_iff] at hn
    exact ih (q := { q with mq := { q.mq with msgs := l } }) hsize hn

theorem rtosResetQueue_hangs (hsize : 1 < q.mq.msgsize) (hne : q.mq.msgs ≠ []) (fuel : Nat) :
    rtosResetQueue fuel q = none := by
  induction fuel with
  | zero => rfl
  | succ fuel ih =>
    rw [rtosResetQueue, if_pos (List.length_pos_iff.2 hne), dropOne_eq_self hsize]
    exact ih

end BekenMqueue

theorem QueueRun.step_msgsize {prioMax : Nat} {s s' : QueueRun} {c : QueueCall} (h : s.step prioMax c = some s') :
    s'.q.mq.msgsize = s.q.mq.msgsize := by
  have hpush : ∀ {prio message timeoutMs x}, s.q.pushWithPrio prioMax prio message timeoutMs = some x →
      x.1.mq.msgsize = s.q.mq.msgsize := by
    intro prio message timeoutMs x hx
    cases BekenMqueue.pushWithPrio_pushEnd hx with
    | done hdone => rw [(Mq.send_eq_done hdone).2]
    | full | rejected => rfl
  cases c with
  | push message timeoutMs | pushFront message timeoutMs =>
    obtain ⟨x, hx, rfl⟩ := Option.map_eq_some_iff.1 h
    exact hpush hx
  | pop timeoutMs =>
    obtain ⟨x, hx, rfl⟩ := Option.map_eq_some_iff.1 h
    exact (BekenMqueue.rtosPopFromQueue_le hx).2.2

theorem reset_queue_empties {prioMax : Nat} {mallocOk openOk : Bool} {size num : UInt32} {q : BekenMqueue}
    (hq : rtosInitQueue mallocOk openOk size num = .ok q) {s : QueueRun}
    (hr : Run (QueueRun.step prioMax) (fun _ _ => True) ⟨q, []⟩ s) :
    (∃ fuel q', BekenMqueue.rtosResetQueue fuel s.q = some q' ∧ q'.mq.msgs = []) ↔
      size.toNat ≤ 1 ∨ s.q.mq.msgs = [] := by
  have hmsg : s.q.mq.msgsize = size.toNat := by
    refine hr.invariant (I := fun s => s.q.mq.msgsize = size.toNat) ?_ ?_
    · obtain ⟨hplain, -, hsize⟩ := BekenMqueue.plain_init hq
      exact hplain.size.trans hsize
    · intro t u c _ ht _ hs
      exact (QueueRun.step_msgsize hs).trans ht
  constructor
  · rintro ⟨fuel, q', hreset, -⟩
    by_contra h
    obtain ⟨hsize, hne⟩ := not_or.1 h
    rw [BekenMqueue.rtosResetQueue_hangs (by omega) hne] at hreset
    cases hreset
  · rintro (hsize | hnil)
    · exact ⟨_, _, BekenMqueue.rtosResetQueue_empties (by omega), rfl⟩
    · refine ⟨1, s.q, ?_, hnil⟩
      rw [BekenMqueue.rtosResetQueue, if_neg (by rw [hnil]; exact Nat.lt_irrefl 0)]

theorem reset_queue_empties_two : ∃ q s, rtosInitQueue true true 1 4 = .ok q ∧
    Run (QueueRun.step 32) (fun _ _ => True) ⟨q, []⟩ s ∧ s.q.contents = [[5], [6]] ∧
    ∃ fuel q', BekenMqueue.rtosResetQueue fuel s.q = some q' ∧ q'.mq.msgs = [] := by
  have hq : rtosInitQueue true true 1 4 = .ok ⟨⟨4, 1, []⟩, 1⟩ := rfl
  obtain ⟨s, hr, hs⟩ : ∃ s, Run (QueueRun.step 32) (fun _ _ => True) ⟨⟨⟨4, 1, []⟩, 1⟩, []⟩ s ∧
      s.q.contents = [[5], [6]] := Run.of_exec [.push (fun _ => 5) 0, .push (fun _ => 6) 0] (by decide +kernel)
  exact ⟨_, s, hq, hr, hs, (reset_queue_empties hq hr).2 (.inl (by decide))⟩

theorem reset_queue_hangs : ∃ q s, rtosInitQueue true true 4 4 = .ok q ∧
    Run (QueueRun.step 32) (fun _ _ => True) ⟨q, []⟩ s ∧ ∀ fuel, BekenMqueue.rtosResetQueue fuel s.q = none := by
  have hq : rtosInitQueue true true 4 4 = .ok ⟨⟨4, 4, []⟩, 4⟩ := rfl
  obtain ⟨s, hr, hsize, hne⟩ : ∃ s, Run (QueueRun.step 32) (fun _ _ => True) ⟨⟨⟨4, 4, []⟩, 4⟩, []⟩ s ∧
      (1 < s.q.mq.msgsize ∧ s.q.mq.msgs ≠ []) := Run.of_exec [.push (fun _ => 5) 0] (by decide +kernel)
  exact ⟨_, s, hq, hr, BekenMqueue.rtosResetQueue_hangs hsize hne⟩

end Bk7258

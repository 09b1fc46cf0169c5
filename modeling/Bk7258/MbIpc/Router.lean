import Bk7258.Lib.Lts
import Bk7258.Lib.Ring
import Bk7258.MbIpc.Socket

/-!
# The route queue

`ipc_router_send` puts a packet into the queue under the lock and writes it to the channel, outside the lock, if it
found the queue empty. `ipc_router_tx_cmpl_isr` takes the head out when its ACK arrives, without the lock, and looks at
the queue again later: a packet that is put into the empty queue in between is written by both.
-/

namespace Bk7258
open Lts Function

def ipcSocketNum : Nat := 24

/-- `ARRAY_SIZE(chnl_tx_queue)`, "reserved 1 for queue empty judgement" -/
def txQueueLen : Nat := ipcSocketNum + 1

structure MbIpcRoute where
  chnlTxQueueOutIdx : Nat := 0
  chnlTxQueueInIdx : Nat := 0
  chnlTxQueue : Nat → MbIpcCmd := fun _ => {}
  out_lt : chnlTxQueueOutIdx < txQueueLen := by decide
  in_lt : chnlTxQueueInIdx < txQueueLen := by decide

namespace MbIpcRoute

def init : MbIpcRoute := {}

variable (r : MbIpcRoute)

def queueCnt : Nat :=
  if r.chnlTxQueueOutIdx ≤ r.chnlTxQueueInIdx then r.chnlTxQueueInIdx - r.chnlTxQueueOutIdx
  else txQueueLen - (r.chnlTxQueueOutIdx - r.chnlTxQueueInIdx)

def freeCnt : Nat :=
  if r.chnlTxQueueOutIdx ≤ r.chnlTxQueueInIdx then
    txQueueLen - (r.chnlTxQueueInIdx - r.chnlTxQueueOutIdx)
  else r.chnlTxQueueOutIdx - r.chnlTxQueueInIdx

def empty : Bool := r.chnlTxQueueInIdx = r.chnlTxQueueOutIdx

def next (idx : Nat) : Nat := (idx + 1) % txQueueLen

theorem next_lt (idx : Nat) : next idx < txQueueLen := Nat.mod_lt _ (by decide)

def push (c : MbIpcCmd) : MbIpcRoute :=
  { r with
    chnlTxQueue := update r.chnlTxQueue r.chnlTxQueueInIdx c
    chnlTxQueueInIdx := next r.chnlTxQueueInIdx
    in_lt := next_lt _ }

/-- The critical section of `ipc_router_send`: the status and the queue it leaves. -/
def enqueue (c : MbIpcCmd) : IpcRouteStatus × MbIpcRoute :=
  if r.freeCnt ≤ 1 then (.queueFull, r) else (.statusOk, r.push c)

def head : MbIpcCmd := r.chnlTxQueue r.chnlTxQueueOutIdx

def pop : MbIpcRoute :=
  { r with chnlTxQueueOutIdx := next r.chnlTxQueueOutIdx, out_lt := next_lt _ }

/-- `ipc_router_tx_cmpl_isr` up to its update of the index: `none` where it returns because of a failed
check. -/
def txCmpl (ack : MbIpcCmd) : Option MbIpcRoute :=
  if r.empty then none
  else if !r.head.sameCmd ack then none
  else some r.pop

def packets : List MbIpcCmd :=
  Ring.contents r.chnlTxQueue txQueueLen r.chnlTxQueueOutIdx r.chnlTxQueueInIdx

theorem queueCnt_eq : r.queueCnt = r.packets.length := by
  simp [queueCnt, packets, Ring.count]

theorem freeCnt_eq : r.freeCnt = txQueueLen - r.packets.length := by
  have hout := r.out_lt
  have hin := r.in_lt
  simp only [freeCnt, packets, Ring.contents_length, Ring.count]
  split <;> omega

theorem length_packets_lt : r.packets.length < txQueueLen := by
  simpa [packets] using Ring.count_lt r.out_lt r.in_lt

theorem empty_iff : r.empty ↔ r.packets = [] := by
  rw [packets, Ring.contents_eq_nil r.out_lt]
  simp [empty, eq_comm]

theorem packets_push (c : MbIpcCmd) (h : 1 < r.freeCnt) : (r.push c).packets = r.packets ++ [c] := by
  rw [freeCnt_eq] at h
  refine Ring.contents_push r.out_lt r.in_lt ?_ c
  simp only [packets, Ring.contents_length] at h
  omega

theorem packets_eq_head_cons (h : r.empty = false) : r.packets = r.head :: r.pop.packets :=
  Ring.contents_pop r.out_lt r.in_lt (by simpa [empty, eq_comm] using h)

theorem enqueue_cases (c : MbIpcCmd) : (r.enqueue c = (.queueFull, r) ∧ ipcSocketNum ≤ r.packets.length) ∨
    (r.enqueue c = (.statusOk, r.push c) ∧ (r.push c).packets = r.packets ++ [c] ∧
      r.packets.length < ipcSocketNum) := by
  have hfree := r.freeCnt_eq
  have hlen := r.length_packets_lt
  simp only [txQueueLen] at hfree hlen
  rcases Nat.lt_or_ge 1 r.freeCnt with h | h
  · exact .inr ⟨if_neg (by omega), r.packets_push c h, by omega⟩
  · exact .inl ⟨if_pos h, by omega⟩

end MbIpcRoute

inductive RouterCall
  | idle
  | write (c : MbIpcCmd)
deriving DecidableEq, Repr

/-- `ipc_router_tx_cmpl_isr`: `popped` after the update of the index, `write` after it has seen that the queue
is not empty; `txIdx` is its local variable. -/
inductive RouterIsr
  | idle
  | popped (txIdx : Nat)
  | write (txIdx : Nat)
deriving DecidableEq, Repr

def RouterIsr.inGap : RouterIsr → Bool
  | .popped _ => true
  | _ => false

/-- The route with the calls of `ipc_router_send` and the completion interrupt. `chnl` are the packets that are not
acknowledged; `accepted` and `written` record the packets put into the queue and handed to `mb_chnl_write`. -/
structure RouterSys (T : Type) where
  route : MbIpcRoute := {}
  calls : T → RouterCall := fun _ => .idle
  isr : RouterIsr := .idle
  chnl : List MbIpcCmd := []
  accepted : List MbIpcCmd := []
  written : List MbIpcCmd := []

inductive RouterAct (T : Type)
  | send (t : T) (c : MbIpcCmd)
  | write (t : T)
  /-- The ACK of the oldest packet on the channel: `ipc_router_tx_cmpl_isr` up to the update of the index. -/
  | cmpl (comFail : Bool) (status : IpcRouteStatus)
  | next
  | isrWrite

namespace RouterSys
variable {T : Type} [DecidableEq T] (s : RouterSys T)

def chnlWrite (c : MbIpcCmd) : RouterSys T :=
  { s with chnl := s.chnl ++ [c], written := s.written ++ [c] }

def setCall (t : T) (p : RouterCall) : RouterSys T := { s with calls := update s.calls t p }

def enqueue (t : T) (c : MbIpcCmd) : RouterSys T :=
  match s.route.enqueue c with
  | (.statusOk, r) =>
    let s' := { s with route := r, accepted := s.accepted ++ [c] }
    if s.route.queueCnt = 0 then s'.setCall t (.write c) else s'
  | _ => s

def isrCmpl (ack : MbIpcCmd) : RouterSys T :=
  match s.route.txCmpl ack with
  | some r => { s with route := r, isr := .popped r.chnlTxQueueOutIdx }
  | none => s

def step : RouterSys T → RouterAct T → Option (RouterSys T)
  | s, .send t c => if s.calls t = .idle then some (s.enqueue t c) else none
  | s, .write t =>
    match s.calls t with
    | .write c => some ((s.chnlWrite c).setCall t .idle)
    | .idle => none
  | s, .cmpl comFail status =>
    match s.isr, s.chnl with
    | .idle, c :: rest => some (isrCmpl { s with chnl := rest } (c.ack comFail status))
    | _, _ => none
  | s, .next =>
    match s.isr with
    | .popped txIdx => some { s with isr := if s.route.empty then .idle else .write txIdx }
    | _ => none
  | s, .isrWrite =>
    match s.isr with
    | .write txIdx => some { s.chnlWrite (s.route.chnlTxQueue txIdx) with isr := .idle }
    | _ => none

def Idle : Prop := (∀ t, s.calls t = .idle) ∧ s.isr = .idle

/-- What was written is what was accepted, once and in this order, up to the packets behind the head of the
queue; between calls the head of the queue is the packet on the channel. -/
structure WritesInOrder : Prop where
  once : s.written <+: s.accepted
  head : s.Idle → s.chnl = s.route.packets.take 1 ∧ s.accepted = s.written ++ s.route.packets.drop 1

end RouterSys

/-- No packet is put into an empty queue while the completion interrupt is between its update of
`chnl_tx_queue_out_idx` and its second look at the queue. -/
def NoSendInGap {T : Type} (s : RouterSys T) : RouterAct T → Prop
  | .send _ _ => s.isr.inGap = true → s.route.empty = false
  | _ => True

instance {T : Type} (s : RouterSys T) : (a : RouterAct T) → Decidable (NoSendInGap s a)
  | .send _ _ => inferInstanceAs (Decidable (_ → _))
  | .write _ | .cmpl _ _ | .next | .isrWrite => .isTrue trivial

inductive RouterMode {T : Type} (s : RouterSys T) : Prop
  | idle (hcalls : ∀ t, s.calls t = .idle) (hisr : s.isr = .idle)
      (hchnl : s.chnl = s.route.packets.take 1) (hacc : s.accepted = s.written ++ s.route.packets.drop 1)
  | call (t : T) (c : MbIpcCmd) (hcall : s.calls t = .write c) (hcalls : ∀ u, u ≠ t → s.calls u = .idle)
      (hisr : s.isr = .idle) (hhead : s.route.packets.head? = some c) (hchnl : s.chnl = [])
      (hacc : s.accepted = s.written ++ s.route.packets)
  | popped (hcalls : ∀ t, s.calls t = .idle) (hisr : s.isr = .popped s.route.chnlTxQueueOutIdx)
      (hchnl : s.chnl = []) (hacc : s.accepted = s.written ++ s.route.packets)
  | isr (hcalls : ∀ t, s.calls t = .idle) (hisr : s.isr = .write s.route.chnlTxQueueOutIdx)
      (hne : s.route.empty = false) (hchnl : s.chnl = []) (hacc : s.accepted = s.written ++ s.route.packets)

namespace RouterMode
variable {T : Type} {s : RouterSys T}

theorem init : RouterMode ({} : RouterSys T) :=
  .idle (fun _ => rfl) rfl rfl rfl

theorem push (h : RouterMode s) (c : MbIpcCmd) (hne : s.route.packets ≠ [])
    (hp : (s.route.push c).packets = s.route.packets ++ [c]) :
    RouterMode { s with route := s.route.push c, accepted := s.accepted ++ [c] } := by
  obtain ⟨p, ps, hps⟩ := List.exists_cons_of_ne_nil hne
  rw [hps] at hp
  cases h with
  | idle hcalls hisr hchnl hacc =>
    refine .idle hcalls hisr ?_ ?_
    · show s.chnl = (s.route.push c).packets.take 1
      rw [hchnl, hp, hps]
      rfl
    · show s.accepted ++ [c] = s.written ++ (s.route.push c).packets.drop 1
      rw [hacc, hp, hps]
      simp
  | call t d hcall hcalls hisr hhead hchnl hacc =>
    refine .call t d hcall hcalls hisr ?_ hchnl ?_
    · show (s.route.push c).packets.head? = some d
      rw [hps] at hhead
      rw [hp]
      exact hhead
    · show s.accepted ++ [c] = s.written ++ (s.route.push c).packets
      rw [hacc, hp, hps]
      simp
  | popped hcalls hisr hchnl hacc =>
    refine .popped hcalls hisr hchnl ?_
    show s.accepted ++ [c] = s.written ++ (s.route.push c).packets
    rw [hacc, hp, hps]
    simp
  | isr hcalls hisr hq hchnl hacc =>
    refine .isr hcalls hisr ?_ hchnl ?_
    · rw [Bool.eq_false_iff, Ne, MbIpcRoute.empty_iff, hp]
      simp
    · show s.accepted ++ [c] = s.written ++ (s.route.push c).packets
      rw [hacc, hp, hps]
      simp

theorem pushFirst [DecidableEq T] (h : RouterMode s) (t : T) (c : MbIpcCmd) (hgap : s.isr.inGap = false)
    (hnil : s.route.packets = []) (hp : (s.route.push c).packets = s.route.packets ++ [c]) :
    RouterMode (RouterSys.setCall { s with route := s.route.push c, accepted := s.accepted ++ [c] } t (.write c)) := by
  rw [hnil] at hp
  cases h with
  | idle hcalls hisr hchnl hacc =>
    refine .call t c (update_self ..) ?_ hisr ?_ ?_ ?_
    · intro u hu
      exact (update_of_ne hu _ _).trans (hcalls u)
    · show (s.route.push c).packets.head? = some c
      rw [hp]
      rfl
    · show s.chnl = []
      rw [hchnl, hnil]
      rfl
    · show s.accepted ++ [c] = s.written ++ (s.route.push c).packets
      rw [hacc, hp, hnil]
      simp
  | call t d hcall hcalls hisr hhead hchnl hacc =>
    rw [hnil] at hhead
    cases hhead
  | popped hcalls hisr hchnl hacc =>
    rw [hisr] at hgap
    cases hgap
  | isr hcalls hisr hq hchnl hacc =>
    rw [Bool.eq_false_iff, Ne, MbIpcRoute.empty_iff] at hq
    exact absurd hnil hq

theorem send [DecidableEq T] (h : RouterMode s) {t : T} {c : MbIpcCmd} (hok : NoSendInGap s (.send t c)) :
    RouterMode (s.enqueue t c) := by
  unfold RouterSys.enqueue
  rcases s.route.enqueue_cases c with ⟨he, -⟩ | ⟨he, hp, -⟩ <;> simp only [he]
  · exact h
  · split
    next hcnt =>
      have hnil : s.route.packets = [] := by
        rw [MbIpcRoute.queueCnt_eq] at hcnt
        exact List.eq_nil_of_length_eq_zero hcnt
      refine h.pushFirst t c ?_ hnil hp
      -- in the gap the queue would not be empty
      cases hg : s.isr.inGap with
      | false => rfl
      | true =>
        have he := hok hg
        rw [Bool.eq_false_iff, Ne, MbIpcRoute.empty_iff] at he
        exact absurd hnil he
    next hcnt =>
      refine h.push c ?_ hp
      intro hnil
      rw [MbIpcRoute.queueCnt_eq, hnil] at hcnt
      exact hcnt rfl

theorem write [DecidableEq T] (h : RouterMode s) {t : T} {c : MbIpcCmd} (hc : s.calls t = .write c) :
    RouterMode ((s.chnlWrite c).setCall t .idle) := by
  cases h with
  | idle hcalls hisr hchnl hacc | popped hcalls hisr hchnl hacc | isr hcalls hisr hq hchnl hacc =>
    rw [hcalls t] at hc; cases hc
  | call u d hcall hcalls hisr hhead hchnl hacc =>
    obtain rfl : t = u := by
      by_contra hne
      rw [hcalls t hne] at hc
      cases hc
    rw [hcall] at hc
    cases hc
    obtain ⟨ps, hps⟩ := List.head?_eq_some_iff.1 hhead
    refine .idle ?_ hisr ?_ ?_
    · intro v
      show update s.calls t RouterCall.idle v = .idle
      rcases eq_or_ne v t with rfl | hne
      · exact update_self ..
      · exact (update_of_ne hne _ _).trans (hcalls v hne)
    · show s.chnl ++ [c] = s.route.packets.take 1
      rw [hchnl, hps]
      rfl
    · show s.accepted = s.written ++ [c] ++ s.route.packets.drop 1
      rw [hacc, hps]
      simp

theorem cmpl (h : RouterMode s) {c : MbIpcCmd} {rest : List MbIpcCmd} (hchnl : s.chnl = c :: rest)
    (comFail : Bool) (status : IpcRouteStatus) :
    RouterMode (RouterSys.isrCmpl { s with chnl := rest } (c.ack comFail status)) := by
  cases h with
  | call t d hcall hcalls hisr' hhead hchnl' hacc | popped hcalls hisr' hchnl' hacc | isr hcalls hisr' hq hchnl' hacc =>
    rw [hchnl] at hchnl'; cases hchnl'
  | idle hcalls _ hchnl' hacc =>
    -- the packet on the channel is the head of the queue
    have hne : s.route.empty = false := by
      rw [Bool.eq_false_iff, Ne, MbIpcRoute.empty_iff]
      intro hnil
      rw [hchnl, hnil] at hchnl'
      cases hchnl'
    have hpop := s.route.packets_eq_head_cons hne
    rw [hchnl, hpop] at hchnl'
    obtain ⟨rfl, rfl⟩ := List.cons.inj hchnl'
    have htx : s.route.txCmpl (s.route.head.ack comFail status) = some s.route.pop := by
      simp [MbIpcRoute.txCmpl, hne]
    simp only [RouterSys.isrCmpl, htx]
    refine .popped hcalls rfl rfl ?_
    rw [hpop] at hacc
    exact hacc

theorem next (h : RouterMode s) {txIdx : Nat} (hisr : s.isr = .popped txIdx) :
    RouterMode { s with isr := if s.route.empty then .idle else .write txIdx } := by
  cases h with
  | idle hcalls hisr' hchnl hacc | call t d hcall hcalls hisr' hhead hchnl hacc | isr hcalls hisr' hq hchnl hacc =>
    rw [hisr] at hisr'; cases hisr'
  | popped hcalls hisr' hchnl hacc =>
    rw [hisr] at hisr'
    cases hisr'
    cases he : s.route.empty with
    | true =>
      have hnil := (s.route.empty_iff).1 he
      refine .idle hcalls rfl ?_ ?_
      · exact hchnl.trans (by rw [hnil]; rfl)
      · exact hacc.trans (by rw [hnil]; rfl)
    | false => exact .isr hcalls rfl he hchnl hacc

theorem isrWrite (h : RouterMode s) {txIdx : Nat} (hisr : s.isr = .write txIdx) :
    RouterMode { s.chnlWrite (s.route.chnlTxQueue txIdx) with isr := .idle } := by
  cases h with
  | idle hcalls hisr' hchnl hacc | call t d hcall hcalls hisr' hhead hchnl hacc | popped hcalls hisr' hchnl hacc =>
    rw [hisr] at hisr'; cases hisr'
  | isr hcalls hisr' hq hchnl hacc =>
    rw [hisr] at hisr'
    cases hisr'
    have hpop := s.route.packets_eq_head_cons hq
    refine .idle hcalls rfl ?_ ?_
    · show s.chnl ++ [s.route.head] = s.route.packets.take 1
      rw [hchnl, hpop]
      rfl
    · show s.accepted = s.written ++ [s.route.head] ++ s.route.packets.drop 1
      rw [hacc, hpop]
      simp

theorem step [DecidableEq T] {s' : RouterSys T} (h : RouterMode s) {a : RouterAct T} (hok : NoSendInGap s a)
    (hs : s.step a = some s') : RouterMode s' := by
  cases a with
  | send t c =>
    simp only [RouterSys.step] at hs
    split at hs
    · cases hs; exact h.send hok
    · cases hs
  | write t =>
    simp only [RouterSys.step] at hs
    split at hs
    · next hc => cases hs; exact h.write hc
    · cases hs
  | cmpl comFail status =>
    simp only [RouterSys.step] at hs
    split at hs
    · next hchnl => cases hs; exact h.cmpl hchnl _ _
    · cases hs
  | next =>
    simp only [RouterSys.step] at hs
    split at hs
    · next hisr => cases hs; exact h.next hisr
    · cases hs
  | isrWrite =>
    simp only [RouterSys.step] at hs
    split at hs
    · next hisr => cases hs; exact h.isrWrite hisr
    · cases hs

theorem writesInOrder (h : RouterMode s) : s.WritesInOrder := by
  cases h with
  | idle hcalls hisr hchnl hacc => exact ⟨⟨_, hacc.symm⟩, fun _ => ⟨hchnl, hacc⟩⟩
  | call t c hcall hcalls hisr hhead hchnl hacc =>
    refine ⟨⟨_, hacc.symm⟩, fun hidle => ?_⟩
    rw [hidle.1 t] at hcall
    cases hcall
  | popped hcalls hisr hchnl hacc | isr hcalls hisr hq hchnl hacc =>
    refine ⟨⟨_, hacc.symm⟩, fun hidle => ?_⟩
    rw [hidle.2] at hisr
    cases hisr

end RouterMode

/-- If no packet is put into the empty queue in the gap of the completion interrupt, the packets accepted are written
once and in order, and between calls the head of the queue is on the channel. -/
theorem route_writes_in_order {T : Type} [DecidableEq T] {s : RouterSys T}
    (hr : Run RouterSys.step NoSendInGap {} s) : s.WritesInOrder := by
  have hmode : RouterMode s := hr.invariant .init fun _ _ _ _ h hok hs => h.step hok hs
  exact hmode.writesInOrder

def clientCmd (tag : BitVec 8) : MbIpcCmd :=
  { cmd := .send, dstPort := 1, dstCpu := 0, srcPort := 16, srcCpu := 1, tag := tag }

theorem route_writes_two : ∃ s : RouterSys Bool, Run RouterSys.step NoSendInGap {} s ∧
    s.written = [clientCmd 1, clientCmd 2] ∧ s.WritesInOrder :=
  Run.of_exec_and [.send false (clientCmd 1), .send true (clientCmd 2), .write false, .cmpl false .statusOk, .next,
    .isrWrite] (by decide) fun _ hr _ => route_writes_in_order hr

/-- The second packet comes between the removal of the first and the second look: the interrupt writes it and so does
its call. -/
theorem route_writes_twice : ∃ s : RouterSys Bool, Run RouterSys.step (fun _ _ => True) {} s ∧
    s.accepted = [clientCmd 1, clientCmd 2] ∧ s.written = [clientCmd 1, clientCmd 2, clientCmd 2] ∧
    s.chnl = [clientCmd 2, clientCmd 2] :=
  Run.of_exec [.send false (clientCmd 1), .write false, .cmpl false .statusOk, .send true (clientCmd 2),
    .next, .isrWrite, .write true] (by decide)

end Bk7258

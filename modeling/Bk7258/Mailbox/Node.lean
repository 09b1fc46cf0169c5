import Bk7258.Lib.Lts
import Bk7258.Mailbox.ChannelSpec

/-!
# One CPU's channel layer in an arbitrary environment

`Node.step` runs the channel layer of one CPU over an arbitrary mailbox that may refuse any send. Both ways of sending a
command (`WriteStep`, `AckExitStep`) mark the physical channel idle when `bk_mailbox_send` fails and leave the logical
channel busy.
-/

namespace Bk7258
open Lts

structure Node (H : Type) where
  chnl : Chnl H
  isr : RxIsr

/-- A step of one CPU: an API call, the receive interrupt taking message `m` up to its callback (which
leaves `rsp` in the buffer), the rest of the receive interrupt. -/
inductive NodeAct
  | call (c : ApiCall)
  | rx (m rsp : MailboxData)
  | exit
deriving DecidableEq, Repr

section
variable {H : Type} (cfg : ChnlCfg) (send : SendFn H)

def Node.step (s : Node H) : NodeAct → Option (Node H)
  | .call c => some { s with chnl := (c.run cfg send id s.chnl).2 }
  | .rx m rsp =>
    if s.isr = .idle then
      some ⟨(mbPhyChnlRxIsr cfg m rsp s.chnl).2, (mbPhyChnlRxIsr cfg m rsp s.chnl).1⟩
    else none
  | .exit =>
    match s.isr with
    | .idle => none
    | .ackExit p => some ⟨mbPhyChnlRxAckIsrExit cfg send id p s.chnl, .idle⟩
    | .cmdExit p ack => some ⟨mbPhyChnlRxCmdIsrExit cfg send p ack s.chnl, .idle⟩

def Node.init (h : H) : Node H :=
  ⟨⟨fun _ => {}, fun _ _ => {}, false, h, []⟩, .idle⟩

end

def Event.isSendFailed : Event → Bool
  | .sendFailed .. => true
  | _ => false

namespace Chnl
variable {H : Type}

def NoStranded (s : Chnl H) : Prop :=
  ∀ p, (s.phyChnlXCb p).txState = .idle → ∀ i, (s.logChnlCb p i).txState = .idle

def NoSendFailed (s : Chnl H) : Prop := ∀ e ∈ s.trace, e.isSendFailed = false

theorem NoSendFailed.of_trace {s s' : Chnl H} (es : List Event) (ht : s'.trace = s.trace ++ es)
    (h : s'.NoSendFailed) : s.NoSendFailed :=
  fun e he => h e (by simp [ht, he])

theorem NoSendFailed.of_note {s : Chnl H} {e : Event} (h : (s.note e).NoSendFailed) : s.NoSendFailed :=
  h.of_trace [e] rfl

theorem NoSendFailed.snoc {s s' : Chnl H} (h : s.NoSendFailed) {e : Event} (ht : s'.trace = s.trace ++ [e])
    (he : e.isSendFailed = false) : s'.NoSendFailed := by
  intro e' he'
  rw [ht] at he'
  rcases List.mem_append.1 he' with he' | he'
  · exact h e' he'
  · rw [List.mem_singleton.1 he']; exact he

theorem NoSendFailed.not_mem {s : Chnl H} (h : s.NoSendFailed) (p i : Nat) (m : MailboxData) :
    Event.sendFailed p i m ∉ s.trace :=
  fun hm => Bool.noConfusion (h _ hm)

namespace NoStranded
variable {s s' : Chnl H}

theorem congr (h : s.NoStranded) (hp : ∀ p, (s'.phyChnlXCb p).txState = (s.phyChnlXCb p).txState)
    (hl : ∀ p i, (s'.logChnlCb p i).txState = (s.logChnlCb p i).txState ∨
      (s'.logChnlCb p i).txState = .idle) : s'.NoStranded := by
  intro p hpi i
  rcases hl p i with h' | h'
  · rw [h']; exact h p (by rw [← hp]; exact hpi) i
  · exact h'

theorem of_busy {p : Nat} (hb : (s'.phyChnlXCb p).txState = .busy) (h : s.NoStranded)
    (hp : ∀ q, q ≠ p → (s'.phyChnlXCb q).txState = (s.phyChnlXCb q).txState)
    (hl : ∀ q, q ≠ p → s'.logChnlCb q = s.logChnlCb q) : s'.NoStranded := by
  intro q hq i
  by_cases hqp : q = p
  · subst hqp; rw [hb] at hq; cases hq
  · rw [hl q hqp]; exact h q (by rw [← hp q hqp]; exact hq) i

end NoStranded

section
variable (cfg : ChnlCfg) (send : SendFn H) {s : Chnl H}

theorem transmitted_txState (p i q j : Nat) :
    ((s.transmitted cfg send p i).phyChnlXCb q).txState = (s.phyChnlXCb q).txState ∧
      ((s.transmitted cfg send p i).logChnlCb q j).txState =
        if q = p ∧ j = i then .idle else (s.logChnlCb q j).txState := by
  constructor
  · by_cases hq : q = p <;> simp [transmitted, transmit, hq]
  · by_cases hq : q = p ∧ j = i
    · obtain ⟨rfl, rfl⟩ := hq; simp [transmitted, transmit]
    · simp [transmitted, transmit, hq]

theorem started_txState (p i q j : Nat) (m : MailboxData) : ((s.started p i m).logChnlCb q j).txState =
      if q = p ∧ j = i then .busy else (s.logChnlCb q j).txState := by
  unfold started
  split <;> by_cases hq : q = p ∧ j = i <;> simp [accepted, setTxState, hq]

theorem started_phy_ne {p q : Nat} (i : Nat) (m : MailboxData) (hq : q ≠ p) :
    (s.started p i m).phyChnlXCb q = s.phyChnlXCb q := by
  unfold started
  split <;> simp [accepted, setTxState, hq]

theorem NoStranded.write (h : s.NoStranded) {l : BitVec 8} {m : MailboxData} {r : BkErr × Chnl H}
    (hw : WriteStep cfg send l m s r) (hf : r.2.NoSendFailed) : r.2.NoStranded := by
  cases hw with
  | refused => exact h
  | queued _ hv _ hi hb =>
    refine NoStranded.of_busy hb h (fun _ _ => rfl) fun q hq => funext fun j => ?_
    simp [accepted, hq]
  | @sent p i _ hv _ hi hb ht =>
    intro q hq j
    rw [(transmitted_txState cfg send p i q j).1] at hq
    rw [(transmitted_txState cfg send p i q j).2, started_txState]
    split
    · rfl
    · rename_i hne
      by_cases hqp : q = p
      · subst hqp; exact h q hb j
      · rw [started_phy_ne i m hqp] at hq; exact h q hq j
  | @failed p i _ hv _ hi hb ht =>
    exact absurd (by simp [setTxState, transmitFailed]) (hf.not_mem p i (txCmdOf cfg (s.started p i m) p i))

theorem NoStranded.ackExit (h : s.NoStranded) {p : Nat} {s' : Chnl H}
    (hn : ∀ i, cfg.logChnlNum p ≤ i → (s.logChnlCb p i).txState = .idle)
    (hw : AckExitStep cfg send p s s') (hf : s'.NoSendFailed) : s'.NoStranded := by
  cases hw with
  | none hi =>
    intro q hq j
    by_cases hqp : q = p
    · subst hqp
      by_cases hj : j < cfg.logChnlNum q
      · exact hi j hj
      · exact hn j (Nat.not_lt.1 hj)
    · simp only [setTxState, updPhy_phy, hqp, ↓reduceIte] at hq; exact h q hq j
  | @sent i hv hb ht =>
    refine h.congr (fun q => (transmitted_txState cfg send p i q 0).1) fun q j => ?_
    rw [(transmitted_txState cfg send p i q j).2]
    split
    · exact .inr rfl
    · exact .inl rfl
  | @failed i hv hb ht =>
    exact absurd (by simp [setTxState, transmitFailed]) (hf.not_mem p i (txCmdOf cfg s p i))

end
end Chnl

section
variable {H : Type} (cfg : ChnlCfg) (send : SendFn H)

/-- The invariant of a run: the tables are only busy inside their bounds, and nothing is stranded as
long as no send failed. -/
structure NodeInv (s : Node H) : Prop where
  peer : ∀ p, s.isr = .ackExit p → cfg.Peer p
  bound : ∀ p i, cfg.logChnlNum p ≤ i → (s.chnl.logChnlCb p i).txState = .idle
  stranded : s.chnl.NoSendFailed → s.chnl.NoStranded

variable {cfg send}

theorem NodeInv.init (h : H) : NodeInv cfg (Node.init h) where
  peer _ hp := by cases hp
  bound _ _ _ := rfl
  stranded _ _ _ _ := rfl

theorem NodeInv.congr {s s' : Node H} (h : NodeInv cfg s) (hi : ∀ p, s'.isr = .ackExit p → cfg.Peer p)
    (hp : ∀ p, (s'.chnl.phyChnlXCb p).txState = (s.chnl.phyChnlXCb p).txState)
    (hl : ∀ p i, (s'.chnl.logChnlCb p i).txState = (s.chnl.logChnlCb p i).txState ∨
      (s'.chnl.logChnlCb p i).txState = .idle) (ht : s'.chnl.NoSendFailed → s.chnl.NoSendFailed) : NodeInv cfg s' := by
  refine ⟨hi, fun p i hn => ?_, fun hf => (h.stranded (ht hf)).congr hp hl⟩
  rcases hl p i with hl | hl
  · rw [hl]; exact h.bound p i hn
  · exact hl

theorem NodeInv.setIsr {s : Node H} (h : NodeInv cfg s) {isr : RxIsr} (hisr : ∀ p, isr = .ackExit p → cfg.Peer p) :
    NodeInv cfg ⟨s.chnl, isr⟩ :=
  h.congr hisr (fun _ => rfl) (fun _ _ => .inl rfl) fun h => h

theorem NodeInv.fault {s : Node H} (h : NodeInv cfg s) (p : Nat) (cnt : BitVec 32 → BitVec 32) :
    NodeInv cfg ⟨s.chnl.updPhy p fun c => { c with rxFaultCnt := cnt c.rxFaultCnt }, .idle⟩ := by
  refine h.congr nofun (fun q => ?_) (fun _ _ => .inl rfl) fun h => h
  by_cases hq : q = p <;> simp [hq]

variable {r : RxIsr × Chnl H}

theorem NodeInv.rxAck {s : Node H} (h : NodeInv cfg s) {ack : MailboxData}
    (hr : RxAckStep cfg ack s.chnl r) : NodeInv cfg ⟨r.2, r.1⟩ := by
  cases hr with
  | ignored => exact h.setIsr nofun
  | @fault p => exact h.fault p fun n => (n + 1) ||| 0x40000000#32
  | matched hm hc =>
    exact h.congr (fun q hq => by cases hq; exact ⟨hm.valid.ne, hm.valid.lt⟩) (fun _ => rfl)
      (fun _ _ => .inl rfl) Chnl.NoSendFailed.of_note
  | matchedNull hm hc => exact h.setIsr fun q hq => by cases hq; exact ⟨hm.valid.ne, hm.valid.lt⟩

theorem NodeInv.rxCmd {s : Node H} (h : NodeInv cfg s) (hr : RxCmdStep s.chnl r) : NodeInv cfg ⟨r.2, r.1⟩ := by
  cases hr with
  | ignored => exact h.setIsr nofun
  | @fault p => exact h.fault p fun n => (n + 1) ||| 0x80000000#32
  | called cmd hi =>
    exact h.congr (fun q hq => absurd hq (hi q)) (fun _ => rfl) (fun _ _ => .inl rfl)
      Chnl.NoSendFailed.of_note
  | noTarget hi => exact h.setIsr fun q hq => absurd hq (hi q)

variable {l : BitVec 8} {m : MailboxData}

theorem WriteStep.noSendFailed {s : Chnl H} {r : BkErr × Chnl H}
    (hw : WriteStep cfg send l m s r) (hf : r.2.NoSendFailed) : s.NoSendFailed := by
  cases hw with
  | refused => exact hf
  | queued => exact hf.of_note
  | @sent p i | @failed p i =>
    have hs : (s.started p i m).NoSendFailed := hf.of_trace _ rfl
    exact hs.of_trace _ (s.started_trace p i m)

theorem NodeInv.write {s : Node H} (h : NodeInv cfg s)
    {r : BkErr × Chnl H} (hw : WriteStep cfg send l m s.chnl r) : NodeInv cfg { s with chnl := r.2 } := by
  refine ⟨h.peer, fun q j hn => ?_, fun hf => (h.stranded (hw.noSendFailed hf)).write cfg send hw hf⟩
  have hne : ∀ p i, cfg.Valid p i → ¬ (q = p ∧ j = i) := by
    rintro p i hv ⟨rfl, rfl⟩; have := hv.idx; omega
  have hb := h.bound q j hn
  cases hw with
  | refused => exact hb
  | @queued p i _ hv => simpa [Chnl.accepted, hne p i hv] using hb
  | @sent p i _ hv =>
    show ((Chnl.transmitted cfg send _ p i).logChnlCb q j).txState = _
    rw [(Chnl.transmitted_txState cfg send p i q j).2, Chnl.started_txState]
    simpa [hne p i hv] using hb
  | @failed p i _ hv =>
    have := Chnl.started_txState (s := s.chnl) p i q j m
    simpa [Chnl.setTxState, Chnl.transmitFailed, Chnl.transmit, hne p i hv, this] using hb

variable {p : Nat}

theorem AckExitStep.noSendFailed {s s' : Chnl H} (hw : AckExitStep cfg send p s s')
    (hf : s'.NoSendFailed) : s.NoSendFailed := by
  cases hw with
  | none => exact hf
  | sent | failed => exact hf.of_trace _ rfl

section
variable {s : Node H} (h : NodeInv cfg s)
include h

theorem NodeInv.openChnl {s' : Chnl H} (ho : OpenStep cfg l s.chnl s') :
    NodeInv cfg { s with chnl := s' } := by
  have hbase : ∀ s₀ : Chnl H, s₀ = s.chnl ∨ s.chnl.Cleared s₀ → NodeInv cfg { s with chnl := s₀ } := by
    rintro s₀ (rfl | hc)
    · exact h
    · exact ⟨h.peer, fun _ _ _ => by rw [hc.log], fun _ _ _ _ => by rw [hc.log]⟩
  cases ho with
  | refused h₀ => exact hbase _ h₀
  | @opened s₀ p i param h₀ =>
    refine (hbase _ h₀).congr h.peer (fun _ => rfl) (fun q j => .inl ?_) Chnl.NoSendFailed.of_note
    by_cases hq : q = p ∧ j = i
    · obtain ⟨rfl, rfl⟩ := hq; simp
    · simp [hq]

theorem NodeInv.close {s' : Chnl H} (ho : CloseStep s.chnl s') :
    NodeInv cfg { s with chnl := s' } := by
  cases ho with
  | refused => exact h
  | @closed p i =>
    refine h.congr h.peer (fun _ => rfl) (fun q j => ?_) Chnl.NoSendFailed.of_note
    by_cases hq : q = p ∧ j = i
    · exact .inr (by simp [hq])
    · exact .inl (by simp [hq])

theorem NodeInv.ctrl {cmd : CtrlCmd} {s' : Chnl H}
    (ho : CtrlStep cfg send cmd s.chnl s') : NodeInv cfg { s with chnl := s' } := by
  cases ho with
  | refused => exact h
  | status => exact h.congr h.peer (fun _ => rfl) (fun _ _ => .inl rfl) Chnl.NoSendFailed.of_note
  | @isr p i f hf =>
    refine h.congr h.peer (fun _ => rfl) (fun q j => .inl ?_) fun h => h
    by_cases hq : q = p ∧ j = i
    · obtain ⟨rfl, rfl⟩ := hq; simp [hf.txState]
    · simp [hq]
  | sync => exact h.congr h.peer (fun _ => rfl) (fun _ _ => .inl rfl) fun h => h

theorem NodeInv.call (c : ApiCall) :
    NodeInv cfg { s with chnl := (c.run cfg send id s.chnl).2 } := by
  cases c with
  | write l m => exact h.write (mbChnlWrite_step cfg send l m s.chnl)
  | openChnl l param e => exact h.openChnl (mbChnlOpen_step cfg send l param e s.chnl)
  | close l => exact h.close (mbChnlClose_step cfg l s.chnl)
  | ctrl l cmd => exact h.ctrl (mbChnlCtrl_step cfg send l cmd s.chnl)
  | setExceptionMode p v =>
    refine h.congr h.peer (fun q => ?_) (fun _ _ => .inl rfl) fun h => h
    by_cases hq : q = p <;> simp [ApiCall.run, mbChnlSetExceptionMode, hq]

theorem NodeInv.exit (hp : s.isr = .ackExit p) :
    NodeInv cfg ⟨mbPhyChnlRxAckIsrExit cfg send id p s.chnl, .idle⟩ := by
  have hw := mbPhyChnlRxAckIsrExit_step cfg send (h.peer p hp) s.chnl
  generalize mbPhyChnlRxAckIsrExit cfg send id p s.chnl = t at hw
  refine ⟨fun _ hp => (by cases hp), fun q j hn => ?_, fun hf => ?_⟩
  · have hb := h.bound q j hn
    have hne : ∀ i, cfg.Valid p i → ¬ (q = p ∧ j = i) := by
      rintro i hv ⟨rfl, rfl⟩; have := hv.idx; omega
    cases hw with
    | none => exact hb
    | @sent i hv =>
      show ((Chnl.transmitted cfg send _ p i).logChnlCb q j).txState = _
      rw [(Chnl.transmitted_txState cfg send p i q j).2]
      simpa [hne i hv] using hb
    | @failed i hv => simpa [Chnl.setTxState, Chnl.transmitFailed, Chnl.transmit, hne i hv] using hb
  · exact (h.stranded (hw.noSendFailed hf)).ackExit cfg send (h.bound p) hw hf

theorem NodeInv.cmdExit (p : Nat) (ack : MailboxData) :
    NodeInv cfg ⟨mbPhyChnlRxCmdIsrExit cfg send p ack s.chnl, .idle⟩ := by
  unfold mbPhyChnlRxCmdIsrExit
  dsimp only
  split
  · refine h.congr nofun (fun q => ?_) (fun _ _ => .inl rfl) fun h => h
    by_cases hq : q = p <;> simp [hq]
  · exact h.congr nofun (fun _ => rfl) (fun _ _ => .inl rfl) fun h => h

end

variable {t : Node H} {a : NodeAct}

theorem NodeInv.step {s : Node H} (h : NodeInv cfg s) (hs : s.step cfg send a = some t) : NodeInv cfg t := by
  cases a with
  | call c => cases hs; exact h.call c
  | rx m rsp =>
    simp only [Node.step] at hs
    split at hs
    · cases hs
      unfold mbPhyChnlRxIsr
      split
      · exact h.rxAck (mbPhyChnlRxAckIsr_step cfg m s.chnl)
      · exact h.rxCmd (mbPhyChnlRxCmdIsr_step cfg m rsp s.chnl)
    · cases hs
  | exit =>
    simp only [Node.step] at hs
    split at hs
    · cases hs
    · cases hs; exact h.exit ‹_›
    · cases hs; exact h.cmdExit _ _

variable (cfg send)

/-- The mailbox takes the command that `a` transmits, if any: an accepted write with the physical channel idle, or the
end of an ACK interrupt with a channel busy. -/
def SendsOk (s : Node H) : NodeAct → Prop
  | .call (.write l m) =>
    (s.chnl.logChnlCb (getDstCpuId l) (getLogChnlId l)).inUsed = true →
    (s.chnl.logChnlCb (getDstCpuId l) (getLogChnlId l)).txState = .idle →
    (s.chnl.phyChnlXCb (getDstCpuId l)).txState = .idle →
      TxOk cfg send (s.chnl.started (getDstCpuId l) (getLogChnlId l) m) (getDstCpuId l) (getLogChnlId l)
  | .exit => ∀ p i, s.isr = .ackExit p →
      searchBusy (s.chnl.logChnlCb p) (cfg.logChnlNum p) = some i → TxOk cfg send s.chnl p i
  | _ => True

variable {cfg send}

theorem Chnl.NoSendFailed.call {s : Node H} {c : ApiCall} (h : s.chnl.NoSendFailed)
    (hok : SendsOk cfg send s (.call c)) : (c.run cfg send id s.chnl).2.NoSendFailed := by
  cases c with
  | write l m =>
    have hw := mbChnlWrite_step cfg send l m s.chnl
    simp only [ApiCall.run]
    generalize mbChnlWrite cfg send id l m s.chnl = r at hw
    have hst : ∀ p i, (s.chnl.started p i m).NoSendFailed := fun p i =>
      h.snoc (s.chnl.started_trace p i m) rfl
    cases hw with
    | refused => exact h
    | queued => exact h.snoc rfl rfl
    | sent => exact (hst _ _).snoc rfl rfl
    | failed hl hv hu hi hb ht =>
      subst hl
      simp only [SendsOk, hv.dst, hv.id] at hok
      exact absurd (hok hu hi hb) ht
  | openChnl l param e =>
    have ho := mbChnlOpen_step cfg send l param e s.chnl
    simp only [ApiCall.run]
    generalize (mbChnlOpen cfg send l param e s.chnl).2 = t at ho
    have hbase : ∀ s₀ : Chnl H, s₀ = s.chnl ∨ s.chnl.Cleared s₀ → s₀.NoSendFailed := by
      rintro s₀ (rfl | hc)
      · exact h
      · intro e he; rw [hc.trace] at he; exact h e he
    cases ho with
    | refused h₀ => exact hbase _ h₀
    | opened _ h₀ => exact (hbase _ h₀).snoc rfl rfl
  | close l =>
    have ho := mbChnlClose_step cfg l s.chnl
    simp only [ApiCall.run]
    generalize (mbChnlClose cfg l s.chnl).2 = t at ho
    cases ho with
    | refused => exact h
    | closed => exact h.snoc rfl rfl
  | ctrl l cmd =>
    have ho := mbChnlCtrl_step cfg send l cmd s.chnl
    simp only [ApiCall.run]
    generalize (mbChnlCtrl cfg send l cmd s.chnl).2 = t at ho
    cases ho with
    | refused => exact h
    | status => exact h.snoc rfl rfl
    | isr | sync => exact h
  | setExceptionMode => exact h

theorem Chnl.NoSendFailed.rx {s : Chnl H} (h : s.NoSendFailed) (m rsp : MailboxData) :
    (mbPhyChnlRxIsr cfg m rsp s).2.NoSendFailed := by
  unfold mbPhyChnlRxIsr
  split
  · have hr := mbPhyChnlRxAckIsr_step cfg m s
    generalize mbPhyChnlRxAckIsr cfg m s = r at hr
    cases hr with
    | ignored | fault => exact h
    | matched => exact h.snoc rfl rfl
    | matchedNull => exact h
  · have hr := mbPhyChnlRxCmdIsr_step cfg m rsp s
    generalize mbPhyChnlRxCmdIsr cfg m rsp s = r at hr
    cases hr with
    | ignored | fault => exact h
    | called => exact h.snoc rfl rfl
    | noTarget => exact h

theorem Chnl.NoSendFailed.step {s : Node H} (hi : NodeInv cfg s) (h : s.chnl.NoSendFailed)
    (hok : SendsOk cfg send s a) (hs : s.step cfg send a = some t) : t.chnl.NoSendFailed := by
  cases a with
  | call c => cases hs; exact h.call hok
  | rx m rsp =>
    simp only [Node.step] at hs
    split at hs
    · cases hs; exact h.rx m rsp
    · cases hs
  | exit =>
    simp only [Node.step] at hs
    split at hs
    · cases hs
    · rename_i p hp
      cases hs
      have hw := mbPhyChnlRxAckIsrExit_step cfg send (hi.peer p hp) s.chnl
      show (mbPhyChnlRxAckIsrExit cfg send id p s.chnl).NoSendFailed
      generalize mbPhyChnlRxAckIsrExit cfg send id p s.chnl = t at hw
      cases hw with
      | none => exact h
      | sent => exact h.snoc rfl rfl
      | failed _ _ ht hb => exact absurd (hok p _ hp hb) ht
    · cases hs
      show (mbPhyChnlRxCmdIsrExit cfg send _ _ s.chnl).NoSendFailed
      unfold mbPhyChnlRxCmdIsrExit
      dsimp only
      split <;> exact h

variable (cfg send)

/-- If the mailbox takes each command, an idle physical channel has no logical channel left busy. -/
theorem noStranded_of_sendsOk (h : H) {s : Node H}
    (hr : Run (Node.step cfg send) (SendsOk cfg send) (Node.init h) s) (p : Nat)
    (hp : (s.chnl.phyChnlXCb p).txState = .idle) (i : Nat) : (s.chnl.logChnlCb p i).txState = .idle := by
  have hi : NodeInv cfg s ∧ s.chnl.NoSendFailed :=
    hr.invariant (I := fun s => NodeInv cfg s ∧ s.chnl.NoSendFailed)
      ⟨NodeInv.init h, nofun⟩
      fun _ _ _ _ hi hok hs => ⟨hi.1.step hs, hi.2.step hi.1 hok hs⟩
  exact hi.1.stranded hi.2 p hp i

end

def constMailbox (e : BkErr) : SendFn Unit := fun h _ _ _ => (e, h)

theorem sendsOk_constMailbox (s : Node Unit) (a : NodeAct) : SendsOk apCfg (constMailbox .ok) s a := by
  unfold SendsOk
  split
  · exact fun _ _ _ => rfl
  · exact fun _ _ _ _ => rfl
  · trivial

def openAndWrite : List NodeAct :=
  [.call (.openChnl (logChnlOf 1 0 0) 0 .ok), .call (.write (logChnlOf 1 0 0) ⟨7, 1, 2, 3⟩)]

/-- The ACK of the command with `txSeq` on logical channel `idx` from CPU1 to CPU0. -/
def ackRx (txSeq : BitVec 8) (idx : Nat) : NodeAct :=
  .rx ((⟨0, 0, 0, 0⟩ : MailboxData).setHdr ⟨7, 0, chnlCtrlAckBox, txSeq, logChnlOf 1 0 idx⟩) ⟨0, 0, 0, 0⟩

-- channel 1 is written while the command of channel 0 is outstanding; the ACK of channel 0 sends it
theorem noStranded_after_write : ∃ s : Node Unit,
    Run (Node.step apCfg (constMailbox .ok)) (SendsOk apCfg (constMailbox .ok)) (Node.init ()) s ∧
      (s.chnl.phyChnlXCb 0).txSeq = 2 ∧ (s.chnl.phyChnlXCb 0).txState = .idle ∧
      ∀ i, (s.chnl.logChnlCb 0 i).txState = .idle := by
  have hex : ∃ s : Node Unit, Run (Node.step apCfg (constMailbox .ok)) (fun _ _ => True) (Node.init ()) s ∧
      (s.chnl.phyChnlXCb 0).txSeq = 2 ∧ (s.chnl.phyChnlXCb 0).txState = .idle :=
    Run.of_exec (openAndWrite ++ [.call (.openChnl (logChnlOf 1 0 1) 0 .ok),
      .call (.write (logChnlOf 1 0 1) ⟨8, 1, 2, 3⟩), ackRx 1 0, .exit, ackRx 2 1, .exit]) (by decide)
  obtain ⟨s, hr, hseq, hp⟩ := hex
  have hok : Run (Node.step apCfg (constMailbox .ok)) (SendsOk apCfg (constMailbox .ok)) (Node.init ()) s :=
    hr.mono fun t a _ => sendsOk_constMailbox t a
  exact ⟨s, hok, hseq, hp, noStranded_of_sendsOk apCfg _ () hok 0 hp⟩

/-- The mailbox is full when the write starts its transmission: the command stays in the buffer, and the physical
channel is idle. -/
theorem stranded_of_send_timeout : ∃ s : Node Unit,
    Run (Node.step apCfg (constMailbox .errMailboxTimeout)) (fun _ _ => True) (Node.init ()) s ∧
      (s.chnl.phyChnlXCb 0).txState = .idle ∧ (s.chnl.logChnlCb 0 0).txState = .busy :=
  Run.of_exec openAndWrite (by decide)

end Bk7258

import Bk7258.Mailbox.Node

/-!
# For which command a `tx_cmpl_isr` is called

`mb_phy_chnl_rx_ack_isr` takes an ACK for the last transmission when channel and sequence number agree. So a duplicate
ACK, a reset message or the ACK of a command of an earlier opening can call the `tx_cmpl_isr` of the present one.
`history` reads off the trace which command of the current opening is outstanding.
-/

namespace Bk7258
open Lts

structure History where
  opened : Bool := false
  /-- written through the current opening and still in the channel buffer -/
  waiting : Option MailboxData := none
  /-- written through the current opening, the last command sent to that CPU, and not completed -/
  outstanding : Option MailboxData := none
deriving DecidableEq, Repr

def History.event (p i : Nat) (h : History) : Event → History
  | .opened q j => if q = p ∧ j = i then ⟨true, none, none⟩ else h
  | .closed q j => if q = p ∧ j = i then ⟨false, none, none⟩ else h
  | .written q j m => if q = p ∧ j = i then { h with waiting := if h.opened then some m else none } else h
  | .sent q j m =>
    if q = p then
      if j = i then { h with waiting := none, outstanding := h.waiting.filter (·.payload = m.payload) }
      else { h with outstanding := none }
    else h
  | .txCmplIsr q j _ => if q = p ∧ j = i then { h with outstanding := none } else h
  | _ => h

def history (p i : Nat) (tr : List Event) : History := tr.foldl (History.event p i) {}

@[simp] theorem history_snoc (p i : Nat) (tr : List Event) (e : Event) :
    history p i (tr ++ [e]) = (history p i tr).event p i e := by
  simp [history]

def Completed (tr : List Event) : Prop :=
  ∀ p i pre ack post, tr = pre ++ .txCmplIsr p i ack :: post → (history p i pre).outstanding.isSome

theorem Completed.snoc {tr : List Event} (h : Completed tr) {e : Event}
    (he : ∀ p i ack, e = .txCmplIsr p i ack → (history p i tr).outstanding.isSome) : Completed (tr ++ [e]) := by
  intro p i pre ack post ht
  rcases List.eq_nil_or_concat post with rfl | ⟨post', e', rfl⟩
  · obtain ⟨rfl, h1⟩ := List.append_inj' ht rfl
    exact he p i ack (by simpa using h1)
  · rw [List.concat_eq_append, ← List.cons_append, ← List.append_assoc] at ht
    exact h p i pre ack post' (List.append_inj' ht rfl).1

section
variable {H : Type} (cfg : ChnlCfg) (send : SendFn H)

/-- An ACK (or reset message) for the last transmission arrives while that is outstanding, and no channel is opened
while a command sent on it is. The exception mode is not used. -/
def AckInTime (s : Node H) : NodeAct → Prop
  | .call (.openChnl l _ _) =>
    (s.chnl.phyChnlXCb (getDstCpuId l)).txState = .busy →
      (s.chnl.phyChnlXCb (getDstCpuId l)).txLogChnl = l → s.isr = .ackExit (getDstCpuId l)
  | .call (.setExceptionMode _ _) => False
  | .rx m _ =>
    m.hdr.ctrl &&& chnlCtrlAckBox ≠ 0 → cfg.selfCpu = getSrcCpuId m.hdr.logicalChnl →
      (s.chnl.phyChnlXCb (getDstCpuId m.hdr.logicalChnl)).txLogChnl = m.hdr.logicalChnl →
      (s.chnl.phyChnlXCb (getDstCpuId m.hdr.logicalChnl)).txSeq = m.hdr.txSeq →
      (s.chnl.phyChnlXCb (getDstCpuId m.hdr.logicalChnl)).txState = .busy
  | _ => True

structure Buffered (h : History) (c : MbLogChnlCb) : Prop where
  used : h.opened = c.inUsed
  closed : c.inUsed = false → c.txState = .idle ∧ c.txCmplIsr = none
  wait : c.txState = .busy → ∃ m, h.waiting = some m ∧ m.payload = c.chnnlTxBuff.payload

structure Awaits (s : Node H) (p i : Nat) : Prop where
  busy : (s.chnl.phyChnlXCb p).txState = .busy
  chnl : (s.chnl.phyChnlXCb p).txLogChnl = logChnlOf cfg.selfCpu p i
  used : (s.chnl.logChnlCb p i).inUsed = true
  isr : s.isr ≠ .ackExit p

structure CmplInv (s : Node H) : Prop where
  exc : ∀ p, (s.chnl.phyChnlXCb p).exceptionMode = 0
  init : s.chnl.mbChnnlInitOk = false → ∀ p i, cfg.Valid p i → (s.chnl.logChnlCb p i).inUsed = false
  buff : ∀ p i, cfg.Valid p i → Buffered (history p i s.chnl.trace) (s.chnl.logChnlCb p i)
  out : ∀ p i, cfg.Valid p i → Awaits cfg s p i → (history p i s.chnl.trace).outstanding.isSome
  past : Completed s.chnl.trace

variable {cfg send}

theorem CmplInv.node_init (h : H) : CmplInv cfg (Node.init h) where
  exc _ := rfl
  init _ _ _ _ := rfl
  buff _ _ _ := ⟨rfl, fun _ => ⟨rfl, rfl⟩, nofun⟩
  out _ _ _ ha := by cases ha.busy
  past p i pre ack post ht := by simp [Node.init] at ht

/-! ### Steps -/

theorem CmplInv.congr {s s' : Node H} (h : CmplInv cfg s)
    (hphy : ∀ p, (s'.chnl.phyChnlXCb p).txState = (s.chnl.phyChnlXCb p).txState ∧
      (s'.chnl.phyChnlXCb p).txLogChnl = (s.chnl.phyChnlXCb p).txLogChnl ∧
      (s'.chnl.phyChnlXCb p).exceptionMode = (s.chnl.phyChnlXCb p).exceptionMode)
    (hlog : s'.chnl.logChnlCb = s.chnl.logChnlCb) (hinit : s'.chnl.mbChnnlInitOk = s.chnl.mbChnnlInitOk)
    (htr : ∀ p i, history p i s'.chnl.trace = history p i s.chnl.trace) (hpast : Completed s'.chnl.trace)
    (hisr : ∀ p, s'.isr ≠ .ackExit p → s.isr ≠ .ackExit p) : CmplInv cfg s' where
  exc p := by rw [(hphy p).2.2]; exact h.exc p
  init := by rw [hinit, hlog]; exact h.init
  buff p i hv := by rw [htr, hlog]; exact h.buff p i hv
  out p i hv ha := by
    rw [htr]
    exact h.out p i hv ⟨(hphy p).1 ▸ ha.busy, (hphy p).2.1 ▸ ha.chnl, hlog ▸ ha.used, hisr p ha.isr⟩
  past := hpast

theorem Buffered.accepted {s : Chnl H} {p i : Nat} (hu : (s.logChnlCb p i).inUsed) (m : MailboxData)
    {q j : Nat} (h : Buffered (history q j s.trace) (s.logChnlCb q j)) :
    Buffered (history q j (s.accepted p i m).trace) ((s.accepted p i m).logChnlCb q j) := by
  by_cases hq : p = q ∧ i = j
  · obtain ⟨rfl, rfl⟩ := hq
    refine ⟨?_, ?_, fun _ => ⟨m, ?_, ?_⟩⟩
    · simpa [Chnl.accepted, History.event] using h.used
    · simp [Chnl.accepted, hu]
    · simp [Chnl.accepted, History.event, h.used, hu]
    · simp [Chnl.accepted]
  · have hq' : ¬ (q = p ∧ j = i) := fun h => hq ⟨h.1.symm, h.2.symm⟩
    simpa [Chnl.accepted, History.event, hq, hq'] using h

theorem Buffered.transmitted {s : Chnl H} {p i q j : Nat} (h : Buffered (history q j s.trace) (s.logChnlCb q j)) :
    Buffered (history q j (s.transmitted cfg send p i).trace) ((s.transmitted cfg send p i).logChnlCb q j) := by
  by_cases hq : p = q
  · subst hq
    by_cases hj : i = j
    · subst hj
      refine ⟨?_, fun hu => ⟨?_, ?_⟩, fun hb => ?_⟩
      · simpa [Chnl.transmitted, Chnl.transmit, History.event] using h.used
      · simp [Chnl.transmitted, Chnl.transmit]
      · have hu : (s.logChnlCb p i).inUsed = false := by simpa [Chnl.transmitted, Chnl.transmit] using hu
        simpa [Chnl.transmitted, Chnl.transmit] using (h.closed hu).2
      · simp [Chnl.transmitted, Chnl.transmit] at hb
    · have hj' : ¬ j = i := fun h => hj h.symm
      refine ⟨?_, ?_, ?_⟩
      · simpa [Chnl.transmitted, Chnl.transmit, History.event, hj, hj'] using h.used
      · simpa [Chnl.transmitted, Chnl.transmit, hj'] using h.closed
      · simpa [Chnl.transmitted, Chnl.transmit, History.event, hj, hj'] using h.wait
  · have hq' : ¬ q = p := fun h => hq h.symm
    simpa [Chnl.transmitted, Chnl.transmit, History.event, hq, hq'] using h

theorem Buffered.transmitFailed {s : Chnl H} {p i q j : Nat} (h : Buffered (history q j s.trace) (s.logChnlCb q j)) :
    Buffered (history q j (s.transmitFailed cfg send p i).trace) ((s.transmitFailed cfg send p i).logChnlCb q j) := by
  by_cases hq : q = p ∧ j = i
  · obtain ⟨rfl, rfl⟩ := hq
    refine ⟨?_, ?_, ?_⟩
    · simpa [Chnl.transmitFailed, Chnl.transmit, History.event] using h.used
    · simpa [Chnl.transmitFailed, Chnl.transmit] using h.closed
    · simpa [Chnl.transmitFailed, Chnl.transmit, History.event, txCmdOf_payload] using h.wait
  · simpa [Chnl.transmitFailed, Chnl.transmit, History.event, hq] using h

theorem outstanding_transmitted {s : Chnl H} {p i : Nat}
    (h : Buffered (history p i s.trace) (s.logChnlCb p i)) (hb : (s.logChnlCb p i).txState = .busy) :
    (history p i (s.transmitted cfg send p i).trace).outstanding.isSome := by
  obtain ⟨m, hm, hp⟩ := h.wait hb
  have : m.payload = (txCmdOf cfg s p i).payload := by rw [hp, txCmdOf_payload]
  simp [Chnl.transmitted, Chnl.transmit, History.event, hm, this]

structure CmplInvBut (cfg : ChnlCfg) (s : Node H) (p : Nat) : Prop where
  exc : ∀ p, (s.chnl.phyChnlXCb p).exceptionMode = 0
  init : s.chnl.mbChnnlInitOk = false → ∀ p i, cfg.Valid p i → (s.chnl.logChnlCb p i).inUsed = false
  buff : ∀ p i, cfg.Valid p i → Buffered (history p i s.chnl.trace) (s.chnl.logChnlCb p i)
  out : ∀ q j, q ≠ p → cfg.Valid q j → Awaits cfg s q j → (history q j s.chnl.trace).outstanding.isSome
  past : Completed s.chnl.trace

theorem CmplInv.but {s : Node H} (h : CmplInv cfg s) (p : Nat) : CmplInvBut cfg s p :=
  ⟨h.exc, h.init, h.buff, fun q j _ => h.out q j, h.past⟩

namespace CmplInvBut
variable {s : Node H} {isr : RxIsr} {p i : Nat}

theorem accepted (h : CmplInvBut cfg s p) (hu : (s.chnl.logChnlCb p i).inUsed) (m : MailboxData) :
    CmplInvBut cfg { s with chnl := (s.chnl.accepted p i m).setTxState p .busy } p where
  exc q := by
    by_cases hq : q = p
    · subst hq; simpa [Chnl.setTxState, Chnl.accepted] using h.exc q
    · simpa [Chnl.setTxState, Chnl.accepted, hq] using h.exc q
  init hi q j hv := by
    by_cases hq : q = p ∧ j = i
    · obtain ⟨rfl, rfl⟩ := hq; simp [h.init hi q j hv] at hu
    · simpa [Chnl.setTxState, Chnl.accepted, hq] using h.init hi q j hv
  buff q j hv := (h.buff q j hv).accepted hu m
  out q j hq hv ha := by
    have hpq : ¬ p = q := fun h => hq h.symm
    have hw : Awaits cfg s q j := ⟨by simpa [Chnl.setTxState, Chnl.accepted, hq] using ha.busy,
      by simpa [Chnl.setTxState, Chnl.accepted, hq] using ha.chnl,
      by simpa [Chnl.setTxState, Chnl.accepted, hq] using ha.used, ha.isr⟩
    simpa [Chnl.setTxState, Chnl.accepted, History.event, hpq] using h.out q j hq hv hw
  past := h.past.snoc nofun

theorem transmitted (h : CmplInvBut cfg s p) (hv : cfg.Valid p i)
    (hb : (s.chnl.logChnlCb p i).txState = .busy) (hisr : ∀ q, q ≠ p → isr ≠ .ackExit q → s.isr ≠ .ackExit q) :
    CmplInv cfg ⟨s.chnl.transmitted cfg send p i, isr⟩ where
  exc q := by
    by_cases hq : q = p
    · subst hq; simpa [Chnl.transmitted, Chnl.transmit] using h.exc q
    · simpa [Chnl.transmitted, Chnl.transmit, hq] using h.exc q
  init hi q j hvq := by
    by_cases hq : q = p ∧ j = i
    · obtain ⟨rfl, rfl⟩ := hq; simpa [Chnl.transmitted, Chnl.transmit] using h.init hi q j hvq
    · simpa [Chnl.transmitted, Chnl.transmit, hq] using h.init hi q j hvq
  buff q j hvq := (h.buff q j hvq).transmitted
  out q j hvq ha := by
    by_cases hq : q = p
    · subst hq
      have hc : logChnlOf cfg.selfCpu q i = logChnlOf cfg.selfCpu q j := by
        simpa [Chnl.transmitted, Chnl.transmit] using ha.chnl
      obtain rfl := hv.inj hvq hc
      exact outstanding_transmitted (h.buff q i hv) hb
    · have hpq : ¬ p = q := fun h => hq h.symm
      have hw : Awaits cfg s q j := ⟨by simpa [Chnl.transmitted, Chnl.transmit, hq] using ha.busy,
        by simpa [Chnl.transmitted, Chnl.transmit, hq] using ha.chnl,
        by simpa [Chnl.transmitted, Chnl.transmit, hq] using ha.used, hisr q hq ha.isr⟩
      simpa [Chnl.transmitted, Chnl.transmit, History.event, hpq] using h.out q j hq hvq hw
  past := h.past.snoc nofun

theorem transmitFailed (h : CmplInvBut cfg s p) :
    CmplInvBut cfg { s with chnl := s.chnl.transmitFailed cfg send p i } p where
  exc q := by
    by_cases hq : q = p
    · subst hq; simpa [Chnl.transmitFailed, Chnl.transmit] using h.exc q
    · simpa [Chnl.transmitFailed, Chnl.transmit, hq] using h.exc q
  init hi q j hvq := by
    by_cases hq : q = p ∧ j = i
    · obtain ⟨rfl, rfl⟩ := hq; simpa [Chnl.transmitFailed, Chnl.transmit] using h.init hi q j hvq
    · simpa [Chnl.transmitFailed, Chnl.transmit, hq] using h.init hi q j hvq
  buff q j hvq := (h.buff q j hvq).transmitFailed
  out q j hq hvq ha := by
    have hw : Awaits cfg s q j := ⟨by simpa [Chnl.transmitFailed, Chnl.transmit, hq] using ha.busy,
      by simpa [Chnl.transmitFailed, Chnl.transmit, hq] using ha.chnl,
      by simpa [Chnl.transmitFailed, Chnl.transmit, hq] using ha.used, ha.isr⟩
    simpa [Chnl.transmitFailed, Chnl.transmit, History.event] using h.out q j hq hvq hw
  past := h.past.snoc nofun

theorem setIdle (h : CmplInvBut cfg s p) (hisr : ∀ q, q ≠ p → isr ≠ .ackExit q → s.isr ≠ .ackExit q) :
    CmplInv cfg ⟨s.chnl.setTxState p .idle, isr⟩ where
  exc q := by
    by_cases hq : q = p
    · subst hq; simpa [Chnl.setTxState] using h.exc q
    · simpa [Chnl.setTxState, hq] using h.exc q
  init := h.init
  buff := h.buff
  out q j hvq ha := by
    by_cases hq : q = p
    · subst hq; have := ha.busy; simp [Chnl.setTxState] at this
    · exact h.out q j hq hvq ⟨by simpa [Chnl.setTxState, hq] using ha.busy,
        by simpa [Chnl.setTxState, hq] using ha.chnl, ha.used, hisr q hq ha.isr⟩
  past := h.past

end CmplInvBut

variable {l : BitVec 8}

theorem CmplInv.write {s : Node H} (h : CmplInv cfg s) {m : MailboxData}
    {r : BkErr × Chnl H} (hw : WriteStep cfg send l m s.chnl r) : CmplInv cfg { s with chnl := r.2 } := by
  have hst : ∀ p i, s.chnl.started p i m = (s.chnl.accepted p i m).setTxState p .busy := fun p i => by
    simp [Chnl.started, h.exc p]
  cases hw with
  | refused => exact h
  | @queued p i hl hv hu hi hb =>
    have hbut := (h.but p).accepted hu m
    refine ⟨h.exc, hbut.init, hbut.buff, fun q j hvq ha => ?_, hbut.past⟩
    have hused : (s.chnl.logChnlCb q j).inUsed := by
      by_cases hq : q = p ∧ j = i
      · obtain ⟨rfl, rfl⟩ := hq; exact hu
      · simpa [Chnl.accepted, hq] using ha.used
    have hout := h.out q j hvq ⟨ha.busy, ha.chnl, hused, ha.isr⟩
    by_cases hq : p = q ∧ i = j <;> simpa [Chnl.accepted, History.event, hq] using hout
  | @sent p i hl hv hu hi hb =>
    rw [hst]
    exact ((h.but p).accepted hu m).transmitted hv (by simp [Chnl.setTxState, Chnl.accepted]) fun _ _ h => h
  | @failed p i hl hv hu hi hb =>
    rw [hst]
    exact ((h.but p).accepted hu m).transmitFailed.setIdle fun _ _ h => h

variable {s' : Chnl H}

theorem CmplInv.ackExit {s : Node H} (h : CmplInv cfg s) {p : Nat} (hp : s.isr = .ackExit p)
    (hw : AckExitStep cfg send p s.chnl s') : CmplInv cfg ⟨s', .idle⟩ := by
  have hisr : ∀ q, q ≠ p → RxIsr.idle ≠ .ackExit q → s.isr ≠ .ackExit q := by
    intro q hq _ he
    rw [hp] at he; cases he; exact hq rfl
  cases hw with
  | none => exact (h.but p).setIdle hisr
  | sent hv hb => exact (h.but p).transmitted hv hb hisr
  | failed => exact (h.but p).transmitFailed.setIdle hisr

variable {ack : MailboxData}

theorem CmplInv.cmdExit {s : Node H} (h : CmplInv cfg s) {p : Nat}
    (hp : s.isr = .cmdExit p ack) : CmplInv cfg ⟨mbPhyChnlRxCmdIsrExit cfg send p ack s.chnl, .idle⟩ := by
  have hisr : ∀ q, RxIsr.idle ≠ .ackExit q → s.isr ≠ .ackExit q := fun q _ => by rw [hp]; simp
  unfold mbPhyChnlRxCmdIsrExit
  dsimp only
  split
  · refine h.congr (fun q => ?_) rfl rfl (fun _ _ => rfl) h.past hisr
    by_cases hq : q = p <;> simp [hq]
  · exact h.congr (fun _ => ⟨rfl, rfl, rfl⟩) rfl rfl (fun _ _ => rfl) h.past hisr

theorem CmplInv.setIsr {s : Node H} (h : CmplInv cfg s) (hisr : ∀ q, s.isr ≠ .ackExit q) (isr : RxIsr) :
    CmplInv cfg ⟨s.chnl, isr⟩ :=
  h.congr (fun _ => ⟨rfl, rfl, rfl⟩) rfl rfl (fun _ _ => rfl) h.past fun q _ => hisr q

theorem CmplInv.fault {s : Node H} (h : CmplInv cfg s) (hisr : ∀ q, s.isr ≠ .ackExit q) (p : Nat)
    (cnt : BitVec 32 → BitVec 32) :
    CmplInv cfg ⟨s.chnl.updPhy p fun c => { c with rxFaultCnt := cnt c.rxFaultCnt }, .idle⟩ := by
  refine h.congr (fun q => ?_) rfl rfl (fun _ _ => rfl) h.past fun q _ => hisr q
  by_cases hq : q = p <;> simp [hq]

variable {r : RxIsr × Chnl H}

section
variable {s : Node H} (h : CmplInv cfg s)
include h

theorem CmplInv.rxAck (hidle : s.isr = .idle)
    (hbusy : ∀ p i, AckMatches cfg ack s.chnl p i → (s.chnl.phyChnlXCb p).txState = .busy)
    (hr : RxAckStep cfg ack s.chnl r) : CmplInv cfg ⟨r.2, r.1⟩ := by
  have hisr : ∀ q, s.isr ≠ .ackExit q := fun q => by rw [hidle]; simp
  cases hr with
  | ignored => exact h.setIsr hisr .idle
  | @fault p => exact h.fault hisr p fun n => (n + 1) ||| 0x40000000#32
  | @matched p i hm hc =>
    have hused : (s.chnl.logChnlCb p i).inUsed := by
      cases hu : (s.chnl.logChnlCb p i).inUsed with
      | true => rfl
      | false => simp [((h.buff p i hm.valid).closed hu).2] at hc
    have hout := h.out p i hm.valid ⟨hbusy p i hm, hm.log, hused, hisr p⟩
    refine ⟨h.exc, h.init, fun q j hv => ?_, fun q j hv ha => ?_, h.past.snoc ?_⟩
    · have hb := h.buff q j hv
      by_cases hq : p = q ∧ i = j
      · exact ⟨by simpa [History.event, hq] using hb.used, hb.closed,
          by simpa [History.event, hq] using hb.wait⟩
      · simpa [History.event, hq] using hb
    · have hpq : ¬ (p = q ∧ i = j) := fun hq => ha.isr (by rw [hq.1])
      simpa [History.event, hpq] using h.out q j hv ⟨ha.busy, ha.chnl, ha.used, hisr q⟩
    · intro q j a he
      cases he
      exact hout
  | matchedNull => exact h.setIsr hisr _

theorem CmplInv.rxCmd (hidle : s.isr = .idle)
    (hr : RxCmdStep s.chnl r) : CmplInv cfg ⟨r.2, r.1⟩ := by
  have hisr : ∀ q, s.isr ≠ .ackExit q := fun q => by rw [hidle]; simp
  cases hr with
  | ignored => exact h.setIsr hisr .idle
  | @fault p => exact h.fault hisr p fun n => (n + 1) ||| 0x80000000#32
  | called cmd =>
    exact h.congr (fun _ => ⟨rfl, rfl, rfl⟩) rfl rfl (fun _ _ => by simp [History.event])
      (h.past.snoc fun _ _ _ he => by cases he) fun q _ => hisr q
  | noTarget => exact h.setIsr hisr _

theorem CmplInv.close (ho : CloseStep s.chnl s') :
    CmplInv cfg { s with chnl := s' } := by
  cases ho with
  | refused => exact h
  | @closed p i =>
    refine ⟨h.exc, fun hi q j hv => ?_, fun q j hv => ?_, fun q j hv ha => ?_, h.past.snoc nofun⟩
    · by_cases hq : q = p ∧ j = i
      · simp [hq]
      · simpa [hq] using h.init hi q j hv
    · by_cases hq : q = p ∧ j = i
      · obtain ⟨rfl, rfl⟩ := hq
        exact ⟨by simp [History.event], fun _ => by simp, fun hb => by simp at hb⟩
      · have hq' : ¬ (p = q ∧ i = j) := fun h => hq ⟨h.1.symm, h.2.symm⟩
        simpa [History.event, hq, hq'] using h.buff q j hv
    · have hq : ¬ (q = p ∧ j = i) := by
        rintro ⟨rfl, rfl⟩
        have := ha.used; simp at this
      have hq' : ¬ (p = q ∧ i = j) := fun h => hq ⟨h.1.symm, h.2.symm⟩
      simpa [History.event, hq'] using
        h.out q j hv ⟨ha.busy, ha.chnl, by simpa [hq] using ha.used, ha.isr⟩

theorem CmplInv.ctrl {cmd : CtrlCmd} (ho : CtrlStep cfg send cmd s.chnl s') :
    CmplInv cfg { s with chnl := s' } := by
  cases ho with
  | refused => exact h
  | status =>
    exact h.congr (fun _ => ⟨rfl, rfl, rfl⟩) rfl rfl (fun _ _ => by simp [History.event])
      (h.past.snoc fun _ _ _ he => by cases he) fun _ h => h
  | @isr p i f hf hu =>
    have hused : ∀ q j, ((s.chnl.updLog p i f).logChnlCb q j).inUsed = (s.chnl.logChnlCb q j).inUsed := by
      intro q j
      by_cases hq : q = p ∧ j = i
      · obtain ⟨rfl, rfl⟩ := hq; simp [hf.inUsed]
      · simp [hq]
    refine ⟨h.exc, fun hi q j hv => (hused q j).trans (h.init hi q j hv), fun q j hv => ?_, fun q j hv ha => ?_, h.past⟩
    · have hb := h.buff q j hv
      by_cases hq : q = p ∧ j = i
      · obtain ⟨rfl, rfl⟩ := hq
        refine ⟨hb.used.trans (hused q j).symm, fun hc => ?_, fun ht => ?_⟩
        · rw [hused, hu] at hc; cases hc
        · simp only [Chnl.updLog_log, and_self, ↓reduceIte, hf.txState, hf.buff] at ht ⊢
          exact hb.wait ht
      · simpa [hq] using hb
    · exact h.out q j hv ⟨ha.busy, ha.chnl, (hused q j) ▸ ha.used, ha.isr⟩
  | sync => exact h.congr (fun _ => ⟨rfl, rfl, rfl⟩) rfl rfl (fun _ _ => rfl) h.past fun _ h => h

theorem CmplInv.cleared {s₀ : Chnl H} (hc : s.chnl.Cleared s₀) :
    CmplInv cfg { s with chnl := s₀ } := by
  refine ⟨fun p => by rw [hc.phy], fun _ p i _ => by rw [hc.log], fun p i hv => ?_, fun p i hv ha => ?_, ?_⟩
  · have hu : (history p i s.chnl.trace).opened = false := by
      rw [(h.buff p i hv).used, h.init hc.init p i hv]
    simp only [hc.log, hc.trace]
    exact ⟨hu, fun _ => ⟨rfl, rfl⟩, nofun⟩
  · have := ha.busy; simp [hc.phy] at this
  · simp only [hc.trace]; exact h.past

theorem CmplInv.openChnl (hok : (s.chnl.phyChnlXCb (getDstCpuId l)).txState = .busy →
      (s.chnl.phyChnlXCb (getDstCpuId l)).txLogChnl = l → s.isr = .ackExit (getDstCpuId l)) (ho :
        OpenStep cfg l s.chnl s') : CmplInv cfg { s with chnl := s' } := by
  have hbase : ∀ s₀ : Chnl H, s₀ = s.chnl ∨ s.chnl.Cleared s₀ → CmplInv cfg { s with chnl := s₀ } := by
    rintro s₀ (rfl | hc)
    · exact h
    · exact h.cleared hc
  cases ho with
  | refused h₀ => exact hbase _ h₀
  | @opened s₀ p i param h₀ hinit hl hv hu =>
    have h' := hbase _ h₀
    refine ⟨h'.exc, fun hi => ?_, fun q j hvq => ?_, fun q j hvq ha => ?_, h'.past.snoc nofun⟩
    · exact absurd (hinit.symm.trans hi) (by decide)
    · by_cases hq : q = p ∧ j = i
      · obtain ⟨rfl, rfl⟩ := hq
        have hb : (s₀.logChnlCb q j).txState = .idle := ((h'.buff q j hvq).closed hu).1
        exact ⟨by simp [History.event], fun hc => by simp at hc, fun ht => by simp [hb] at ht⟩
      · have hq' : ¬ (p = q ∧ i = j) := fun h => hq ⟨h.1.symm, h.2.symm⟩
        simpa [History.event, hq, hq'] using h'.buff q j hvq
    · have hq : ¬ (q = p ∧ j = i) := by
        rintro ⟨rfl, rfl⟩
        rcases h₀ with rfl | hc
        · subst hl
          rw [hv.dst] at hok
          exact ha.isr (hok ha.busy ha.chnl)
        · have := ha.busy; simp [hc.phy] at this
      have hq' : ¬ (p = q ∧ i = j) := fun h => hq ⟨h.1.symm, h.2.symm⟩
      simpa [History.event, hq'] using
        h'.out q j hvq ⟨ha.busy, ha.chnl, by simpa [hq] using ha.used, ha.isr⟩

end

theorem CmplInv.step {s t : Node H} {a : NodeAct} (hn : NodeInv cfg s) (h : CmplInv cfg s)
    (hok : AckInTime cfg s a) (hs : s.step cfg send a = some t) : CmplInv cfg t := by
  cases a with
  | call c =>
    cases hs
    cases c with
    | openChnl l param e => exact h.openChnl hok (mbChnlOpen_step cfg send l param e s.chnl)
    | close l => exact h.close (mbChnlClose_step cfg l s.chnl)
    | ctrl l cmd => exact h.ctrl (mbChnlCtrl_step cfg send l cmd s.chnl)
    | write l m => exact h.write (mbChnlWrite_step cfg send l m s.chnl)
    | setExceptionMode => exact hok.elim
  | rx m rsp =>
    simp only [Node.step] at hs
    split at hs
    · rename_i hidle
      cases hs
      unfold mbPhyChnlRxIsr
      split
      · rename_i hbox
        refine h.rxAck hidle (fun p i hm => ?_) (mbPhyChnlRxAckIsr_step cfg m s.chnl)
        simp only [AckInTime, hm.chnl, hm.valid.src, hm.valid.dst] at hok
        exact hok hbox trivial hm.log hm.seq
      · exact h.rxCmd hidle (mbPhyChnlRxCmdIsr_step cfg m rsp s.chnl)
    · cases hs
  | exit =>
    simp only [Node.step] at hs
    split at hs
    · cases hs
    · rename_i p hp
      cases hs
      exact h.ackExit hp (mbPhyChnlRxAckIsrExit_step cfg send (hn.peer p hp) s.chnl)
    · rename_i p ack hp
      cases hs
      exact h.cmdExit hp

variable (cfg send)

/-- If ACKs arrive while their command is outstanding and channels are not opened again before that, each `tx_cmpl_isr`
call is for the command of the current opening that is outstanding. -/
theorem txCmplIsr_outstanding (h : H) {s : Node H}
    (hr : Run (Node.step cfg send) (AckInTime cfg) (Node.init h) s) (p i : Nat) (pre post : List Event)
    (ack : MailboxData) (ht : s.chnl.trace = pre ++ .txCmplIsr p i ack :: post) :
    ∃ m, (history p i pre).outstanding = some m := by
  have hi : NodeInv cfg s ∧ CmplInv cfg s :=
    hr.invariant (I := fun s => NodeInv cfg s ∧ CmplInv cfg s) ⟨NodeInv.init h, CmplInv.node_init h⟩
      fun _ _ _ _ hi hok hs => ⟨hi.1.step hs, hi.2.step hi.1 hok hs⟩
  exact Option.isSome_iff_exists.1 (hi.2.past p i pre ack post ht)

end
def firstAck : MailboxData :=
  (⟨0, 0, 0, 0⟩ : MailboxData).setHdr ⟨7, 0, chnlCtrlAckBox, 1, logChnlOf 1 0 0⟩

def openSetWrite : List NodeAct :=
  [.call (.openChnl (logChnlOf 1 0 0) 0 .ok), .call (.ctrl (logChnlOf 1 0 0) (.setTxCmplIsr (some 1))),
    .call (.write (logChnlOf 1 0 0) ⟨7, 1, 2, 3⟩)]

instance {H : Type} (cfg : ChnlCfg) (s : Node H) (a : NodeAct) : Decidable (AckInTime cfg s a) := by
  unfold AckInTime
  split <;> infer_instance

theorem txCmplIsr_outstanding_first : ∃ s : Node Unit,
    Run (Node.step apCfg (constMailbox .ok)) (AckInTime apCfg) (Node.init ()) s ∧
      ∃ pre ack m, s.chnl.trace = pre ++ [.txCmplIsr 0 0 ack] ∧ (history 0 0 pre).outstanding = some m := by
  refine Run.of_exec_imp (p := fun s => s.chnl.trace = s.chnl.trace.take 3 ++ [.txCmplIsr 0 0 ⟨7, 0, 0, 0⟩])
    (openSetWrite ++ [.rx firstAck ⟨0, 0, 0, 0⟩]) (by decide) fun s hr ht => ?_
  obtain ⟨m, hm⟩ := txCmplIsr_outstanding apCfg _ () hr 0 0 _ [] _ ht
  exact ⟨_, _, m, ht, hm⟩

/-- The channel is closed and opened again before the ACK arrives: its `tx_cmpl_isr` is called although nothing was
written. -/
theorem txCmplIsr_of_earlier_opening : ∃ s : Node Unit,
    Run (Node.step apCfg (constMailbox .ok)) (fun _ _ => True) (Node.init ()) s ∧
      ∃ pre ack post, s.chnl.trace = pre ++ .txCmplIsr 0 0 ack :: post ∧
        (history 0 0 pre).outstanding = none := by
  refine Run.of_exec_imp (p := fun s => s.chnl.trace = s.chnl.trace.take 5 ++ [.txCmplIsr 0 0 ⟨7, 0, 0, 0⟩] ∧
      (history 0 0 (s.chnl.trace.take 5)).outstanding = none)
    (openSetWrite ++ [.call (.close (logChnlOf 1 0 0)), .call (.openChnl (logChnlOf 1 0 0) 0 .ok),
      .call (.ctrl (logChnlOf 1 0 0) (.setTxCmplIsr (some 2))), .rx firstAck ⟨0, 0, 0, 0⟩]) (by decide) ?_
  exact fun s _ ⟨ht, hn⟩ => ⟨_, _, [], ht, hn⟩

end Bk7258

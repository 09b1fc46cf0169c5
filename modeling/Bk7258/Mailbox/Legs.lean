import Bk7258.Mailbox.Link

/-!
# The acknowledged commands between two CPUs

Each direction of the link is at any time in one phase of one exchange (`Leg`). `LegInv` ties the phase to the messages
in flight, the two interrupts and the physical channel of the sender, with one lemma per event. Synchronous commands and
the exchange of the other direction are filtered out.
-/

namespace Bk7258
open Lts

inductive Leg
  | idle
  | cmd (m : MailboxData)
  | reply (ack : MailboxData)
  | ack (ack : MailboxData)
  | done
deriving DecidableEq, Repr

namespace Leg

def cmds : Leg → List MailboxData
  | .cmd m => [m]
  | _ => []

def acks : Leg → List MailboxData
  | .ack a => [a]
  | _ => []

def msgs : Leg → List MailboxData
  | .cmd m | .reply m | .ack m => [m]
  | _ => []

end Leg

/-- Phase `leg` of the commands from `cfg.selfCpu` to `q`: `out` and `back` are the messages in flight, `phy` is the
sender's physical channel, `own` and `other` are the two interrupts. -/
structure LegInv (cfg : ChnlCfg) (q : Nat) (out back : List MailboxData) (phy : MbPhyChnlCb)
    (own other : RxIsr) (leg : Leg) : Prop where
  cmds : out.filter (·.isAsync) = leg.cmds
  acks : back.filter (·.isAck) = leg.acks
  reply : ∀ p a, other = .cmdExit p a ↔ p = cfg.selfCpu ∧ leg = .reply a
  done : ∀ p, own = .ackExit p ↔ p = q ∧ leg = .done
  busy : phy.txState = .busy ↔ leg ≠ .idle
  chnl : leg ≠ .idle → ∃ i, cfg.Valid q i ∧ phy.txLogChnl = logChnlOf cfg.selfCpu q i
  hdr : ∀ m ∈ leg.msgs, m.hdr.logicalChnl = phy.txLogChnl ∧ m.hdr.txSeq = phy.txSeq
  ack : ∀ a, leg = .reply a → a.isAck = true

theorem MailboxData.isAsync_of_isAck {m : MailboxData} (h : m.isAck) : m.isAsync = false := by
  simp [isAsync, h]

namespace LegInv
variable {cfg : ChnlCfg} {q : Nat} {out back out' back' : List MailboxData} {phy phy' : MbPhyChnlCb}
  {own other own' other' : RxIsr} {leg : Leg} {m a : MailboxData}

theorem init (hp : phy.txState = .idle) : LegInv cfg q [] [] phy .idle .idle .idle where
  cmds := rfl
  acks := rfl
  reply _ _ := by simp
  done _ := by simp
  busy := by simp [hp]
  chnl h := absurd rfl h
  hdr _ hm := by cases hm
  ack _ h := by cases h

/-! ### Frame -/

theorem congr (h : LegInv cfg q out back phy own other leg)
    (ho : out'.filter (·.isAsync) = out.filter (·.isAsync)) (hb : back'.filter (·.isAck) = back.filter (·.isAck))
    (hs : phy'.txState = phy.txState) (hq : phy'.txSeq = phy.txSeq) (hl : phy'.txLogChnl = phy.txLogChnl)
    (hown : ∀ p, own' = .ackExit p ↔ own = .ackExit p)
    (hother : ∀ p a, other' = .cmdExit p a ↔ other = .cmdExit p a) :
    LegInv cfg q out' back' phy' own' other' leg where
  cmds := by rw [ho]; exact h.cmds
  acks := by rw [hb]; exact h.acks
  reply p a := (hother p a).trans (h.reply p a)
  done p := (hown p).trans (h.done p)
  busy := by rw [hs]; exact h.busy
  chnl := by rw [hl]; exact h.chnl
  hdr := by rw [hl, hq]; exact h.hdr
  ack := h.ack

theorem frame (h : LegInv cfg q out back phy own other leg)
    (ho : out'.filter (·.isAsync) = out.filter (·.isAsync)) (hb : back'.filter (·.isAck) = back.filter (·.isAck))
    (hown : ∀ p, own' = .ackExit p ↔ own = .ackExit p) (hother : ∀ p a, other' = .cmdExit p a ↔ other = .cmdExit p a) :
    LegInv cfg q out' back' phy own' other' leg :=
  h.congr ho hb rfl rfl rfl hown hother

/-! ### Events of the exchange -/

section
variable (h : LegInv cfg q out back phy own other leg)
include h

theorem own_ne (hl : leg ≠ .done) (p : Nat) : own ≠ .ackExit p :=
  fun he => hl ((h.done p).1 he).2

theorem other_ne (hl : ∀ a, leg ≠ .reply a) (p : Nat)
    (a : MailboxData) : other ≠ .cmdExit p a :=
  fun he => hl a ((h.reply p a).1 he).2

theorem leg_eq_idle (hp : phy.txState = .idle) : leg = .idle := by
  by_cases hl : leg = .idle
  · exact hl
  · rw [h.busy.2 hl] at hp; cases hp

theorem transmit (hleg : leg = .idle ∨ leg = .done)
    (hm : m.isAsync) (hs : phy'.txState = .busy) {i : Nat} (hv : cfg.Valid q i)
    (hl : phy'.txLogChnl = logChnlOf cfg.selfCpu q i) (hc : m.hdr.logicalChnl = logChnlOf cfg.selfCpu q i)
    (hq : phy'.txSeq = m.hdr.txSeq) (hown : ∀ p, own' ≠ .ackExit p) :
    LegInv cfg q (out ++ [m]) back phy' own' other (.cmd m) where
  cmds := by
    rw [List.filter_append, h.cmds]
    rcases hleg with rfl | rfl <;> simp [Leg.cmds, hm]
  acks := by rw [h.acks]; rcases hleg with rfl | rfl <;> rfl
  reply p a := by
    rw [h.reply]
    rcases hleg with rfl | rfl <;> simp
  done p := by simp [hown p]
  busy := by simp [hs]
  chnl _ := ⟨i, hv, hl⟩
  hdr m' hm' := by
    rw [List.mem_singleton.1 hm', hl, hq]
    exact ⟨hc, rfl⟩
  ack _ h := by cases h

theorem setIdle (hleg : leg = .idle ∨ leg = .done)
    (hs : phy'.txState = .idle) (hown : ∀ p, own' ≠ .ackExit p) :
    LegInv cfg q out back phy' own' other .idle where
  cmds := by rw [h.cmds]; rcases hleg with rfl | rfl <;> rfl
  acks := by rw [h.acks]; rcases hleg with rfl | rfl <;> rfl
  reply p a := by
    rw [h.reply]
    rcases hleg with rfl | rfl <;> simp
  done p := by simp [hown p]
  busy := by simp [hs]
  chnl h := absurd rfl h
  hdr _ hm := by cases hm
  ack _ h := by cases h

end

theorem leg_eq_cmd (h : LegInv cfg q (m :: out) back phy own other leg) (hm : m.isAsync) : leg = .cmd m := by
  have := h.cmds
  rw [List.filter_cons_of_pos hm] at this
  cases leg <;> simp_all [Leg.cmds]

theorem rxCmd (h : LegInv cfg q (m :: out) back phy own other leg) (hm : m.isAsync)
    (ha : a.isAck) (hc : a.hdr.logicalChnl = m.hdr.logicalChnl) (hq : a.hdr.txSeq = m.hdr.txSeq) :
    LegInv cfg q out back phy own (.cmdExit cfg.selfCpu a) (.reply a) := by
  obtain rfl := h.leg_eq_cmd hm
  have hnil : out.filter (·.isAsync) = [] := by
    have hcmds := h.cmds
    rw [List.filter_cons_of_pos hm] at hcmds
    exact (List.cons.inj hcmds).2
  have hhdr := h.hdr m (by simp [Leg.msgs])
  refine ⟨by rw [hnil]; rfl, h.acks, fun p a' => ?_, fun p => ?_, ?_, fun _ => h.chnl (by simp), fun m' hm' => ?_,
    fun a' ha' => ?_⟩
  · simp [eq_comm]
  · simp [h.own_ne (by simp)]
  · simpa using h.busy
  · rw [List.mem_singleton.1 hm', hc, hq]; exact hhdr
  · cases ha'; exact ha

theorem sendAck {p : Nat} (h : LegInv cfg q out back phy own (.cmdExit p a) leg)
    (hother : ∀ p a, other' ≠ .cmdExit p a) :
    LegInv cfg q out (back ++ [a]) phy own other' (.ack a) := by
  obtain ⟨-, rfl⟩ := (h.reply p a).1 rfl
  have ha := h.ack a rfl
  refine ⟨h.cmds, ?_, fun p a' => ?_, fun p => ?_, ?_, fun _ => h.chnl (by simp), h.hdr, nofun⟩
  · rw [List.filter_append, h.acks]; simp [Leg.acks, ha]
  · simp [hother p a']
  · simp [h.own_ne (by simp)]
  · simpa using h.busy

theorem leg_eq_ack (h : LegInv cfg q out (a :: back) phy own other leg) (ha : a.isAck) : leg = .ack a := by
  have := h.acks
  rw [List.filter_cons_of_pos ha] at this
  cases leg <;> simp_all [Leg.acks]

theorem rxAck (h : LegInv cfg q out (a :: back) phy own other leg) (ha : a.isAck) :
    LegInv cfg q out back phy (.ackExit q) other .done := by
  obtain rfl := h.leg_eq_ack ha
  have hnil : back.filter (·.isAck) = [] := by
    have := h.acks
    rw [List.filter_cons_of_pos ha] at this
    simpa [Leg.acks] using this
  refine ⟨h.cmds, by rw [hnil]; rfl, fun p a' => ?_, fun p => ?_, ?_, fun _ => h.chnl (by simp),
    fun _ hm => (by cases hm), fun a' ha' => (by cases ha')⟩
  · simp [h.other_ne (by simp)]
  · simp [eq_comm]
  · simpa using h.busy

end LegInv

/-! ### What the functions of one CPU do to the exchange with `q` -/

section
variable {H : Type} (cfg : ChnlCfg) (send : SendFn H) {q i : Nat} {c c' : Chnl H} {m : MailboxData}

structure Chnl.SameTx (c c' : Chnl H) : Prop where
  txState : ∀ p, (c'.phyChnlXCb p).txState = (c.phyChnlXCb p).txState
  txSeq : ∀ p, (c'.phyChnlXCb p).txSeq = (c.phyChnlXCb p).txSeq
  txLogChnl : ∀ p, (c'.phyChnlXCb p).txLogChnl = (c.phyChnlXCb p).txLogChnl

theorem Chnl.SameTx.of_phy (h : c'.phyChnlXCb = c.phyChnlXCb) : c.SameTx c' :=
  ⟨fun _ => by rw [h], fun _ => by rw [h], fun _ => by rw [h]⟩

structure SideInv (q : Nat) (c : Chnl H) : Prop where
  init : c.mbChnnlInitOk = true
  exc : (c.phyChnlXCb q).exceptionMode = 0
  far : ∀ p i, p ≠ q → (c.logChnlCb p i).inUsed = false

theorem SideInv.eq_peer (h : SideInv q c) {p i : Nat} (hu : (c.logChnlCb p i).inUsed) : p = q := by
  by_cases hp : p = q
  · exact hp
  · rw [h.far p i hp] at hu; cases hu

structure Transmits (q i : Nat) (m : MailboxData) (c c' : Chnl H) : Prop where
  valid : cfg.Valid q i
  hw : c'.hw = (send c.hw cfg.selfCpu q m).2
  ctrl : m.hdr.ctrl = 0
  chnl : m.hdr.logicalChnl = logChnlOf cfg.selfCpu q i
  log : (c'.phyChnlXCb q).txLogChnl = logChnlOf cfg.selfCpu q i
  seq : (c'.phyChnlXCb q).txSeq = m.hdr.txSeq
  state : (c'.phyChnlXCb q).txState = if (send c.hw cfg.selfCpu q m).1 = .ok then .busy else .idle

inductive CallStep (q : Nat) (a : ApiCall) (c : Chnl H) (c' : Chnl H) : Prop
  | quiet (h : c.SameTx c') (hh : c'.hw = c.hw) : CallStep q a c c'
  | sync {l : BitVec 8} {m₀ : MailboxData} (ha : a = .ctrl l (.writeSync (some m₀))) (m : MailboxData)
      (hm : m.hdr.ctrl = chnlCtrlSyncTx) (h : c.SameTx c') (hh : c'.hw = (send c.hw cfg.selfCpu q m).2) :
      CallStep q a c c'
  | tx {i : Nat} {m : MailboxData} (hi : (c.phyChnlXCb q).txState = .idle)
      (h : Transmits cfg send q i m c c') : CallStep q a c c'

def ApiCall.towards (q : Nat) : ApiCall → Bool
  | .openChnl l _ _ => getDstCpuId l = q
  | .setExceptionMode _ _ => false
  | .close _ | .ctrl _ _ | .write _ _ => true

variable {cfg send}

theorem transmits_of_busy {c₀ c : Chnl H} (hv : cfg.Valid q i) (hb : (c.phyChnlXCb q).txState = .busy)
    (hh : c.hw = c₀.hw) (ht : TxOk cfg send c q i) :
    Transmits cfg send q i (txCmdOf cfg c q i) c₀ (c.transmitted cfg send q i) := by
  refine ⟨hv, ?_, ?_, ?_, ?_, ?_, ?_⟩
  · simp [Chnl.transmitted, Chnl.transmit, hh]
  · simp [txCmdOf]
  · simp [txCmdOf]
  · simp [Chnl.transmitted, Chnl.transmit]
  · simp [Chnl.transmitted, Chnl.transmit, txCmdOf]
  · rw [if_pos (hh ▸ ht)]; simpa [Chnl.transmitted, Chnl.transmit] using hb

theorem transmits_of_failed {c₀ c : Chnl H} (hv : cfg.Valid q i) (hh : c.hw = c₀.hw) (ht : ¬ TxOk cfg send c q i) :
    Transmits cfg send q i (txCmdOf cfg c q i) c₀ ((c.transmitFailed cfg send q i).setTxState q .idle) := by
  refine ⟨hv, ?_, ?_, ?_, ?_, ?_, ?_⟩
  · simp [Chnl.setTxState, Chnl.transmitFailed, Chnl.transmit, hh]
  · simp [txCmdOf]
  · simp [txCmdOf]
  · simp [Chnl.setTxState, Chnl.transmitFailed, Chnl.transmit]
  · simp [Chnl.setTxState, Chnl.transmitFailed, Chnl.transmit, txCmdOf]
  · rw [if_neg (hh ▸ ht)]; simp [Chnl.setTxState]

section
variable (h : SideInv q c)
include h

theorem SideInv.started (i : Nat) (m : MailboxData) :
    c.started q i m = (c.accepted q i m).setTxState q .busy := by
  simp [Chnl.started, h.exc]

theorem SideInv.write (l : BitVec 8) (m : MailboxData) : SideInv q (mbChnlWrite cfg send id l m c).2 ∧
      CallStep cfg send q (.write l m) c (mbChnlWrite cfg send id l m c).2 := by
  have hw := mbChnlWrite_step cfg send l m c
  generalize mbChnlWrite cfg send id l m c = r at hw
  cases hw with
  | refused => exact ⟨h, .quiet (.of_phy rfl) rfl⟩
  | queued hl hv hu =>
    obtain rfl := h.eq_peer hu
    refine ⟨⟨h.init, h.exc, fun p j hp => ?_⟩, .quiet (.of_phy rfl) rfl⟩
    simpa [Chnl.accepted, hp] using h.far p j hp
  | @sent p i hl hv hu hi hb ht =>
    obtain rfl := h.eq_peer hu
    rw [h.started] at ht ⊢
    refine ⟨⟨h.init, ?_, fun q j hq => ?_⟩, .tx hb (transmits_of_busy hv ?_ rfl ht)⟩
    · simpa [Chnl.transmitted, Chnl.transmit, Chnl.setTxState, Chnl.accepted] using h.exc
    · simpa [Chnl.transmitted, Chnl.transmit, Chnl.setTxState, Chnl.accepted, hq] using h.far q j hq
    · simp [Chnl.setTxState]
  | @failed p i hl hv hu hi hb ht =>
    obtain rfl := h.eq_peer hu
    rw [h.started] at ht ⊢
    refine ⟨⟨h.init, ?_, fun q j hq => ?_⟩, .tx hb (transmits_of_failed hv rfl ht)⟩
    · simpa [Chnl.transmitFailed, Chnl.transmit, Chnl.setTxState, Chnl.accepted] using h.exc
    · simpa [Chnl.transmitFailed, Chnl.transmit, Chnl.setTxState, Chnl.accepted, hq] using h.far q j hq

theorem SideInv.updLog (i : Nat) (f : MbLogChnlCb → MbLogChnlCb) : SideInv q (c.updLog q i f) := by
  refine ⟨h.init, h.exc, fun p j hp => ?_⟩
  simpa [hp] using h.far p j hp

theorem SideInv.note (e : Event) : SideInv q (c.note e) := ⟨h.init, h.exc, h.far⟩

theorem SideInv.openChnl {l : BitVec 8} (hl : getDstCpuId l = q) (param : Nat) (e : BkErr) :
    SideInv q (mbChnlOpen cfg send l param e c).2 ∧
      CallStep cfg send q (.openChnl l param e) c (mbChnlOpen cfg send l param e c).2 := by
  -- the layer is initialised, so the call does not start with `mb_chnl_init`
  have ho := mbChnlOpen_step cfg send l param e c
  generalize (mbChnlOpen cfg send l param e c).2 = t at ho
  have hbase : ∀ c₀ : Chnl H, c₀ = c ∨ c.Cleared c₀ → c₀ = c := by
    rintro c₀ (rfl | hc)
    · rfl
    · exact absurd (hc.init.symm.trans h.init) (by decide)
  cases ho with
  | refused h₀ => rw [hbase _ h₀]; exact ⟨h, .quiet (.of_phy rfl) rfl⟩
  | @opened c₀ p i param h₀ _ hl' hv =>
    obtain rfl := hbase _ h₀
    obtain rfl : p = q := by rw [← hl, hl', hv.dst]
    exact ⟨(h.updLog ..).note _, .quiet (.of_phy rfl) rfl⟩

theorem SideInv.close (l : BitVec 8) :
    SideInv q (mbChnlClose cfg l c).2 ∧ CallStep cfg send q (.close l) c (mbChnlClose cfg l c).2 := by
  have ho := mbChnlClose_step cfg l c
  generalize (mbChnlClose cfg l c).2 = t at ho
  cases ho with
  | refused => exact ⟨h, .quiet (.of_phy rfl) rfl⟩
  | closed hu =>
    obtain rfl := h.eq_peer hu
    exact ⟨(h.updLog ..).note _, .quiet (.of_phy rfl) rfl⟩

theorem SideInv.ctrl (l : BitVec 8) (cmd : CtrlCmd) : SideInv q (mbChnlCtrl cfg send l cmd c).2 ∧
      CallStep cfg send q (.ctrl l cmd) c (mbChnlCtrl cfg send l cmd c).2 := by
  have ho := mbChnlCtrl_step cfg send l cmd c
  generalize (mbChnlCtrl cfg send l cmd c).2 = t at ho
  cases ho with
  | refused => exact ⟨h, .quiet (.of_phy rfl) rfl⟩
  | status => exact ⟨⟨h.init, h.exc, h.far⟩, .quiet (.of_phy rfl) rfl⟩
  | @isr p i f hf hu =>
    obtain rfl := h.eq_peer hu
    exact ⟨h.updLog .., .quiet (.of_phy rfl) rfl⟩
  | sync hc m hm hu =>
    obtain rfl := h.eq_peer hu
    exact ⟨⟨h.init, h.exc, h.far⟩, .sync (by rw [hc]) m hm (.of_phy rfl) rfl⟩

end

variable (cfg send) in
theorem SideInv.call (h : SideInv q c) {a : ApiCall} (ha : a.towards q) :
    SideInv q (a.run cfg send id c).2 ∧ CallStep cfg send q a c (a.run cfg send id c).2 := by
  cases a with
  | write l m => exact h.write l m
  | openChnl l param e => exact h.openChnl (by simpa [ApiCall.towards] using ha) param e
  | close l => exact h.close l
  | ctrl l cmd => exact h.ctrl l cmd
  | setExceptionMode => cases ha

variable (cfg send) in
theorem SideInv.ackExit (h : SideInv q c) {p : Nat} (hp : cfg.Peer p) :
    SideInv q (mbPhyChnlRxAckIsrExit cfg send id p c) ∧ ((mbPhyChnlRxAckIsrExit cfg send id p c).hw = c.hw ∨
        ∃ m, (mbPhyChnlRxAckIsrExit cfg send id p c).hw = (send c.hw cfg.selfCpu p m).2) := by
  have hw := mbPhyChnlRxAckIsrExit_step cfg send hp c
  generalize mbPhyChnlRxAckIsrExit cfg send id p c = t at hw
  cases hw with
  | none =>
    refine ⟨⟨h.init, ?_, h.far⟩, .inl rfl⟩
    rcases eq_or_ne q p with rfl | hq
    · simpa [Chnl.setTxState] using h.exc
    · simpa [Chnl.setTxState, hq] using h.exc
  | @sent i hv hl ht =>
    refine ⟨⟨h.init, ?_, fun r j hr => ?_⟩, .inr ⟨_, rfl⟩⟩
    · rcases eq_or_ne q p with rfl | hq
      · simpa [Chnl.transmitted, Chnl.transmit] using h.exc
      · simpa [Chnl.transmitted, Chnl.transmit, hq] using h.exc
    · have := h.far r j hr
      by_cases hri : r = p ∧ j = i
      · obtain ⟨rfl, rfl⟩ := hri; simpa [Chnl.transmitted, Chnl.transmit] using this
      · simpa [Chnl.transmitted, Chnl.transmit, hri] using this
  | @failed i hv hl ht =>
    refine ⟨⟨h.init, ?_, fun r j hr => ?_⟩, .inr ⟨_, rfl⟩⟩
    · rcases eq_or_ne q p with rfl | hq
      · simpa [Chnl.setTxState, Chnl.transmitFailed, Chnl.transmit] using h.exc
      · simpa [Chnl.setTxState, Chnl.transmitFailed, Chnl.transmit, hq] using h.exc
    · have := h.far r j hr
      by_cases hri : r = p ∧ j = i
      · obtain ⟨rfl, rfl⟩ := hri; simpa [Chnl.setTxState, Chnl.transmitFailed, Chnl.transmit] using this
      · simpa [Chnl.setTxState, Chnl.transmitFailed, Chnl.transmit, hri] using this

variable (cfg send) in
theorem ackExit_transmits (hp : cfg.Peer q) (hb : (c.phyChnlXCb q).txState = .busy) :
    (((mbPhyChnlRxAckIsrExit cfg send id q c).phyChnlXCb q).txState = .idle ∧
        (mbPhyChnlRxAckIsrExit cfg send id q c).hw = c.hw) ∨
      ∃ i m, Transmits cfg send q i m c (mbPhyChnlRxAckIsrExit cfg send id q c) := by
  have hw := mbPhyChnlRxAckIsrExit_step cfg send hp c
  generalize mbPhyChnlRxAckIsrExit cfg send id q c = t at hw
  cases hw with
  | none => exact .inl ⟨by simp [Chnl.setTxState], rfl⟩
  | @sent i hv hl ht => exact .inr ⟨i, _, transmits_of_busy hv hb rfl ht⟩
  | @failed i hv hl ht => exact .inr ⟨i, _, transmits_of_failed hv rfl ht⟩

variable (cfg send) in
theorem SideInv.cmdExit (h : SideInv q c) (p : Nat) (a : MailboxData) :
    SideInv q (mbPhyChnlRxCmdIsrExit cfg send p a c) ∧ c.SameTx (mbPhyChnlRxCmdIsrExit cfg send p a c) ∧
      (mbPhyChnlRxCmdIsrExit cfg send p a c).hw = (send c.hw cfg.selfCpu p a).2 := by
  unfold mbPhyChnlRxCmdIsrExit
  dsimp only
  split
  · refine ⟨⟨h.init, ?_, h.far⟩, ⟨fun r => ?_, fun r => ?_, fun r => ?_⟩, rfl⟩
    · rcases eq_or_ne q p with rfl | hq
      · simpa using h.exc
      · simpa [hq] using h.exc
    all_goals by_cases hr : r = p <;> simp [hr]
  · exact ⟨⟨h.init, h.exc, h.far⟩, .of_phy rfl, rfl⟩

structure RxFrame (c c' : Chnl H) : Prop where
  same : c.SameTx c'
  exc : ∀ p, (c'.phyChnlXCb p).exceptionMode = (c.phyChnlXCb p).exceptionMode
  log : c'.logChnlCb = c.logChnlCb
  init : c'.mbChnnlInitOk = c.mbChnnlInitOk
  hw : c'.hw = c.hw

theorem RxFrame.of_phy (hp : c'.phyChnlXCb = c.phyChnlXCb) (hl : c'.logChnlCb = c.logChnlCb)
    (hi : c'.mbChnnlInitOk = c.mbChnnlInitOk) (hh : c'.hw = c.hw) : RxFrame c c' :=
  ⟨.of_phy hp, fun _ => by rw [hp], hl, hi, hh⟩

theorem RxFrame.fault (c : Chnl H) (p : Nat) (n : MbPhyChnlCb → BitVec 32) :
    RxFrame c (c.updPhy p fun d => { d with rxFaultCnt := n d }) := by
  refine ⟨⟨fun r => ?_, fun r => ?_, fun r => ?_⟩, fun r => ?_, rfl, rfl, rfl⟩ <;>
    by_cases hr : r = p <;> simp [hr]

theorem mbPhyChnlRxIsr_frame (cfg : ChnlCfg) (m rsp : MailboxData) (c : Chnl H) :
    RxFrame c (mbPhyChnlRxIsr cfg m rsp c).2 := by
  unfold mbPhyChnlRxIsr
  split
  · have hr := mbPhyChnlRxAckIsr_step cfg m c
    generalize mbPhyChnlRxAckIsr cfg m c = r at hr
    cases hr with
    | ignored => exact .of_phy rfl rfl rfl rfl
    | fault => dsimp only; exact .fault c _ _
    | matched | matchedNull => exact .of_phy rfl rfl rfl rfl
  · have hr := mbPhyChnlRxCmdIsr_step cfg m rsp c
    generalize mbPhyChnlRxCmdIsr cfg m rsp c = r at hr
    cases hr with
    | ignored => exact .of_phy rfl rfl rfl rfl
    | fault => dsimp only; exact .fault c _ _
    | called | noTarget => exact .of_phy rfl rfl rfl rfl

theorem SideInv.rx (h : SideInv q c) (hf : RxFrame c c') : SideInv q c' :=
  ⟨hf.init.trans h.init, (hf.exc q).trans h.exc, fun p i hp => by rw [hf.log]; exact h.far p i hp⟩

theorem mbPhyChnlRxIsr_peer {m rsp : MailboxData} {p : Nat}
    (h : (mbPhyChnlRxIsr cfg m rsp c).1 = .ackExit p) : cfg.Peer p := by
  unfold mbPhyChnlRxIsr at h
  split at h
  · have hr := mbPhyChnlRxAckIsr_step cfg m c
    generalize mbPhyChnlRxAckIsr cfg m c = r at hr h
    cases hr with
    | ignored | fault => cases h
    | matched hm | matchedNull hm => cases h; exact ⟨hm.valid.ne, hm.valid.lt⟩
  · have hr := mbPhyChnlRxCmdIsr_step cfg m rsp c
    generalize mbPhyChnlRxCmdIsr cfg m rsp c = r at hr h
    cases hr with
    | ignored | fault => cases h
    | called _ hi | noTarget hi => exact absurd h (hi p)

theorem mbPhyChnlRxIsr_ack {a : MailboxData} (rsp : MailboxData) (ha : a.isAck)
    (hm : AckMatches cfg a c q i) : (mbPhyChnlRxIsr cfg a rsp c).1 = .ackExit q := by
  have h1 : ¬ phyChnlNum ≤ q := Nat.not_le.2 hm.valid.lt
  have h2 : ¬ cfg.logChnlNum q ≤ i := Nat.not_le.2 hm.valid.idx
  have hbox : a.hdr.ctrl &&& chnlCtrlAckBox ≠ 0 := by simpa [MailboxData.isAck] using ha
  unfold mbPhyChnlRxIsr
  rw [if_pos hbox]
  simp only [mbPhyChnlRxAckIsr, hm.chnl, hm.valid.src, hm.valid.dst, hm.valid.id, hm.valid.ne, h1, h2,
    hm.log, hm.seq, ne_eq, not_true_eq_false, or_self, ↓reduceIte]
  split <;> rfl

theorem mbPhyChnlRxIsr_async {m : MailboxData} (rsp : MailboxData) (hm : m.isAsync)
    (hp : cfg.Peer q) (hi : i < cfg.logChnlNum q) (hl : m.hdr.logicalChnl = logChnlOf q cfg.selfCpu i) :
    ∃ a, (mbPhyChnlRxIsr cfg m rsp c).1 = .cmdExit q a ∧ a.isAck ∧
      a.hdr.logicalChnl = m.hdr.logicalChnl ∧ a.hdr.txSeq = m.hdr.txSeq ∧ a.hdr.cmd = m.hdr.cmd := by
  have hs4 : cfg.selfCpu < 4 := by have := cfg.selfCpu_lt; simp [phyChnlNum] at this; omega
  have hp4 : q < 4 := by have := hp.2; simp [phyChnlNum] at this; omega
  have hi16 : i < 16 := Nat.lt_of_lt_of_le hi (cfg.logChnlNum_le q)
  have h1 : ¬ phyChnlNum ≤ q := Nat.not_le.2 hp.2
  have h2 : ¬ cfg.logChnlNum q ≤ i := Nat.not_le.2 hi
  simp only [MailboxData.isAsync, MailboxData.isAck, ne_eq, Bool.and_eq_true, Bool.not_eq_true',
    decide_eq_false_iff_not, not_not] at hm
  have hack : ∀ x : BitVec 4, (x ||| chnlCtrlAckBox) &&& chnlCtrlAckBox ≠ 0 := by decide
  unfold mbPhyChnlRxIsr
  rw [if_neg (by simp [hm.1])]
  simp only [mbPhyChnlRxCmdIsr, hl, getSrcCpuId_logChnlOf hp4 hs4 hi16, getDstCpuId_logChnlOf hp4 hs4 hi16,
    getLogChnlId_logChnlOf hp4 hs4 hi16, hp.1, h1, h2, ne_eq, not_true_eq_false, ↓reduceIte]
  by_cases hr : (c.logChnlCb q i).rxIsr.isSome
  · simp only [hr, ↓reduceIte, hm.2, not_true_eq_false]
    exact ⟨_, rfl, by simpa [MailboxData.isAck] using hack _, by simp [hl], by simp, by simp⟩
  · simp only [hr, Bool.false_eq_true, ↓reduceIte, hm.2, not_true_eq_false]
    exact ⟨_, rfl, by simpa [MailboxData.isAck] using hack _, by simp, by simp, by simp⟩

theorem mbPhyChnlRxIsr_sync {m : MailboxData} (rsp : MailboxData) (ha : m.isAck = false)
    (hm : m.isAsync = false) : (mbPhyChnlRxIsr cfg m rsp c).1 = .idle := by
  have hbox : ¬ m.hdr.ctrl &&& chnlCtrlAckBox ≠ 0 := by simpa [MailboxData.isAck] using ha
  have hsync : m.hdr.ctrl &&& chnlCtrlSyncTx ≠ 0 := by simpa [MailboxData.isAsync, ha] using hm
  unfold mbPhyChnlRxIsr
  rw [if_neg hbox]
  unfold mbPhyChnlRxCmdIsr
  dsimp only
  split
  · rfl
  split
  · rfl
  split
  · rfl
  split
  · rfl
  by_cases hr : (c.logChnlCb (getSrcCpuId m.hdr.logicalChnl) (getLogChnlId m.hdr.logicalChnl)).rxIsr.isSome
  · simp only [hr, ↓reduceIte, if_pos hsync]
  · simp only [hr, Bool.false_eq_true, ↓reduceIte, if_pos hsync]

end
end Bk7258

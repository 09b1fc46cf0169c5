import Bk7258.Mailbox.Channel

/-!
# What the channel functions do

One lemma per function of `Channel.lean`: its result as a case distinction on the state before. The common part of the
two ways a command goes out is `Chnl.transmitted` / `Chnl.transmitFailed`.
-/

namespace Bk7258

namespace Chnl
variable {H : Type} (s : Chnl H) (p i q j : Nat)

section
variable (f : MbPhyChnlCb → MbPhyChnlCb)
include f

@[simp] theorem updPhy_phy :
    (s.updPhy p f).phyChnlXCb q = if q = p then f (s.phyChnlXCb p) else s.phyChnlXCb q := by
  simp [updPhy, Function.update_apply]

@[simp] theorem updPhy_log : (s.updPhy p f).logChnlCb = s.logChnlCb := rfl
@[simp] theorem updPhy_hw : (s.updPhy p f).hw = s.hw := rfl
@[simp] theorem updPhy_trace : (s.updPhy p f).trace = s.trace := rfl

end

section
variable (f : MbLogChnlCb → MbLogChnlCb)
include f

@[simp] theorem updLog_log :
    (s.updLog p i f).logChnlCb q j = if q = p ∧ j = i then f (s.logChnlCb p i) else s.logChnlCb q j := by
  by_cases hq : q = p
  · subst hq; by_cases hj : j = i <;> simp [updLog, hj]
  · simp [updLog, hq]

@[simp] theorem updLog_phy : (s.updLog p i f).phyChnlXCb = s.phyChnlXCb := rfl
@[simp] theorem updLog_hw : (s.updLog p i f).hw = s.hw := rfl
@[simp] theorem updLog_trace : (s.updLog p i f).trace = s.trace := rfl

end

@[simp] theorem setHw_phy (h : H) : (s.setHw h).phyChnlXCb = s.phyChnlXCb := rfl
@[simp] theorem setHw_log (h : H) : (s.setHw h).logChnlCb = s.logChnlCb := rfl
@[simp] theorem setHw_hw (h : H) : (s.setHw h).hw = h := rfl
@[simp] theorem setHw_trace (h : H) : (s.setHw h).trace = s.trace := rfl

@[simp] theorem note_phy (e : Event) : (s.note e).phyChnlXCb = s.phyChnlXCb := rfl
@[simp] theorem note_log (e : Event) : (s.note e).logChnlCb = s.logChnlCb := rfl
@[simp] theorem note_hw (e : Event) : (s.note e).hw = s.hw := rfl
@[simp] theorem note_trace (e : Event) : (s.note e).trace = s.trace ++ [e] := rfl

end Chnl

structure ChnlCfg.Valid (cfg : ChnlCfg) (p i : Nat) : Prop where
  ne : cfg.selfCpu ≠ p
  lt : p < phyChnlNum
  idx : i < cfg.logChnlNum p

namespace ChnlCfg.Valid
variable {cfg : ChnlCfg} {p i : Nat}

theorem fits (h : cfg.Valid p i) : cfg.selfCpu < 4 ∧ p < 4 ∧ i < 16 :=
  ⟨Nat.lt_of_lt_of_le cfg.selfCpu_lt (by decide), Nat.lt_of_lt_of_le h.lt (by decide),
    Nat.lt_of_lt_of_le h.idx (cfg.logChnlNum_le p)⟩

theorem src (h : cfg.Valid p i) : getSrcCpuId (logChnlOf cfg.selfCpu p i) = cfg.selfCpu :=
  getSrcCpuId_logChnlOf h.fits.1 h.fits.2.1 h.fits.2.2

theorem dst (h : cfg.Valid p i) : getDstCpuId (logChnlOf cfg.selfCpu p i) = p :=
  getDstCpuId_logChnlOf h.fits.1 h.fits.2.1 h.fits.2.2

theorem id (h : cfg.Valid p i) : getLogChnlId (logChnlOf cfg.selfCpu p i) = i :=
  getLogChnlId_logChnlOf h.fits.1 h.fits.2.1 h.fits.2.2

theorem inj {j : Nat} (hi : cfg.Valid p i) (hj : cfg.Valid p j)
    (h : logChnlOf cfg.selfCpu p i = logChnlOf cfg.selfCpu p j) : i = j := by
  rw [← hi.id, h, hj.id]

end ChnlCfg.Valid

section
variable {H : Type} (cfg : ChnlCfg) (send : SendFn H)

def txCmdOf (s : Chnl H) (p i : Nat) : MailboxData :=
  (s.logChnlCb p i).chnnlTxBuff.setHdr
    { (s.logChnlCb p i).chnnlTxBuff.hdr with
      logicalChnl := logChnlOf cfg.selfCpu p i, txSeq := (s.phyChnlXCb p).txSeq + 1, ctrl := 0, state := 0 }

theorem txCmdOf_payload (s : Chnl H) (p i : Nat) :
    (txCmdOf cfg s p i).payload = (s.logChnlCb p i).chnnlTxBuff.payload := by
  simp [txCmdOf, MailboxData.payload]

def TxOk (s : Chnl H) (p i : Nat) : Prop := (send s.hw cfg.selfCpu p (txCmdOf cfg s p i)).1 = .ok

namespace Chnl

def transmit (s : Chnl H) (p i : Nat) : Chnl H :=
  { (s.updPhy p fun c =>
      { c with txSeq := (s.phyChnlXCb p).txSeq + 1, txLogChnl := logChnlOf cfg.selfCpu p i,
               txHdrCmd := (txCmdOf cfg s p i).hdr.cmd }).updLog p i fun c =>
      { c with chnnlTxBuff := txCmdOf cfg s p i } with
    hw := (send s.hw cfg.selfCpu p (txCmdOf cfg s p i)).2 }

def transmitted (s : Chnl H) (p i : Nat) : Chnl H :=
  ((s.transmit cfg send p i).updLog p i fun c => { c with txState := .idle }).note
    (.sent p i (txCmdOf cfg s p i))

def transmitFailed (s : Chnl H) (p i : Nat) : Chnl H :=
  ((s.transmit cfg send p i).updPhy p fun c =>
    { c with txFaultCnt := (c.txFaultCnt + 1) ||| 0x40000000#32 }).note (.sendFailed p i (txCmdOf cfg s p i))

def accepted (s : Chnl H) (p i : Nat) (m : MailboxData) : Chnl H :=
  (s.updLog p i fun c => { c with chnnlTxBuff := m, txState := .busy }).note (.written p i m)

def setTxState (s : Chnl H) (p : Nat) (t : TxState) : Chnl H := s.updPhy p fun c => { c with txState := t }

end Chnl

variable {cfg send}

theorem mbPhyChnlTxCmd_eq {p i : Nat} (hv : cfg.Valid p i) (f : Chnl H → Chnl H) (s : Chnl H) :
    mbPhyChnlTxCmd cfg send f (logChnlOf cfg.selfCpu p i) s =
      if (send s.hw cfg.selfCpu p (txCmdOf cfg s p i)).1 = .ok then
        (0, if (s.logChnlCb p i).txIsr.isSome then f (s.transmitted cfg send p i) else s.transmitted cfg send p i)
      else (2, s.transmitFailed cfg send p i) := by
  have h1 : ¬ phyChnlNum ≤ p := Nat.not_le.2 hv.lt
  have h2 : ¬ cfg.logChnlNum p ≤ i := Nat.not_le.2 hv.idx
  simp only [mbPhyChnlTxCmd, hv.src, hv.dst, hv.id, hv.ne, h1, h2, ne_eq, not_true_eq_false, ↓reduceIte]
  split
  · rename_i hf
    rw [if_neg (show ¬ (send s.hw cfg.selfCpu p (txCmdOf cfg s p i)).1 = .ok from hf)]
    rfl
  · rename_i hf
    rw [if_pos (show (send s.hw cfg.selfCpu p (txCmdOf cfg s p i)).1 = .ok from not_not.1 hf)]
    simp only [Chnl.note_log, Chnl.updLog_log, Chnl.updPhy_log, and_self, ↓reduceIte]
    split <;> rfl

variable (cfg send)

/-- The result `x` is `y`, up to a call `f` of `tx_isr` at its end if it is `ok`. -/
def TxIsrAfter {α : Type} (f : Chnl H → Chnl H) (ok : α) (x y : α × Chnl H) : Prop :=
  x.1 = y.1 ∧ (x.2 = y.2 ∨ x.1 = ok ∧ x.2 = f y.2)

section
variable {α : Type} {f : Chnl H → Chnl H} {ok : α}

theorem TxIsrAfter.refl (x : α × Chnl H) : TxIsrAfter f ok x x := ⟨rfl, .inl rfl⟩

theorem TxIsrAfter.ite {c : Prop} [Decidable c] {x y x' y' : α × Chnl H} (h : TxIsrAfter f ok x y)
    (h' : TxIsrAfter f ok x' y') : TxIsrAfter f ok (if c then x else x') (if c then y else y') := by
  split
  · exact h
  · exact h'

end

theorem mbPhyChnlTxCmd_txIsr (f : Chnl H → Chnl H) (l : BitVec 8) (s : Chnl H) :
    TxIsrAfter f 0 (mbPhyChnlTxCmd cfg send f l s) (mbPhyChnlTxCmd cfg send id l s) := by
  unfold mbPhyChnlTxCmd
  refine .ite (.refl _) (.ite (.refl _) (.ite (.refl _) (.ite (.refl _) ?_)))
  exact .ite (.refl _) (.ite ⟨rfl, .inr ⟨rfl, rfl⟩⟩ (.refl _))

theorem mbPhyChnlStartTx_txIsr (f : Chnl H → Chnl H) (l : BitVec 8) (s : Chnl H) :
    mbPhyChnlStartTx cfg send f l s = mbPhyChnlStartTx cfg send id l s ∨
      mbPhyChnlStartTx cfg send f l s = f (mbPhyChnlStartTx cfg send id l s) := by
  unfold mbPhyChnlStartTx
  dsimp only
  split
  · exact .inl rfl
  · split
    · exact .inl rfl
    · split
      · obtain ⟨h1, h2 | ⟨h0, h2⟩⟩ := mbPhyChnlTxCmd_txIsr cfg send f l
          (if (s.phyChnlXCb (getDstCpuId l)).exceptionMode = 0 then
            s.updPhy (getDstCpuId l) fun c => { c with txState := .busy } else s)
        · rw [h1, h2]; exact .inl rfl
        · rw [h1] at h0
          rw [h1, h2, h0]; exact .inr rfl
      · exact .inl rfl

theorem mbChnlWrite_txIsr (f : Chnl H → Chnl H) (l : BitVec 8) (m : MailboxData) (s : Chnl H) :
    TxIsrAfter f .ok (mbChnlWrite cfg send f l m s) (mbChnlWrite cfg send id l m s) := by
  unfold mbChnlWrite
  refine .ite (.refl _) (.ite (.refl _) (.ite (.refl _) (.ite (.refl _) (.ite (.refl _) (.ite (.refl _) ?_)))))
  exact ⟨rfl, (mbPhyChnlStartTx_txIsr cfg send f l _).imp_right fun h => ⟨rfl, h⟩⟩

theorem mbPhyChnlRxAckIsrExit_txIsr (f : Chnl H → Chnl H) (p : Nat) (s : Chnl H) :
    mbPhyChnlRxAckIsrExit cfg send f p s = mbPhyChnlRxAckIsrExit cfg send id p s ∨
      mbPhyChnlRxAckIsrExit cfg send f p s = f (mbPhyChnlRxAckIsrExit cfg send id p s) := by
  unfold mbPhyChnlRxAckIsrExit
  split
  · exact .inl rfl
  · rename_i i _
    dsimp only
    obtain ⟨h1, h2 | ⟨h0, h2⟩⟩ := mbPhyChnlTxCmd_txIsr cfg send f (logChnlOf cfg.selfCpu p i) s
    · rw [h1, h2]; exact .inl rfl
    · rw [h1] at h0
      rw [h1, h2, h0]; exact .inr rfl

def calls (cs : List ApiCall) (s : Chnl H) : Chnl H := cs.foldl (fun s c => (c.run cfg send id s).2) s

theorem calls_append (cs ds : List ApiCall) (s : Chnl H) :
    calls cfg send (cs ++ ds) s = calls cfg send ds (calls cfg send cs s) := List.foldl_append

theorem ApiCall.run_txIsr (f : Chnl H → Chnl H) (c : ApiCall) (s : Chnl H) :
    (c.run cfg send f s).2 = (c.run cfg send id s).2 ∨ (c.run cfg send f s).2 = f (c.run cfg send id s).2 := by
  cases c with
  | write l m => exact (mbChnlWrite_txIsr cfg send f l m s).2.imp_right And.right
  | openChnl | close | ctrl | setExceptionMode => exact .inl rfl

section
variable (p : ApiCall → Bool) (scr : Script) (hp : scr.all p)
include p scr hp

theorem Script.run_eq_calls (s : Chnl H) :
    ∃ cs, (∀ c ∈ cs, p c = true) ∧ scr.run cfg send s = calls cfg send cs s := by
  induction scr generalizing s with
  | done => exact ⟨[], by simp, rfl⟩
  | call c isr next ihisr ihnext =>
    simp only [Script.all, Bool.and_eq_true] at hp
    obtain ⟨⟨hc, hisr⟩, hnext⟩ := hp
    simp only [Script.run]
    obtain ⟨es, hes, he⟩ := ihnext hnext (c.run cfg send (isr.run cfg send) s).2
    rcases ApiCall.run_txIsr cfg send (isr.run cfg send) c s with h | h
    · refine ⟨c :: es, by simpa [hc] using hes, ?_⟩
      rw [he, h]; rfl
    · obtain ⟨ds, hds, hd⟩ := ihisr hisr (c.run cfg send id s).2
      refine ⟨c :: (ds ++ es), ?_, ?_⟩
      · intro d hd'
        simp only [List.mem_cons, List.mem_append] at hd'
        rcases hd' with rfl | hd' | hd'
        exacts [hc, hds d hd', hes d hd']
      · rw [he, h, hd, ← calls_append]; rfl

theorem ApiCall.run_script (c : ApiCall) (s : Chnl H) :
    ∃ cs, (∀ d ∈ cs, p d = true) ∧ (c.run cfg send (scr.run cfg send) s).2 = calls cfg send (c :: cs) s := by
  rcases ApiCall.run_txIsr cfg send (scr.run cfg send) c s with h | h
  · exact ⟨[], by simp, h⟩
  · obtain ⟨cs, hcs, hc⟩ := Script.run_eq_calls cfg send p scr hp (c.run cfg send id s).2
    exact ⟨cs, hcs, by rw [h, hc]; rfl⟩

theorem mbPhyChnlRxAckIsrExit_script (q : Nat) (s : Chnl H) :
    ∃ cs, (∀ d ∈ cs, p d = true) ∧ mbPhyChnlRxAckIsrExit cfg send (scr.run cfg send) q s =
      calls cfg send cs (mbPhyChnlRxAckIsrExit cfg send id q s) := by
  rcases mbPhyChnlRxAckIsrExit_txIsr cfg send (scr.run cfg send) q s with h | h
  · exact ⟨[], by simp, h⟩
  · obtain ⟨cs, hcs, hc⟩ := Script.run_eq_calls cfg send p scr hp (mbPhyChnlRxAckIsrExit cfg send id q s)
    exact ⟨cs, hcs, by rw [h, hc]⟩

end

/-! ### Case analysis of one step -/

namespace Chnl

def started (s : Chnl H) (p i : Nat) (m : MailboxData) : Chnl H :=
  if (s.phyChnlXCb p).exceptionMode = 0 then (s.accepted p i m).setTxState p .busy else s.accepted p i m

theorem started_trace (s : Chnl H) (p i : Nat) (m : MailboxData) :
    (s.started p i m).trace = s.trace ++ [.written p i m] := by
  unfold started; split <;> rfl

theorem started_hw (s : Chnl H) (p i : Nat) (m : MailboxData) : (s.started p i m).hw = s.hw := by
  unfold started; split <;> rfl

end Chnl

inductive WriteStep (l : BitVec 8) (m : MailboxData) (s : Chnl H) : BkErr × Chnl H → Prop
  | refused {e : BkErr} (he : e ≠ .ok) : WriteStep l m s (e, s)
  | queued {p i : Nat} (hl : l = logChnlOf cfg.selfCpu p i) (hv : cfg.Valid p i)
      (hu : (s.logChnlCb p i).inUsed = true) (hi : (s.logChnlCb p i).txState = .idle)
      (hb : (s.phyChnlXCb p).txState = .busy) : WriteStep l m s (.ok, s.accepted p i m)
  | sent {p i : Nat} (hl : l = logChnlOf cfg.selfCpu p i) (hv : cfg.Valid p i)
      (hu : (s.logChnlCb p i).inUsed = true) (hi : (s.logChnlCb p i).txState = .idle)
      (hb : (s.phyChnlXCb p).txState = .idle) (ht : TxOk cfg send (s.started p i m) p i) :
      WriteStep l m s (.ok, (s.started p i m).transmitted cfg send p i)
  | failed {p i : Nat} (hl : l = logChnlOf cfg.selfCpu p i) (hv : cfg.Valid p i)
      (hu : (s.logChnlCb p i).inUsed = true) (hi : (s.logChnlCb p i).txState = .idle)
      (hb : (s.phyChnlXCb p).txState = .idle) (ht : ¬ TxOk cfg send (s.started p i m) p i) :
      WriteStep l m s (.ok, ((s.started p i m).transmitFailed cfg send p i).setTxState p .idle)

theorem mbPhyChnlStartTx_idle {p i : Nat} (hv : cfg.Valid p i) (m : MailboxData) (s : Chnl H)
    (hb : (s.phyChnlXCb p).txState = .idle) :
    mbPhyChnlStartTx cfg send id (logChnlOf cfg.selfCpu p i) (s.accepted p i m) =
      if (send (s.started p i m).hw cfg.selfCpu p (txCmdOf cfg (s.started p i m) p i)).1 = .ok then
        (s.started p i m).transmitted cfg send p i
      else ((s.started p i m).transmitFailed cfg send p i).setTxState p .idle := by
  have h1 : ¬ phyChnlNum ≤ p := Nat.not_le.2 hv.lt
  simp only [mbPhyChnlStartTx, hv.dst, hv.ne, h1, ↓reduceIte, Chnl.accepted, Chnl.note_phy,
    Chnl.updLog_phy, hb]
  rw [show (if (s.phyChnlXCb p).exceptionMode = 0 then
      ((s.updLog p i fun c => { c with chnnlTxBuff := m, txState := .busy }).note
        (.written p i m)).updPhy p fun c => { c with txState := .busy }
      else (s.updLog p i fun c => { c with chnnlTxBuff := m, txState := .busy }).note (.written p i m)) =
      s.started p i m from rfl]
  rw [mbPhyChnlTxCmd_eq hv]
  split <;> simp [Chnl.setTxState]

theorem mbChnlWrite_step (l : BitVec 8) (m : MailboxData) (s : Chnl H) :
    WriteStep cfg send l m s (mbChnlWrite cfg send id l m s) := by
  unfold mbChnlWrite
  dsimp only
  split
  · exact .refused (by decide)
  rename_i h1
  split
  · exact .refused (by decide)
  rename_i h2
  split
  · exact .refused (by decide)
  rename_i h3
  split
  · exact .refused (by decide)
  rename_i h4
  split
  · exact .refused (by decide)
  rename_i h5
  split
  · exact .refused (by decide)
  rename_i h6
  simp only [ne_eq, not_not] at h1 h6
  simp only [Bool.not_eq_true', Bool.not_eq_false] at h5
  have hv : cfg.Valid (getDstCpuId l) (getLogChnlId l) := ⟨h2, Nat.not_le.1 h3, Nat.not_le.1 h4⟩
  have hl : l = logChnlOf cfg.selfCpu (getDstCpuId l) (getLogChnlId l) := by
    rw [h1, logChnlOf_fields_eq]
  cases hb : (s.phyChnlXCb (getDstCpuId l)).txState with
  | busy =>
    have hst : mbPhyChnlStartTx cfg send id l (s.accepted (getDstCpuId l) (getLogChnlId l) m) =
        s.accepted (getDstCpuId l) (getLogChnlId l) m := by
      simp [mbPhyChnlStartTx, Chnl.accepted, hb]
    show WriteStep cfg send l m s (.ok, mbPhyChnlStartTx cfg send id l (s.accepted _ _ m))
    rw [hst]
    exact .queued hl hv h5 h6 hb
  | idle =>
    have hst := mbPhyChnlStartTx_idle cfg send hv m s hb
    rw [← hl] at hst
    show WriteStep cfg send l m s (.ok, mbPhyChnlStartTx cfg send id l (s.accepted _ _ m))
    rw [hst]
    split
    · exact .sent hl hv h5 h6 hb ‹_›
    · exact .failed hl hv h5 h6 hb ‹_›

theorem searchBusy_none {log : Nat → MbLogChnlCb} {n : Nat} (h : searchBusy log n = none) :
    ∀ i, i < n → (log i).txState = .idle := by
  intro i hi
  have := List.find?_eq_none.1 h i (List.mem_range.2 hi)
  simpa using this

theorem searchBusy_some {log : Nat → MbLogChnlCb} {n i : Nat} (h : searchBusy log n = some i) :
    i < n ∧ (log i).txState = .busy := by
  have hm := List.mem_range.1 (List.mem_of_find?_eq_some h)
  have hb := List.find?_some h
  refine ⟨hm, ?_⟩
  cases hs : (log i).txState with
  | busy => rfl
  | idle => simp [hs] at hb

inductive AckExitStep (p : Nat) (s : Chnl H) : Chnl H → Prop
  | none (hi : ∀ i, i < cfg.logChnlNum p → (s.logChnlCb p i).txState = .idle) :
      AckExitStep p s (s.setTxState p .idle)
  | sent {i : Nat} (hv : cfg.Valid p i) (hb : (s.logChnlCb p i).txState = .busy) (ht : TxOk cfg send s p i) :
      AckExitStep p s (s.transmitted cfg send p i)
  | failed {i : Nat} (hv : cfg.Valid p i) (hb : (s.logChnlCb p i).txState = .busy)
      (ht : ¬ TxOk cfg send s p i) (hs : searchBusy (s.logChnlCb p) (cfg.logChnlNum p) = some i) :
      AckExitStep p s ((s.transmitFailed cfg send p i).setTxState p .idle)

def ChnlCfg.Peer (p : Nat) : Prop := cfg.selfCpu ≠ p ∧ p < phyChnlNum

theorem mbPhyChnlRxAckIsrExit_step {p : Nat} (hp : cfg.Peer p) (s : Chnl H) :
    AckExitStep cfg send p s (mbPhyChnlRxAckIsrExit cfg send id p s) := by
  unfold mbPhyChnlRxAckIsrExit
  split
  · rename_i h
    exact .none (searchBusy_none h)
  · rename_i i h
    obtain ⟨hlt, hb⟩ := searchBusy_some h
    have hv : cfg.Valid p i := ⟨hp.1, hp.2, hlt⟩
    rw [mbPhyChnlTxCmd_eq hv]
    split
    · simp only [id_eq, ite_self, ne_eq, not_true_eq_false, ↓reduceIte]
      exact .sent hv hb ‹_›
    · exact .failed hv hb ‹_› h

/-- `ack` carries the channel and the sequence number of the last command sent to `p`. -/
structure AckMatches (ack : MailboxData) (s : Chnl H) (p i : Nat) : Prop where
  valid : cfg.Valid p i
  chnl : ack.hdr.logicalChnl = logChnlOf cfg.selfCpu p i
  log : (s.phyChnlXCb p).txLogChnl = logChnlOf cfg.selfCpu p i
  seq : (s.phyChnlXCb p).txSeq = ack.hdr.txSeq

inductive RxAckStep (ack : MailboxData) (s : Chnl H) : RxIsr × Chnl H → Prop
  | ignored : RxAckStep ack s (.idle, s)
  | fault {p : Nat} : RxAckStep ack s
      (.idle, s.updPhy p fun c => { c with rxFaultCnt := (c.rxFaultCnt + 1) ||| 0x40000000#32 })
  | matched {p i : Nat} (hm : AckMatches cfg ack s p i) (hc : (s.logChnlCb p i).txCmplIsr.isSome) :
      RxAckStep ack s (.ackExit p, s.note (.txCmplIsr p i
        (ack.setHdr { ack.hdr with logicalChnl := 0, txSeq := 0, ctrl := 0 })))
  | matchedNull {p i : Nat} (hm : AckMatches cfg ack s p i) (hc : (s.logChnlCb p i).txCmplIsr = Option.none) :
      RxAckStep ack s (.ackExit p, s)

theorem mbPhyChnlRxAckIsr_step (ack : MailboxData) (s : Chnl H) :
    RxAckStep cfg ack s (mbPhyChnlRxAckIsr cfg ack s) := by
  unfold mbPhyChnlRxAckIsr
  dsimp only
  split
  · exact .ignored
  rename_i h1
  split
  · exact .ignored
  rename_i h2
  split
  · exact .ignored
  rename_i h3
  split
  · exact .ignored
  rename_i h4
  split
  · exact .fault
  rename_i h5
  simp only [ne_eq, not_not] at h1
  simp only [ne_eq, not_or, not_not] at h5
  have hl : ack.hdr.logicalChnl =
      logChnlOf cfg.selfCpu (getDstCpuId ack.hdr.logicalChnl) (getLogChnlId ack.hdr.logicalChnl) := by
    rw [h1, logChnlOf_fields_eq]
  have hm : AckMatches cfg ack s (getDstCpuId ack.hdr.logicalChnl) (getLogChnlId ack.hdr.logicalChnl) :=
    ⟨⟨h2, Nat.not_le.1 h3, Nat.not_le.1 h4⟩, hl, h5.1.symm.trans hl, h5.2.symm⟩
  split
  · exact .matched hm ‹_›
  · rename_i hc
    exact .matchedNull hm (by simpa using hc)

theorem mbPhyChnlRxAckIsr_matches {ack : MailboxData} {s : Chnl H} {p i : Nat}
    (hm : AckMatches cfg ack s p i) (hc : (s.logChnlCb p i).txCmplIsr.isSome) :
    mbPhyChnlRxAckIsr cfg ack s = (.ackExit p, s.note (.txCmplIsr p i
      (ack.setHdr { ack.hdr with logicalChnl := 0, txSeq := 0, ctrl := 0 }))) := by
  have h1 : ¬ phyChnlNum ≤ p := Nat.not_le.2 hm.valid.lt
  have h2 : ¬ cfg.logChnlNum p ≤ i := Nat.not_le.2 hm.valid.idx
  simp only [mbPhyChnlRxAckIsr, hm.chnl, hm.valid.src, hm.valid.dst, hm.valid.id, hm.valid.ne, h1, h2,
    hm.log, hm.seq, hc, ne_eq, not_true_eq_false, or_self, ↓reduceIte]

/-- The ACK `mb_phy_chnl_rx_cmd_isr` builds for `cmd` from what `rx_isr` left in the buffer. -/
def ackOf (cmd rsp : MailboxData) : MailboxData :=
  rsp.setHdr { cmd.hdr with ctrl := cmd.hdr.ctrl ||| chnlCtrlAckBox }

theorem mbPhyChnlRxCmdIsr_eq {cmd : MailboxData} (rsp : MailboxData) {s : Chnl H} {p i : Nat}
    (hp : cfg.Peer p) (hi : i < cfg.logChnlNum p) (hl : cmd.hdr.logicalChnl = logChnlOf p cfg.selfCpu i)
    (hr : (s.logChnlCb p i).rxIsr.isSome) : mbPhyChnlRxCmdIsr cfg cmd rsp s =
      (if cmd.hdr.ctrl &&& chnlCtrlSyncTx ≠ 0 then .idle else .cmdExit p (ackOf cmd rsp), s.note (.rxIsr p i
          (cmd.setHdr { cmd.hdr with logicalChnl := 0, txSeq := 0, ctrl := 0, state := 0 }))) := by
  obtain ⟨hs4, hp4, hi16⟩ : cfg.selfCpu < 4 ∧ p < 4 ∧ i < 16 := ChnlCfg.Valid.fits ⟨hp.1, hp.2, hi⟩
  have h1 : ¬ phyChnlNum ≤ p := Nat.not_le.2 hp.2
  have h2 : ¬ cfg.logChnlNum p ≤ i := Nat.not_le.2 hi
  simp only [mbPhyChnlRxCmdIsr, hl, getSrcCpuId_logChnlOf hp4 hs4 hi16, getDstCpuId_logChnlOf hp4 hs4 hi16,
    getLogChnlId_logChnlOf hp4 hs4 hi16, hp.1, h1, h2, hr, ackOf, ne_eq, not_true_eq_false, ↓reduceIte]
  split <;> rfl

inductive RxCmdStep (s : Chnl H) : RxIsr × Chnl H → Prop
  | ignored : RxCmdStep s (.idle, s)
  | fault {p : Nat} : RxCmdStep s
      (.idle, s.updPhy p fun c => { c with rxFaultCnt := (c.rxFaultCnt + 1) ||| 0x80000000#32 })
  | called {p i : Nat} {isr : RxIsr} (cmd : MailboxData) (hi : ∀ q, isr ≠ .ackExit q) :
      RxCmdStep s (isr, s.note (.rxIsr p i cmd))
  | noTarget {isr : RxIsr} (hi : ∀ q, isr ≠ .ackExit q) : RxCmdStep s (isr, s)

theorem mbPhyChnlRxCmdIsr_step (cmd rsp : MailboxData) (s : Chnl H) :
    RxCmdStep s (mbPhyChnlRxCmdIsr cfg cmd rsp s) := by
  unfold mbPhyChnlRxCmdIsr
  dsimp only
  split
  · exact .ignored
  split
  · exact .ignored
  split
  · exact .ignored
  split
  · exact .fault
  by_cases hr : (s.logChnlCb (getSrcCpuId cmd.hdr.logicalChnl) (getLogChnlId cmd.hdr.logicalChnl)).rxIsr.isSome
  · simp only [hr, ↓reduceIte]
    split <;> exact .called _ nofun
  · simp only [hr, Bool.false_eq_true, ↓reduceIte]
    split <;> exact .noTarget nofun

structure Chnl.Cleared (s s' : Chnl H) : Prop where
  init : s.mbChnnlInitOk = false
  phy : s'.phyChnlXCb = fun _ => {}
  log : s'.logChnlCb = fun _ _ => {}
  trace : s'.trace = s.trace

theorem mbChnlInit_cleared (e : BkErr) {s : Chnl H} (h : s.mbChnnlInitOk = false) :
    s.Cleared (mbChnlInit cfg send e s).2 ∧
      ((mbChnlInit cfg send e s).1 = .ok → (mbChnlInit cfg send e s).2.mbChnnlInitOk) := by
  unfold mbChnlInit mbPhyChnlReset
  simp only [h, Bool.false_eq_true, ↓reduceIte]
  split
  · exact ⟨⟨h, rfl, rfl, rfl⟩, fun he => absurd he ‹_›⟩
  · split <;> exact ⟨⟨h, rfl, rfl, rfl⟩, fun _ => rfl⟩

inductive OpenStep (l : BitVec 8) (s : Chnl H) : Chnl H → Prop
  | refused {s₀ : Chnl H} (h₀ : s₀ = s ∨ s.Cleared s₀) : OpenStep l s s₀
  | opened {s₀ : Chnl H} {p i : Nat} (param : Nat) (h₀ : s₀ = s ∨ s.Cleared s₀)
      (ho : s₀.mbChnnlInitOk = true) (hl : l = logChnlOf cfg.selfCpu p i) (hv : cfg.Valid p i)
      (hu : (s₀.logChnlCb p i).inUsed = false) :
      OpenStep l s ((s₀.updLog p i fun c => { c with inUsed := true, isrParam := param }).note (.opened p i))

theorem mbChnlOpen_step (l : BitVec 8) (param : Nat) (e : BkErr) (s : Chnl H) :
    OpenStep cfg l s (mbChnlOpen cfg send l param e s).2 := by
  have h₀ : ∀ r : BkErr × Chnl H, (if s.mbChnnlInitOk then (.ok, s) else mbChnlInit cfg send e s) = r →
      (r.2 = s ∨ s.Cleared r.2) ∧ (r.1 = .ok → r.2.mbChnnlInitOk) := by
    rintro r rfl
    split
    · exact ⟨.inl rfl, fun _ => ‹_›⟩
    · rename_i hi
      have hc := mbChnlInit_cleared cfg send e (Bool.not_eq_true _ ▸ hi)
      exact ⟨.inr hc.1, hc.2⟩
  unfold mbChnlOpen
  dsimp only
  generalize hr : (if s.mbChnnlInitOk then (.ok, s) else mbChnlInit cfg send e s : BkErr × Chnl H) = r
  obtain ⟨h₀, ho⟩ := h₀ r hr
  split
  · exact .refused h₀
  rename_i hok
  split
  · exact .refused h₀
  rename_i h1
  split
  · exact .refused h₀
  rename_i h2
  split
  · exact .refused h₀
  rename_i h3
  split
  · exact .refused h₀
  rename_i h4
  split
  · exact .refused h₀
  · rename_i h5
    simp only [ne_eq, not_not] at h1 hok
    exact .opened param h₀ (ho hok) (by rw [h1, logChnlOf_fields_eq])
      ⟨h2, Nat.not_le.1 h3, Nat.not_le.1 h4⟩ (by simpa using h5)

inductive CloseStep (s : Chnl H) : Chnl H → Prop
  | refused : CloseStep s s
  | closed {p i : Nat} (hu : (s.logChnlCb p i).inUsed = true) : CloseStep s ((s.updLog p i fun c =>
      { c with inUsed := false, txState := .idle, rxIsr := none, txIsr := none, txCmplIsr := none }).note
        (.closed p i))

theorem mbChnlClose_step (l : BitVec 8) (s : Chnl H) : CloseStep s (mbChnlClose cfg l s).2 := by
  unfold mbChnlClose
  dsimp only
  split
  · exact .refused
  split
  · exact .refused
  split
  · exact .refused
  split
  · exact .refused
  · rename_i hu
    exact .closed (by simpa using hu)

structure SetsIsr (f : MbLogChnlCb → MbLogChnlCb) : Prop where
  txState : ∀ c, (f c).txState = c.txState
  inUsed : ∀ c, (f c).inUsed = c.inUsed
  buff : ∀ c, (f c).chnnlTxBuff = c.chnnlTxBuff

inductive CtrlStep (cmd : CtrlCmd) (s : Chnl H) : Chnl H → Prop
  | refused : CtrlStep cmd s s
  | status {p i : Nat} : CtrlStep cmd s (s.note (.status p i (s.logChnlCb p i).txState))
  | isr {p i : Nat} (f : MbLogChnlCb → MbLogChnlCb) (hf : SetsIsr f) (hu : (s.logChnlCb p i).inUsed = true) :
      CtrlStep cmd s (s.updLog p i f)
  | sync {p i : Nat} {m₀ : MailboxData} (hc : cmd = .writeSync (some m₀)) (m : MailboxData)
      (hm : m.hdr.ctrl = chnlCtrlSyncTx) (hu : (s.logChnlCb p i).inUsed = true) :
      CtrlStep cmd s { s with hw := (send s.hw cfg.selfCpu p m).2 }

theorem mbChnlCtrl_step (l : BitVec 8) (cmd : CtrlCmd) (s : Chnl H) :
    CtrlStep cfg send cmd s (mbChnlCtrl cfg send l cmd s).2 := by
  unfold mbChnlCtrl
  dsimp only
  split
  · exact .refused
  split
  · exact .refused
  split
  · exact .refused
  split
  · exact .refused
  split
  · exact .refused
  rename_i hu
  simp only [Bool.not_eq_true', Bool.not_eq_false] at hu
  have hsets : ∀ f : MbLogChnlCb → MbLogChnlCb, SetsIsr f →
      CtrlStep cfg send cmd s (s.updLog (getDstCpuId l) (getLogChnlId l) f) := fun f hf => .isr f hf hu
  split
  · exact .refused
  · exact .status
  · dsimp only; exact hsets _ ⟨fun _ => rfl, fun _ => rfl, fun _ => rfl⟩
  · dsimp only; exact hsets _ ⟨fun _ => rfl, fun _ => rfl, fun _ => rfl⟩
  · dsimp only; exact hsets _ ⟨fun _ => rfl, fun _ => rfl, fun _ => rfl⟩
  · exact .refused
  · unfold mbPhyChnlTxCmdSync
    dsimp only
    split
    · exact .refused
    · exact .sync rfl _ (by simp) hu
  · exact .refused

end
end Bk7258

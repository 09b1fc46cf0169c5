import Bk7258.Mailbox.Delivery
import Bk7258.Mailbox.Mbox0

/-!
# Two CPUs over the mbox0 mailbox

With asynchronous traffic alone at most two messages are uncopied each way, so no FIFO is ever full and no slot is
written too early. Synchronous writes break both: an ACK that finds the FIFO full is not sent again, and a third message
overwrites the first before it is copied.
-/

namespace Bk7258
open Lts

/-! ### The channel layer uses the mailbox through its operations only -/

section
variable {H : Type} (cfg : ChnlCfg) (send : SendFn H)

def SentOnce (h h' : H) : Prop := h' = h ∨ ∃ q m, h' = (send h cfg.selfCpu q m).2

theorem mbPhyChnlTxCmd_sentOnce (l : BitVec 8) (s : Chnl H) :
    SentOnce cfg send s.hw (mbPhyChnlTxCmd cfg send id l s).2.hw := by
  unfold mbPhyChnlTxCmd
  dsimp only
  split
  · exact .inl rfl
  split
  · exact .inl rfl
  split
  · exact .inl rfl
  split
  · exact .inl rfl
  split
  · exact .inr ⟨_, _, rfl⟩
  · split <;> exact .inr ⟨_, _, rfl⟩

theorem mbPhyChnlRxAckIsrExit_sentOnce (p : Nat) (s : Chnl H) :
    SentOnce cfg send s.hw (mbPhyChnlRxAckIsrExit cfg send id p s).hw := by
  unfold mbPhyChnlRxAckIsrExit
  split
  · exact .inl rfl
  · rename_i i _
    have h := mbPhyChnlTxCmd_sentOnce cfg send (logChnlOf cfg.selfCpu p i) s
    dsimp only
    split <;> exact h

theorem mbPhyChnlRxCmdIsrExit_sentOnce (p : Nat) (ack : MailboxData) (s : Chnl H) :
    SentOnce cfg send s.hw (mbPhyChnlRxCmdIsrExit cfg send p ack s).hw := by
  unfold mbPhyChnlRxCmdIsrExit
  dsimp only
  split <;> exact .inr ⟨_, _, rfl⟩

theorem mbChnlInit_sentOnce (e : BkErr) (s : Chnl H) : SentOnce cfg send s.hw (mbChnlInit cfg send e s).2.hw := by
  unfold mbChnlInit mbPhyChnlReset
  dsimp only
  split
  · exact .inl rfl
  split
  · exact .inl rfl
  split
  · exact .inl rfl
  · exact .inr ⟨_, _, rfl⟩

theorem mbChnlOpen_sentOnce (l : BitVec 8) (param : Nat) (e : BkErr) (s : Chnl H) :
    SentOnce cfg send s.hw (mbChnlOpen cfg send l param e s).2.hw := by
  unfold mbChnlOpen
  dsimp only
  have hinit : SentOnce cfg send s.hw
      (if s.mbChnnlInitOk then (.ok, s) else mbChnlInit cfg send e s : BkErr × Chnl H).2.hw := by
    split
    · exact .inl rfl
    · exact mbChnlInit_sentOnce cfg send e s
  generalize (if s.mbChnnlInitOk then (.ok, s) else mbChnlInit cfg send e s : BkErr × Chnl H) = r at hinit ⊢
  split
  · exact hinit
  split
  · exact hinit
  split
  · exact hinit
  split
  · exact hinit
  split
  · exact hinit
  split <;> exact hinit

theorem mbChnlWrite_sentOnce (l : BitVec 8) (m : MailboxData) (s : Chnl H) :
    SentOnce cfg send s.hw (mbChnlWrite cfg send id l m s).2.hw := by
  have hw := mbChnlWrite_step cfg send l m s
  generalize mbChnlWrite cfg send id l m s = r at hw
  cases hw with
  | refused | queued => exact .inl rfl
  | @sent p i | @failed p i =>
    refine .inr ⟨p, txCmdOf cfg (s.started p i m) p i, ?_⟩
    rw [← s.started_hw p i m]; rfl

theorem ApiCall.run_sentOnce (c : ApiCall) (s : Chnl H) : SentOnce cfg send s.hw (c.run cfg send id s).2.hw := by
  cases c with
  | openChnl l param e => exact mbChnlOpen_sentOnce cfg send l param e s
  | close l =>
    have hc := mbChnlClose_step cfg l s
    change SentOnce cfg send s.hw (mbChnlClose cfg l s).2.hw
    generalize (mbChnlClose cfg l s).2 = t at hc
    cases hc <;> exact .inl rfl
  | ctrl l cmd =>
    have hc := mbChnlCtrl_step cfg send l cmd s
    change SentOnce cfg send s.hw (mbChnlCtrl cfg send l cmd s).2.hw
    generalize (mbChnlCtrl cfg send l cmd s).2 = t at hc
    cases hc with
    | refused | status | isr => exact .inl rfl
    | sync => exact .inr ⟨_, _, rfl⟩
  | write l m => exact mbChnlWrite_sentOnce cfg send l m s
  | setExceptionMode => exact .inl rfl

end

section
variable {H : Type} {b : Board} {hw : Hw H} {s t : Link H}

theorem Link.run_hw {I : H → Prop} (hsend : ∀ h p q m, I h → I (hw.send h p q m).2)
    (hpop : ∀ h c h', I h → hw.pop h c = some h' → I h')
    (hcopy : ∀ h c a m h', I h → hw.copy h c = some (a, m, h') → I h')
    (hr : Run (Link.step b hw) (fun _ _ => True) s t) (h₀ : I s.hw) : I t.hw := by
  have hsent : ∀ {x h h'}, I h → SentOnce (b.cfg x) hw.send h h' → I h' := by
    rintro x h h' hi (rfl | ⟨q, m, rfl⟩)
    · exact hi
    · exact hsend h _ q m hi
  refine (Link.run_flat (hr.mono fun _ a _ => a.all_true)).invariant (I := fun s => I s.hw) h₀
    fun t u a _ hi hok hs => ?_
  cases Link.flatStep hok.1 hs with
  | call x c => exact hsent hi (c.run_sentOnce (b.cfg x) hw.send (t.view x))
  | pop _ hc => exact hpop _ _ _ hi hc
  | rx rsp _ hc =>
    rw [Link.hw_put, (mbPhyChnlRxIsr_frame _ _ rsp _).hw]
    exact hcopy _ _ _ _ _ hi hc
  | @ackExit x p _ => exact hsent hi (mbPhyChnlRxAckIsrExit_sentOnce (b.cfg x) hw.send p (t.view x))
  | @cmdExit x p ack _ => exact hsent hi (mbPhyChnlRxCmdIsrExit_sentOnce (b.cfg x) hw.send p ack (t.view x))

end

/-! ### Messages are copied as they were sent -/

section
variable (b : Board) {s₀ s : Link Mbox0}

/-- Whatever the two CPUs call, messages are copied out as they were sent, if every send that was not refused found at
most one message uncopied. -/
theorem sent_eq_copied_append_fly (h₀ : s₀.hw.Empty) (hr : Run (Link.step b mbox0) (fun _ _ => True) s₀ s)
    (hk : s.hw.Kept SendRec.Roomy) (src dst : Nat) :
    s.hw.sent src dst = s.hw.copied src dst ++ s.hw.fly src dst := by
  have hwf : s.hw.IntactIf SendRec.Roomy :=
    Link.run_hw (fun h p q m hi => hi.send fun r hr => hr) (fun h c h' hi hp => hi.pop hp)
      (fun h c a m h' hi hc => hi.copy hc) hr fun _ => h₀.intact
  exact (hwf hk).sent src dst

end

def writeSync (x : Bool) (m : MailboxData) : LinkAct :=
  .call x (.ctrl (logChnlOf (apBoard.id x) (apBoard.id !x) 0) (.writeSync (some m))) .done

theorem sent_eq_copied_append_fly_sync : ∃ s : Link Mbox0,
    Run (Link.step apBoard mbox0) (fun _ _ => True) (openedLink apBoard {}) s ∧
      (s.hw.sent 0 1).length = 2 ∧ s.hw.sent 0 1 = s.hw.copied 0 1 ++ s.hw.fly 0 1 := by
  refine Run.of_exec_imp (p := fun s => (s.hw.sent 0 1).length = 2 ∧ s.hw.Kept SendRec.Roomy)
    [writeSync false ⟨1, 1, 1, 1⟩, .call false (.write (logChnlOf 0 1 0) ⟨2, 2, 2, 2⟩) .done, .pop true,
      .rx true ⟨0, 0, 0, 0⟩] (by decide) ?_
  exact fun s hr ⟨hl, hk⟩ => ⟨hl, sent_eq_copied_append_fly apBoard Mbox0.empty_init hr hk 0 1⟩

/-- CPU0 has two slots for the three entries of CPU1's FIFO: after three synchronous writes the first message copied out
is the third. -/
theorem copied_overwritten : ∃ s : Link Mbox0,
    Run (Link.step apBoard mbox0) (fun _ _ => True) (openedLink apBoard {}) s ∧
      (s.hw.copied 0 1).map (·.param1) = [3] ∧ (s.hw.sent 0 1).map (·.param1) = [1, 2, 3] ∧
      s.hw.sent 0 1 ≠ s.hw.copied 0 1 ++ s.hw.fly 0 1 :=
  Run.of_exec [writeSync false ⟨0, 1, 0, 0⟩, writeSync false ⟨0, 2, 0, 0⟩, writeSync false ⟨0, 3, 0, 0⟩, .pop true,
    .rx true ⟨0, 0, 0, 0⟩] (by decide)

/-! ### Every ACK is sent -/

def MailboxData.IsFor (m : MailboxData) (phy : MbPhyChnlCb) : Prop :=
  m.hdr.logicalChnl = phy.txLogChnl ∧ m.hdr.txSeq = phy.txSeq

inductive Outstanding {H : Type} (b : Board) (fly : H → (src dst : Nat) → List MailboxData) (s : Link H)
    (x : Bool) : Prop
  | cmd {m : MailboxData} (hm : m ∈ fly s.hw (b.id x) (b.id !x)) (ha : m.isAsync = true)
      (hf : m.IsFor ((s.view x).phyChnlXCb (b.id !x)))
  | reply {a : MailboxData} (hi : s.isr (!x) = .cmdExit (b.id x) a) (ha : a.isAck = true)
      (hf : a.IsFor ((s.view x).phyChnlXCb (b.id !x)))
  | ack {a : MailboxData} (hm : a ∈ fly s.hw (b.id !x) (b.id x)) (ha : a.isAck = true)
      (hf : a.IsFor ((s.view x).phyChnlXCb (b.id !x)))
  | done (hi : s.isr x = .ackExit (b.id !x))

theorem LinkInv.outstanding {H : Type} {b : Board} {fly : H → (src dst : Nat) → List MailboxData}
    {Wf Good : H → Prop} {s : Link H} (h : LinkInv b fly Wf Good s) (hg : Good s.hw) {x : Bool}
    (hb : ((s.view x).phyChnlXCb (b.id !x)).txState = .busy) : Outstanding b fly s x := by
  obtain ⟨leg, hl⟩ := ((h.legs hg).toward x).out
  cases leg with
  | idle => exact absurd rfl (hl.busy.1 hb)
  | cmd m =>
    have hm : m ∈ (fly s.hw (b.id x) (b.id !x)).filter (·.isAsync) := by rw [hl.cmds]; exact List.mem_singleton_self m
    exact .cmd (List.mem_filter.1 hm).1 (List.mem_filter.1 hm).2 (hl.hdr m (List.mem_singleton_self m))
  | reply a => exact .reply ((hl.reply _ a).2 ⟨rfl, rfl⟩) (hl.ack a rfl) (hl.hdr a (List.mem_singleton_self a))
  | ack a =>
    have ha : a ∈ (fly s.hw (b.id !x) (b.id x)).filter (·.isAck) := by rw [hl.acks]; exact List.mem_singleton_self a
    exact .ack (List.mem_filter.1 ha).1 (List.mem_filter.1 ha).2 (hl.hdr a (List.mem_singleton_self a))
  | done => exact .done ((hl.done _).2 ⟨rfl, rfl⟩)

def SendRec.AckRoomy (r : SendRec) : Prop := r.full = false ∨ r.data.isAck = true → r.uncopied ≤ 1

instance : DecidablePred SendRec.AckRoomy := fun r =>
  inferInstanceAs (Decidable (r.full = false ∨ r.data.isAck = true → r.uncopied ≤ 1))

theorem mbox0_laws_ackRoomy : mbox0.Laws Mbox0.fly (Mbox0.IntactIf SendRec.AckRoomy) (Mbox0.Kept SendRec.AckRoomy) :=
  mbox0_laws (fun _ h hf => h (.inl hf)) (fun _ h ha => h (.inr ha)) fun _ _ hl _ => hl

section
variable (b : Board) {s₀ s : Link Mbox0}

/-- If every message put into a FIFO and every ACK found at most one message uncopied, a busy physical channel has its
command or the ACK under way. -/
theorem outstanding_of_ackRoomy (h₀ : Started b Mbox0.fly s₀) (he : s₀.hw.Empty)
    (hr : Run (Link.step b mbox0) (fun _ a => a.all b.towards = true) s₀ s)
    (hk : s.hw.Kept SendRec.AckRoomy) :
    (∀ r ∈ s.hw.sends, r.data.isAck = true → r.full = false) ∧
      ∀ x, ((s.view x).phyChnlXCb (b.id !x)).txState = .busy → Outstanding b Mbox0.fly s x := by
  have hinv : LinkInv b Mbox0.fly (Mbox0.IntactIf SendRec.AckRoomy) (Mbox0.Kept SendRec.AckRoomy) s :=
    LinkInv.run mbox0_laws_ackRoomy h₀ (fun _ => he.intact) hr
  exact ⟨fun r hm ha => (hinv.wf hk).room r hm (hk r hm (.inr ha)), fun x hb => hinv.outstanding hk hb⟩

end

theorem outstanding_of_ackRoomy_reply : ∃ s : Link Mbox0,
    Run (Link.step apBoard mbox0) (fun _ a => a.all apBoard.towards = true) (openedLink apBoard {}) s ∧
      (s.hw.sent 1 0).length = 1 ∧ Outstanding apBoard Mbox0.fly s false := by
  refine Run.of_exec_imp (p := fun s => s.hw.Kept SendRec.AckRoomy ∧ (s.hw.sent 1 0).length = 1 ∧
      ((s.view false).phyChnlXCb (apBoard.id !false)).txState = .busy)
    [.call false (.write (logChnlOf 0 1 0) ⟨1, 1, 1, 1⟩) .done, writeSync true ⟨2, 2, 2, 2⟩, .pop true,
      .rx true ⟨0, 0, 0, 0⟩] (by decide) ?_
  rintro s hr ⟨hk, hl, hb⟩
  have hstart := (opened_openedLink apBoard Mbox0.fly {} fun _ _ => rfl).start
  exact ⟨hl, (outstanding_of_ackRoomy apBoard hstart Mbox0.empty_init hr hk).2 false hb⟩

/-- Two synchronous messages fill the FIFO of CPU0: the ACK is refused, and CPU0 waits for it for ever. -/
theorem busy_of_ack_refused : ∃ s : Link Mbox0,
    Run (Link.step apBoard mbox0) (fun _ a => a.all apBoard.towards = true) (openedLink apBoard {}) s ∧
      ((s.view false).phyChnlXCb 1).txState = .busy ∧ s.hw.fly 0 1 = [] ∧ s.hw.fly 1 0 = [] ∧
      s.isr false = .idle ∧ s.isr true = .idle :=
  Run.of_exec [.call false (.write (logChnlOf 0 1 0) ⟨1, 1, 1, 1⟩) .done, writeSync true ⟨2, 2, 2, 2⟩,
    writeSync true ⟨3, 3, 3, 3⟩, .pop true, .rx true ⟨0, 0, 0, 0⟩, .exit true .done, .pop false,
    .rx false ⟨0, 0, 0, 0⟩, .pop false, .rx false ⟨0, 0, 0, 0⟩] (by decide)

/-! ### Asynchronous traffic -/

def SendRec.Clear (r : SendRec) : Prop := r.full = false ∧ r.uncopied ≤ 1

theorem mbox0_laws_clear : mbox0.Laws Mbox0.fly (Mbox0.IntactIf SendRec.Clear) (Mbox0.Kept SendRec.Clear) :=
  mbox0_laws (fun _ h _ => h.2) (fun _ h _ => h.2) fun _ hf hl => ⟨hf, hl⟩

section
variable (b : Board) {s₀ s : Link Mbox0}

/-- Without synchronous writes at most two messages to each CPU are uncopied, no send finds a full FIFO, and no slot is
overwritten. -/
theorem uncopied_le_two (h₀ : Started b Mbox0.fly s₀) (he : s₀.hw.Empty)
    (hr : Run (Link.step b mbox0) (fun _ a => a.all b.asyncTowards = true) s₀ s) :
    (∀ x, (s.hw.uncopied (b.id x)).length ≤ 2) ∧ ∀ r ∈ s.hw.sends, r.full = false ∧ r.slotInUse = false := by
  have hk₀ : s₀.hw.Kept SendRec.Clear := by
    intro r hm
    rw [he.sends] at hm
    cases hm
  have hinv : AsyncInv b Mbox0.fly (Mbox0.IntactIf SendRec.Clear) (Mbox0.Kept SendRec.Clear) s :=
    AsyncInv.run mbox0_laws_clear h₀ (fun _ => he.intact) hk₀ hr
  refine ⟨fun x => ?_, fun r hm => ⟨(hinv.good r hm).1, ?_⟩⟩
  · have hlen := hinv.length_le (!x)
    rw [← uncopied_length_of_alone hinv.fly_eq_nil, Bool.not_not] at hlen
    exact hlen
  · exact (hinv.inv.wf hinv.good).unused r hm (hinv.good r hm).1

end

theorem uncopied_le_two_reached : ∃ s : Link Mbox0,
    Run (Link.step apBoard mbox0) (fun _ a => a.all apBoard.asyncTowards = true) (openedLink apBoard {}) s ∧
      (s.hw.uncopied 0).length = 2 ∧ s.hw.sends.length = 3 ∧
      ∀ r ∈ s.hw.sends, r.full = false ∧ r.slotInUse = false := by
  refine Run.of_exec_imp (p := fun s => (s.hw.uncopied 0).length = 2 ∧ s.hw.sends.length = 3)
    [.call false (.write (logChnlOf 0 1 0) ⟨1, 1, 1, 1⟩) .done,
      .call true (.write (logChnlOf 1 0 3) ⟨2, 2, 2, 2⟩) .done, .pop true, .rx true ⟨0, 0, 0, 0⟩,
      .exit true .done] (by decide) ?_
  rintro s hr ⟨hu, hl⟩
  have hstart := (opened_openedLink apBoard Mbox0.fly {} fun _ _ => rfl).start
  exact ⟨hu, hl, (uncopied_le_two apBoard hstart Mbox0.empty_init hr).2⟩

end Bk7258

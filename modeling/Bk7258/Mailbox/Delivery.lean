import Bk7258.Mailbox.LinkInv

/-!
# Every accepted write is delivered once, in order

For one direction and one logical channel: what was accepted is what was delivered, then what is in flight, then what
waits in the channel buffer; what was delivered is what was completed and what is still being acknowledged (`Delivery`).
`lossless` is the mailbox that never loses, reorders or refuses a message.
-/

namespace Bk7258
open Lts

abbrev Payload := BitVec 8 × BitVec 32 × BitVec 32 × BitVec 32

/-! ### What the traces say about one channel -/

def Event.written? (p i : Nat) : Event → Option Payload
  | .written q j m => if q = p ∧ j = i then some m.payload else none
  | _ => none

def Event.delivered? (p i : Nat) : Event → Option Payload
  | .rxIsr q j m => if q = p ∧ j = i then some m.payload else none
  | _ => none

def Event.completed? (p i : Nat) : Event → Option (BitVec 8)
  | .txCmplIsr q j ack => if q = p ∧ j = i then some ack.hdr.cmd else none
  | _ => none

/-- The commands `mb_chnl_write` accepted (and returned `BK_OK` for) on channel `i` to `p`. -/
def writtenTo (p i : Nat) (tr : List Event) : List Payload := tr.filterMap (·.written? p i)

/-- The commands from `p` that the `rx_isr` of channel `i` got. -/
def deliveredFrom (p i : Nat) (tr : List Event) : List Payload := tr.filterMap (·.delivered? p i)

/-- The command bytes of the ACKs that the `tx_cmpl_isr` of channel `i` to `p` got. -/
def completedTo (p i : Nat) (tr : List Event) : List (BitVec 8) := tr.filterMap (·.completed? p i)

section
variable (p i : Nat) (tr : List Event) (e : Event)

@[simp] theorem writtenTo_snoc : writtenTo p i (tr ++ [e]) = writtenTo p i tr ++ (e.written? p i).toList := by
  cases h : e.written? p i <;> simp [writtenTo, h]

@[simp] theorem deliveredFrom_snoc :
    deliveredFrom p i (tr ++ [e]) = deliveredFrom p i tr ++ (e.delivered? p i).toList := by
  cases h : e.delivered? p i <;> simp [deliveredFrom, h]

@[simp] theorem completedTo_snoc : completedTo p i (tr ++ [e]) = completedTo p i tr ++ (e.completed? p i).toList := by
  cases h : e.completed? p i <;> simp [completedTo, h]

end

section
variable {H : Type}

def Chnl.pending (c : Chnl H) (p i : Nat) : List Payload :=
  if (c.logChnlCb p i).txState = .busy then [(c.logChnlCb p i).chnnlTxBuff.payload] else []

/-- Commands from `cfg.selfCpu` to `q` on `n` channels: `c` is the sender, `tr` the trace of `q`, `cmds` the commands in
flight and `acks` the ACKs. -/
structure Delivery (cfg : ChnlCfg) (q n : Nat) (c : Chnl H) (tr : List Event) (cmds acks : List MailboxData) :
    Prop where
  used : ∀ i, i < n → (c.logChnlCb q i).inUsed = true ∧ (c.logChnlCb q i).rxIsr.isSome = true ∧
    (c.logChnlCb q i).txCmplIsr.isSome = true
  idle : (c.phyChnlXCb q).txState = .idle → ∀ i, i < n → (c.logChnlCb q i).txState = .idle
  sent : ∀ i, i < n → writtenTo q i c.trace = deliveredFrom cfg.selfCpu i tr ++
    (cmds.filter (·.hdr.logicalChnl = logChnlOf cfg.selfCpu q i)).map (·.payload) ++ c.pending q i
  acked : ∀ i, i < n → (deliveredFrom cfg.selfCpu i tr).map (·.1) = completedTo q i c.trace ++
    (acks.filter (·.hdr.logicalChnl = logChnlOf cfg.selfCpu q i)).map (·.hdr.cmd)

namespace Delivery
variable {cfg : ChnlCfg} {send : SendFn H} {q n i : Nat} {c c' : Chnl H} {tr tr' : List Event}
  {cmds acks : List MailboxData} {m a : MailboxData}

theorem quiet (h : Delivery cfg q n c tr [] []) (hp : (c.phyChnlXCb q).txState = .idle) (hi : i < n) :
    deliveredFrom cfg.selfCpu i tr = writtenTo q i c.trace ∧
      completedTo q i c.trace = (writtenTo q i c.trace).map (·.1) := by
  have h1 := h.sent i hi
  have h2 := h.acked i hi
  simp only [Chnl.pending, h.idle hp i hi, reduceCtorEq, ↓reduceIte, List.filter_nil, List.map_nil,
    List.append_nil] at h1 h2
  exact ⟨h1.symm, by rw [h1]; exact h2.symm⟩

theorem delivered_of_written (h : Delivery cfg q n c tr cmds acks) (hi : i < n) :
    deliveredFrom cfg.selfCpu i tr <+: writtenTo q i c.trace := by
  rw [h.sent i hi, List.append_assoc]
  exact List.prefix_append _ _

theorem congr (h : Delivery cfg q n c tr cmds acks) (hl : c'.logChnlCb q = c.logChnlCb q)
    (hp : (c'.phyChnlXCb q).txState = (c.phyChnlXCb q).txState)
    (hw : ∀ i, writtenTo q i c'.trace = writtenTo q i c.trace)
    (hc : ∀ i, completedTo q i c'.trace = completedTo q i c.trace)
    (hd : ∀ i, deliveredFrom cfg.selfCpu i tr' = deliveredFrom cfg.selfCpu i tr) :
    Delivery cfg q n c' tr' cmds acks where
  used := by rw [hl]; exact h.used
  idle := by rw [hl, hp]; exact h.idle
  sent i hi := by rw [hw, hd]; simpa [Chnl.pending, hl] using h.sent i hi
  acked i hi := by rw [hc, hd]; exact h.acked i hi

theorem accepted (h : Delivery cfg q n c tr cmds acks) (hi : (c.logChnlCb q i).txState = .idle)
    (hl : c'.logChnlCb q = (c.accepted q i m).logChnlCb q) (hp : (c'.phyChnlXCb q).txState = .busy)
    (ht : c'.trace = c.trace ++ [.written q i m]) : Delivery cfg q n c' tr cmds acks where
  used j hj := by
    rw [hl]
    by_cases hji : j = i
    · subst hji; simpa [Chnl.accepted] using h.used j hj
    · simpa [Chnl.accepted, hji] using h.used j hj
  idle hp' := by rw [hp] at hp'; cases hp'
  sent j hj := by
    rw [ht, writtenTo_snoc, h.sent j hj]
    by_cases hji : j = i
    · subst hji; simp [Event.written?, Chnl.pending, hl, Chnl.accepted, hi]
    · have hij : ¬ i = j := fun h => hji h.symm
      simp [Event.written?, Chnl.pending, hl, Chnl.accepted, hji, hij]
  acked j hj := by
    rw [ht, completedTo_snoc]
    simpa [Event.completed?] using h.acked j hj

theorem logChnlOf_ne (hv : ∀ j, j < n → cfg.Valid q j) (hin : i < n) {j : Nat} (hj : j < n) (hij : ¬ i = j) :
    ¬ logChnlOf cfg.selfCpu q i = logChnlOf cfg.selfCpu q j :=
  fun he => hij ((hv i hin).inj (hv j hj) he)

theorem transmitted (h : Delivery cfg q n c tr [] acks) (hv : ∀ j, j < n → cfg.Valid q j) (hin : i < n)
    (hb : (c.logChnlCb q i).txState = .busy) (hp : (c.phyChnlXCb q).txState = .busy) :
    Delivery cfg q n (c.transmitted cfg send q i) tr [txCmdOf cfg c q i] acks where
  used j hj := by
    by_cases hji : j = i
    · subst hji; simpa [Chnl.transmitted, Chnl.transmit] using h.used j hj
    · simpa [Chnl.transmitted, Chnl.transmit, hji] using h.used j hj
  idle hp' := by simp [Chnl.transmitted, Chnl.transmit, hp] at hp'
  sent j hj := by
    have hlog : (txCmdOf cfg c q i).hdr.logicalChnl = logChnlOf cfg.selfCpu q i := by simp [txCmdOf]
    simp only [Chnl.transmitted, Chnl.transmit, Chnl.note_trace, Chnl.updLog_trace, Chnl.updPhy_trace,
      writtenTo_snoc, h.sent j hj, Event.written?]
    by_cases hji : j = i
    · subst hji; simp [Chnl.pending, hb, hlog, txCmdOf_payload]
    · have hne := logChnlOf_ne hv hin hj fun h => hji h.symm
      simp [Chnl.pending, hji, hlog, hne]
  acked j hj := by
    simpa [Event.completed?, Chnl.transmitted, Chnl.transmit] using h.acked j hj

theorem setIdle (h : Delivery cfg q n c tr cmds acks) (hi : ∀ i, i < n → (c.logChnlCb q i).txState = .idle) :
    Delivery cfg q n (c.setTxState q .idle) tr cmds acks :=
  ⟨h.used, fun _ => hi, h.sent, h.acked⟩

theorem deliver (h : Delivery cfg q n c tr [m] []) (hv : ∀ j, j < n → cfg.Valid q j) (hin : i < n)
    (hm : m.hdr.logicalChnl = logChnlOf cfg.selfCpu q i) {m' : MailboxData} (hp : m'.payload = m.payload)
    (hal : a.hdr.logicalChnl = m.hdr.logicalChnl) (hac : a.hdr.cmd = m.hdr.cmd) :
    Delivery cfg q n c (tr ++ [.rxIsr cfg.selfCpu i m']) [] [a] where
  used := h.used
  idle := h.idle
  sent j hj := by
    rw [h.sent j hj, deliveredFrom_snoc]
    by_cases hji : j = i
    · subst hji; simp [Event.delivered?, hm, hp]
    · have hij : ¬ i = j := fun h => hji h.symm
      have hne := logChnlOf_ne hv hin hj hij
      simp [Event.delivered?, hm, hij, hne]
  acked j hj := by
    have ha := h.acked j hj
    rw [deliveredFrom_snoc, List.map_append, ha]
    by_cases hji : j = i
    · subst hji
      have hcmd : m'.payload.1 = a.hdr.cmd := by rw [hp, hac]; rfl
      simp [Event.delivered?, hal, hm, hcmd]
    · have hij : ¬ i = j := fun h => hji h.symm
      have hne := logChnlOf_ne hv hin hj hij
      simp [Event.delivered?, hal, hm, hij, hne]

theorem complete (h : Delivery cfg q n c tr cmds [a]) (hv : ∀ j, j < n → cfg.Valid q j) (hin : i < n)
    (ha : a.hdr.logicalChnl = logChnlOf cfg.selfCpu q i) {a' : MailboxData} (hc : a'.hdr.cmd = a.hdr.cmd) :
    Delivery cfg q n (c.note (.txCmplIsr q i a')) tr cmds [] where
  used := h.used
  idle := h.idle
  sent j hj := by
    rw [Chnl.note_trace, writtenTo_snoc, h.sent j hj]
    simp only [Event.written?, Option.toList_none, List.append_nil]
    rfl
  acked j hj := by
    rw [h.acked j hj, Chnl.note_trace, completedTo_snoc]
    by_cases hji : j = i
    · subst hji; simp [Event.completed?, ha, hc]
    · have hij : ¬ i = j := fun h => hji h.symm
      have hne := logChnlOf_ne hv hin hj hij
      simp [Event.completed?, ha, hij, hne]

end Delivery

/-! ### The link -/

def RxIsr.reply : RxIsr → List MailboxData
  | .cmdExit _ a => [a]
  | _ => []

variable (b : Board) (fly : H → (src dst : Nat) → List MailboxData)

def DeliveryOk (s : Link H) (x y : Bool) : Prop :=
  Delivery (b.cfg x) (b.id y) b.chnlNum (s.view x) (s.view y).trace
    ((fly s.hw (b.id x) (b.id y)).filter (·.isAsync))
    ((fly s.hw (b.id y) (b.id x)).filter (·.isAck) ++ (s.isr y).reply)

variable {b fly} {s : Link H} {x y : Bool}

theorem deliveryOk_put (hxy : y ≠ x) {c : Chnl H} {r : RxIsr} {cmds acks : List MailboxData}
    (h : Delivery (b.cfg x) (b.id y) b.chnlNum c (s.view y).trace cmds acks)
    (hc : (fly c.hw (b.id x) (b.id y)).filter (·.isAsync) = cmds)
    (ha : (fly c.hw (b.id y) (b.id x)).filter (·.isAck) ++ (s.isr y).reply = acks) :
    DeliveryOk b fly (s.put x c r) x y := by
  subst hc ha
  simpa [DeliveryOk, hxy] using h

theorem deliveryOk_put_other (hxy : y ≠ x) {c : Chnl H} {r : RxIsr} {cmds acks : List MailboxData}
    (h : Delivery (b.cfg y) (b.id x) b.chnlNum (s.view y) c.trace cmds acks)
    (hc : (fly c.hw (b.id y) (b.id x)).filter (·.isAsync) = cmds)
    (ha : (fly c.hw (b.id x) (b.id y)).filter (·.isAck) ++ r.reply = acks) : DeliveryOk b fly (s.put x c r) y x := by
  subst hc ha
  have h' : Delivery (b.cfg y) (b.id x) b.chnlNum ((s.view y).setHw c.hw) c.trace
      ((fly c.hw (b.id y) (b.id x)).filter (·.isAsync))
      ((fly c.hw (b.id x) (b.id y)).filter (·.isAck) ++ r.reply) :=
    h.congr rfl rfl (fun _ => rfl) (fun _ => rfl) fun _ => rfl
  simpa [DeliveryOk, hxy] using h'

variable {hw : Hw H} {Wf Good : H → Prop}

theorem AsyncInv.send_ok (L : hw.Laws fly Wf Good) (h : AsyncInv b fly Wf Good s) {leg : Leg}
    (hl : LegOk b fly s x (!x) leg) (hleg : leg.cmds = []) {m : MailboxData} (hm : m.isAsync) :
    (hw.send s.hw (b.id x) (b.id !x) m).1 = .ok ∧
      (fly (hw.send s.hw (b.id x) (b.id !x) m).2 (b.id x) (b.id !x)).filter (·.isAsync) = [m] ∧
      (fly (hw.send s.hw (b.id x) (b.id !x) m).2 (b.id x) (b.id !x)).filter (·.isAck) =
        (fly s.hw (b.id x) (b.id !x)).filter (·.isAck) ∧
      fly (hw.send s.hw (b.id x) (b.id !x) m).2 (b.id !x) (b.id x) = fly s.hw (b.id !x) (b.id x) := by
  have hlen := h.length_le_one hl hleg
  obtain ⟨hok, hg⟩ := h.send_room L m hlen
  have hack : m.isAck = false := by
    cases ha : m.isAck
    · rfl
    · rw [MailboxData.isAsync_of_isAck ha] at hm; cases hm
  have hf := L.send_ok h.inv.wf hg hok
  refine ⟨hok, ?_, ?_, ?_⟩
  · rw [hf, if_pos ⟨rfl, rfl⟩, List.filter_append, hl.cmds, hleg]
    simp [hm]
  · rw [hf, if_pos ⟨rfl, rfl⟩]
    exact filter_append_neg hack
  · rw [hf, if_neg fun hne => b.id_ne x hne.1.symm]

theorem DeliveryOk.transmit (L : hw.Laws fly Wf Good) (h : AsyncInv b fly Wf Good s) {leg : Leg}
    (hl : LegOk b fly s x (!x) leg) (hleg : leg.cmds = []) {c : Chnl H} (hh : c.hw = s.hw) {i : Nat}
    (hi : i < b.chnlNum)
    (hd : Delivery (b.cfg x) (b.id !x) b.chnlNum c (s.view !x).trace []
      ((fly s.hw (b.id !x) (b.id x)).filter (·.isAck) ++ (s.isr !x).reply))
    (hb : (c.logChnlCb (b.id !x) i).txState = .busy) (hp : (c.phyChnlXCb (b.id !x)).txState = .busy)
    (htr : ∀ i, deliveredFrom (b.id !x) i c.trace = deliveredFrom (b.id !x) i (s.view x).trace)
    (hd' : DeliveryOk b fly s (!x) x) {r : RxIsr} (hr : r.reply = (s.isr x).reply) :
    DeliveryOk b fly (s.put x (c.transmitted (b.cfg x) hw.send (b.id !x) i) r) x (!x) ∧
      DeliveryOk b fly (s.put x (c.transmitted (b.cfg x) hw.send (b.id !x) i) r) (!x) x := by
  have hm : (txCmdOf (b.cfg x) c (b.id !x) i).isAsync = true := (isAsync_of_ctrl (by simp [txCmdOf])).1
  obtain ⟨-, h1, h2, h3⟩ := h.send_ok L hl hleg hm
  have hhw : (c.transmitted (b.cfg x) hw.send (b.id !x) i).hw =
      (hw.send s.hw (b.id x) (b.id !x) (txCmdOf (b.cfg x) c (b.id !x) i)).2 := by
    simp [Chnl.transmitted, Chnl.transmit, hh, Board.id]
  constructor
  · refine deliveryOk_put (Bool.not_ne_self x) (hd.transmitted (fun j hj => b.valid hj) hi hb hp) ?_ ?_
    · rw [hhw, h1]
    · rw [hhw, h3]
  · refine deliveryOk_put_other (Bool.not_ne_self x) (hd'.congr rfl rfl (fun _ => rfl) (fun _ => rfl) fun j => ?_) ?_ ?_
    · simp only [Chnl.transmitted, Chnl.transmit, Chnl.note_trace, Chnl.updLog_trace, Chnl.updPhy_trace,
        deliveredFrom_snoc, Event.delivered?, Option.toList_none, List.append_nil]
      exact htr j
    · rw [hhw, h3]
    · rw [hhw, h2, hr]

section
variable (L : hw.Laws fly Wf Good) (h : AsyncInv b fly Wf Good s) (hd : DeliveryOk b fly s x (!x))
  (hd' : DeliveryOk b fly s (!x) x)
include L h hd hd'

theorem DeliveryOk.write (l : BitVec 8) (m : MailboxData) :
    DeliveryOk b fly (s.put x (mbChnlWrite (b.cfg x) hw.send id l m (s.view x)).2 (s.isr x)) x (!x) ∧
      DeliveryOk b fly (s.put x (mbChnlWrite (b.cfg x) hw.send id l m (s.view x)).2 (s.isr x)) (!x) x := by
  have hside := h.inv.side x
  obtain ⟨-, ⟨leg, hl⟩, -⟩ := (h.inv.legs h.good).toward x
  have hw' := mbChnlWrite_step (b.cfg x) hw.send l m (s.view x)
  generalize mbChnlWrite (b.cfg x) hw.send id l m (s.view x) = r at hw'
  cases hw' with
  | refused => rw [Link.put_view]; exact ⟨hd, hd'⟩
  | queued hl' hv hu hi hb =>
    obtain rfl := hside.eq_peer hu
    constructor
    · exact deliveryOk_put (Bool.not_ne_self x) (hd.accepted hi rfl hb rfl) rfl rfl
    · refine deliveryOk_put_other (Bool.not_ne_self x)
        (hd'.congr rfl rfl (fun _ => rfl) (fun _ => rfl) fun j => ?_) rfl rfl
      simp [Chnl.accepted, Event.delivered?]
  | @sent p i hl' hv hu hi hb =>
    obtain rfl := hside.eq_peer hu
    have hidle := LegInv.leg_eq_idle hl hb
    have hleg : leg.cmds = [] := by rw [hidle]; rfl
    rw [hside.started]
    refine DeliveryOk.transmit L h hl hleg rfl (b.chnlNum_eq x ▸ hv.idx) ?_ ?_ ?_ (fun j => ?_) hd' rfl
    · have hacc : Delivery (b.cfg x) (b.id !x) b.chnlNum
          (((s.view x).accepted (b.id !x) i m).setTxState (b.id !x) .busy) (s.view !x).trace _ _ :=
        hd.accepted hi rfl (by simp [Chnl.setTxState]) rfl
      rwa [hl.cmds, hleg] at hacc
    · simp [Chnl.setTxState, Chnl.accepted]
    · simp [Chnl.setTxState]
    · simp [Chnl.setTxState, Chnl.accepted, Event.delivered?]
  | @failed p i hl' hv hu hi hb ht =>
    -- the mailbox has room, so the send cannot fail
    obtain rfl := hside.eq_peer hu
    have hidle := LegInv.leg_eq_idle hl hb
    have hleg : leg.cmds = [] := by rw [hidle]; rfl
    rw [hside.started] at ht
    exact absurd (h.send_ok L hl hleg (isAsync_of_ctrl (by simp [txCmdOf])).1).1 ht

theorem DeliveryOk.ackExit {p : Nat} (hx : s.isr x = .ackExit p) :
    DeliveryOk b fly (s.put x (mbPhyChnlRxAckIsrExit (b.cfg x) hw.send id p (s.view x)) .idle) x (!x) ∧
      DeliveryOk b fly (s.put x (mbPhyChnlRxAckIsrExit (b.cfg x) hw.send id p (s.view x)) .idle) (!x) x := by
  obtain ⟨-, ⟨leg, hl⟩, -⟩ := (h.inv.legs h.good).toward x
  obtain ⟨rfl, rfl⟩ := hl.done_of_isr hx
  have hbusy := hl.busy.2 (by simp)
  have hreply : RxIsr.idle.reply = (s.isr x).reply := by rw [hx]; rfl
  have hw' := mbPhyChnlRxAckIsrExit_step (b.cfg x) hw.send (b.peer x) (s.view x)
  generalize mbPhyChnlRxAckIsrExit (b.cfg x) hw.send id (b.id !x) (s.view x) = c at hw'
  cases hw' with
  | none hi =>
    rw [b.chnlNum_eq] at hi
    constructor
    · exact deliveryOk_put (Bool.not_ne_self x) (hd.setIdle hi) rfl rfl
    · refine deliveryOk_put_other (Bool.not_ne_self x) hd' rfl ?_
      rw [hreply]; rfl
  | @sent i hv hb ht =>
    refine DeliveryOk.transmit L h hl rfl rfl (b.chnlNum_eq x ▸ hv.idx) ?_ hb hbusy (fun _ => rfl) hd' hreply
    have := hd
    unfold DeliveryOk at this
    rwa [hl.cmds] at this
  | failed hv hb ht => exact absurd (h.send_ok L hl rfl (isAsync_of_ctrl (by simp [txCmdOf])).1).1 ht

theorem DeliveryOk.cmdExit {p : Nat} {a : MailboxData}
    (hx : s.isr x = .cmdExit p a) :
    DeliveryOk b fly (s.put x (mbPhyChnlRxCmdIsrExit (b.cfg x) hw.send p a (s.view x)) .idle) x (!x) ∧
      DeliveryOk b fly (s.put x (mbPhyChnlRxCmdIsrExit (b.cfg x) hw.send p a (s.view x)) .idle) (!x) x := by
  obtain ⟨-, -, ⟨l₂, h₂⟩⟩ := (h.inv.legs h.good).toward x
  obtain ⟨rfl, rfl⟩ : p = b.id !x ∧ l₂ = .reply a := (h₂.reply p a).1 hx
  have hack : a.isAck := h₂.ack a rfl
  obtain ⟨hg, -⟩ := h.sendAck L hx
  have hok := L.send_ack h.inv.wf (b.id_lt !x) hack hg
  have hf := L.send_ok h.inv.wf hg hok
  have hframe : (mbPhyChnlRxCmdIsrExit (b.cfg x) hw.send (b.id !x) a (s.view x)) =
      (s.view x).setHw (hw.send s.hw (b.id x) (b.id !x) a).2 := by
    unfold mbPhyChnlRxCmdIsrExit
    exact if_neg (not_not.2 hok)
  have hyx : fly (hw.send s.hw (b.id x) (b.id !x) a).2 (b.id !x) (b.id x) = fly s.hw (b.id !x) (b.id x) := by
    rw [hf, if_neg fun hne => b.id_ne x hne.1.symm]
  rw [hframe]
  constructor
  · refine deliveryOk_put (Bool.not_ne_self x) (hd.congr rfl rfl (fun _ => rfl) (fun _ => rfl) fun _ => rfl) ?_ ?_
    · rw [Chnl.setHw_hw, hf, if_pos ⟨rfl, rfl⟩]
      exact filter_append_neg (MailboxData.isAsync_of_isAck hack)
    · rw [Chnl.setHw_hw, hyx]
  · refine deliveryOk_put_other (Bool.not_ne_self x) hd' ?_ ?_
    · rw [Chnl.setHw_hw, hyx]
    · -- the ACK moves from the interrupt into the mailbox
      rw [Chnl.setHw_hw, hf, if_pos ⟨rfl, rfl⟩, List.filter_append, hx]
      simp [RxIsr.reply, hack]

end

theorem DeliveryOk.rxAck (hd : DeliveryOk b fly s x (!x)) (hd' : DeliveryOk b fly s (!x) x)
    (hx : s.isr x = .idle) {a : MailboxData} {h' : H} (hl : LegOk b fly s x (!x) (.ack a)) (ha : a.isAck)
    (hhd : fly s.hw (b.id !x) (b.id x) = a :: fly h' (b.id !x) (b.id x))
    (hxy : fly h' (b.id x) (b.id !x) = fly s.hw (b.id x) (b.id !x)) (rsp : MailboxData) :
    ∃ r c, mbPhyChnlRxIsr (b.cfg x) a rsp ((s.view x).setHw h') = (r, c) ∧
      DeliveryOk b fly (s.put x c r) x (!x) ∧ DeliveryOk b fly (s.put x c r) (!x) x := by
  obtain ⟨i, hv, hlog⟩ := hl.chnl (by simp)
  obtain ⟨h1, h2⟩ := hl.hdr a (by simp [Leg.msgs])
  have hi : i < b.chnlNum := b.chnlNum_eq x ▸ hv.idx
  have hbox : a.hdr.ctrl &&& chnlCtrlAckBox ≠ 0 := by simpa [MailboxData.isAck] using ha
  have hacks := hl.acks
  have hreply : (s.isr !x).reply = [] := by
    cases ho : s.isr !x with
    | cmdExit p a' => exact absurd ho (hl.other_ne (by simp) p a')
    | idle | ackExit => rfl
  unfold DeliveryOk at hd
  rw [hacks, hreply] at hd
  have hcmpl : Delivery (b.cfg x) (b.id !x) b.chnlNum ((s.view x).note (.txCmplIsr (b.id !x) i
      (a.setHdr { a.hdr with logicalChnl := 0, txSeq := 0, ctrl := 0 }))) _ _ _ :=
    hd.complete (fun j hj => b.valid hj) hi (h1.trans hlog) (by simp)
  have hres := mbPhyChnlRxAckIsr_matches (b.cfg x) (s := (s.view x).setHw h')
    ⟨hv, h1.trans hlog, hlog, h2.symm⟩ (hd.used i hi).2.2
  refine ⟨_, _, (if_pos hbox).trans hres, ?_, ?_⟩
  · refine deliveryOk_put (Bool.not_ne_self x) (hcmpl.congr rfl rfl (fun _ => rfl) (fun _ => rfl) fun _ => rfl) ?_ ?_
    · rw [Chnl.note_hw, Chnl.setHw_hw, hxy]
    · rw [hhd, List.filter_cons_of_pos ha] at hacks
      rw [Chnl.note_hw, Chnl.setHw_hw, hreply]
      simpa [Leg.acks] using hacks
  · refine deliveryOk_put_other (Bool.not_ne_self x)
      (hd'.congr rfl rfl (fun _ => rfl) (fun _ => rfl) fun j => ?_) ?_ ?_
    · simp [Event.delivered?]
    · rw [hhd]; simp [MailboxData.isAsync_of_isAck ha]
    · rw [Chnl.note_hw, Chnl.setHw_hw, hxy, hx]; rfl

theorem DeliveryOk.rxCmd (hd : DeliveryOk b fly s x (!x)) (hd' : DeliveryOk b fly s (!x) x)
    (hx : s.isr x = .idle) {m : MailboxData} {h' : H} (hl : LegOk b fly s (!x) x (.cmd m)) (hm : m.isAsync)
    (hhd : fly s.hw (b.id !x) (b.id x) = m :: fly h' (b.id !x) (b.id x))
    (hxy : fly h' (b.id x) (b.id !x) = fly s.hw (b.id x) (b.id !x)) (rsp : MailboxData) :
    ∃ r c, mbPhyChnlRxIsr (b.cfg x) m rsp ((s.view x).setHw h') = (r, c) ∧
      DeliveryOk b fly (s.put x c r) x (!x) ∧ DeliveryOk b fly (s.put x c r) (!x) x := by
  have hvalid : ∀ j, j < b.chnlNum → (b.cfg !x).Valid (b.id x) j := fun j hj => by
    have hv : (b.cfg !x).Valid (b.id !!x) j := b.valid hj
    rwa [Bool.not_not] at hv
  have hnum : (b.cfg !x).logChnlNum (b.id x) = b.chnlNum := by
    have hn := b.chnlNum_eq !x
    rwa [Bool.not_not] at hn
  obtain ⟨i, hv, hlog⟩ := hl.chnl (by simp)
  obtain ⟨h1, h2⟩ := hl.hdr m (by simp [Leg.msgs])
  have hi : i < b.chnlNum := hnum ▸ hv.idx
  have hctrl : m.hdr.ctrl &&& chnlCtrlAckBox = 0 ∧ m.hdr.ctrl &&& chnlCtrlSyncTx = 0 := by
    simpa [MailboxData.isAsync, MailboxData.isAck] using hm
  have hack : m.isAck = false := by simp [MailboxData.isAck, hctrl.1]
  unfold DeliveryOk at hd'
  rw [hl.cmds, hl.acks, hx] at hd'
  have hdel : Delivery (b.cfg !x) (b.id x) b.chnlNum (s.view !x) ((s.view x).trace ++
      [.rxIsr (b.id !x) i (m.setHdr { m.hdr with logicalChnl := 0, txSeq := 0, ctrl := 0, state := 0 })])
      [] [ackOf m rsp] :=
    hd'.deliver hvalid hi (h1.trans hlog) (by simp [MailboxData.payload]) (by simp [ackOf]) (by simp [ackOf])
  have hres := mbPhyChnlRxCmdIsr_eq (b.cfg x) rsp (s := (s.view x).setHw h') (b.peer x)
    (b.chnlNum_eq x ▸ hi) (h1.trans hlog) (hd.used i hi).2.1
  rw [if_neg (by simp [hctrl.2])] at hres
  refine ⟨_, _, (if_neg (by simp [hctrl.1])).trans hres, ?_, ?_⟩
  · refine deliveryOk_put (Bool.not_ne_self x)
      (hd.congr rfl rfl (fun j => ?_) (fun j => ?_) fun _ => rfl) ?_ ?_
    · simp [Event.written?]
    · simp [Event.completed?]
    · rw [Chnl.note_hw, Chnl.setHw_hw, hxy]
    · rw [hhd]; simp [hack]
  · refine deliveryOk_put_other (Bool.not_ne_self x) hdel ?_ ?_
    · have hcmds := hl.cmds
      rw [hhd, List.filter_cons_of_pos hm] at hcmds
      simpa [Leg.cmds] using hcmds
    · rw [Chnl.note_hw, Chnl.setHw_hw, hxy, hl.acks]; rfl

theorem DeliveryOk.rx (L : hw.Laws fly Wf Good) (h : AsyncInv b fly Wf Good s)
    (hd : DeliveryOk b fly s x (!x)) (hd' : DeliveryOk b fly s (!x) x) (hx : s.isr x = .idle)
    {src : Nat} {m : MailboxData} {h' : H} (hc : hw.copy s.hw (b.id x) = some (src, m, h')) (rsp : MailboxData) :
    ∃ r c, mbPhyChnlRxIsr (b.cfg x) m rsp ((s.view x).setHw h') = (r, c) ∧
      DeliveryOk b fly (s.put x c r) x (!x) ∧ DeliveryOk b fly (s.put x c r) (!x) x := by
  have hlegs := (h.inv.legs h.good).toward x
  obtain ⟨hhd, htl⟩ := hlegs.copy L (Bool.not_ne_self x) h.inv.wf h.good hc
  have hxy : fly h' (b.id x) (b.id !x) = fly s.hw (b.id x) (b.id !x) := htl _ _ fun he => b.id_ne x he.1
  obtain ⟨-, ⟨l₁, h₁⟩, ⟨l₂, h₂⟩⟩ := hlegs
  have h₁' := h₁
  have h₂' := h₂
  unfold LegOk at h₁' h₂'
  rw [hhd] at h₁' h₂'
  rcases h.kinds (b.id !x) (b.id x) m (by simp [hhd]) with hm | hm
  · obtain rfl := h₂'.leg_eq_cmd hm
    exact DeliveryOk.rxCmd hd hd' hx h₂ hm hhd hxy rsp
  · obtain rfl := h₁'.leg_eq_ack hm
    exact DeliveryOk.rxAck hd hd' hx h₁ hm hhd hxy rsp

variable (b fly Wf Good) in
structure DeliveryInv (s : Link H) : Prop where
  async : AsyncInv b fly Wf Good s
  dir : ∀ x, DeliveryOk b fly s x (!x)

def ApiCall.isWrite : ApiCall → Bool
  | .write _ _ => true
  | _ => false

theorem ApiCall.isWrite_async {b : Board} {x : Bool} {a : ApiCall} (h : a.isWrite) : b.asyncTowards x a := by
  cases a with
  | write => rfl
  | openChnl | close | ctrl | setExceptionMode => cases h

theorem DeliveryInv.step (L : hw.Laws fly Wf Good) {t : Link H} (h : DeliveryInv b fly Wf Good s) {a : LinkAct}
    (ha : a.all (fun _ => ApiCall.isWrite) = true) (hs : FlatStep b hw s a t) : DeliveryInv b fly Wf Good t := by
  refine ⟨h.async.step L (LinkAct.all_mono (fun _ _ => ApiCall.isWrite_async) ha) hs, ?_⟩
  -- a step of `x` is checked for both directions of the link
  have hboth : ∀ {t : Link H} (x : Bool), DeliveryOk b fly t x (!x) ∧ DeliveryOk b fly t (!x) x →
      ∀ z, DeliveryOk b fly t z (!z) := by
    intro t x ht z
    cases x <;> cases z
    exacts [ht.1, ht.2, ht.2, ht.1]
  have hback : ∀ x, DeliveryOk b fly s (!x) x := fun x => by
    have := h.dir !x
    rwa [Bool.not_not] at this
  cases hs with
  | call x c =>
    cases c with
    | write l m => exact hboth x (DeliveryOk.write L h.async (h.dir x) (hback x) l m)
    | openChnl | close | ctrl | setExceptionMode => simp [LinkAct.all, ApiCall.isWrite] at ha
  | pop hx hc =>
    intro z
    have := h.dir z
    unfold DeliveryOk at this ⊢
    rw [← L.pop_fly hc] at this
    exact this.congr rfl rfl (fun _ => rfl) (fun _ => rfl) fun _ => rfl
  | @rx x rsp a m h' hx hc =>
    obtain ⟨r, c, hr, hd⟩ := DeliveryOk.rx L h.async (h.dir x) (hback x) hx hc rsp
    rw [hr]
    exact hboth x hd
  | @ackExit x p hx => exact hboth x (DeliveryOk.ackExit L h.async (h.dir x) (hback x) hx)
  | @cmdExit x p a hx => exact hboth x (DeliveryOk.cmdExit L h.async (h.dir x) (hback x) hx)

variable (b fly) in
/-- Both CPUs have opened all channels to each other, with an `rx_isr` and a `tx_cmpl_isr`, and nothing
was written or received yet. -/
structure Opened (s : Link H) : Prop where
  start : Started b fly s
  chnl : ∀ x i, i < b.chnlNum → ((s.view x).logChnlCb (b.id !x) i).inUsed = true ∧
    ((s.view x).logChnlCb (b.id !x) i).rxIsr.isSome = true ∧
    ((s.view x).logChnlCb (b.id !x) i).txCmplIsr.isSome = true ∧
    ((s.view x).logChnlCb (b.id !x) i).txState = .idle
  trace : ∀ x, ∀ e ∈ (s.view x).trace, ∃ p i, e = .opened p i

variable (b fly) in
structure Quiescent (s : Link H) : Prop where
  fly : ∀ x, fly s.hw (b.id x) (b.id !x) = []
  isr : ∀ x, s.isr x = .idle

theorem filterMap_eq_nil_of_opened {α : Type} {f : Event → Option α} {tr : List Event}
    (h : ∀ e ∈ tr, ∃ p i, e = .opened p i) (hf : ∀ p i, f (.opened p i) = none) : tr.filterMap f = [] := by
  refine List.filterMap_eq_nil_iff.2 fun e he => ?_
  obtain ⟨p, i, rfl⟩ := h e he
  exact hf p i

theorem Opened.deliveryInv (h : Opened b fly s) (hwf : Wf s.hw) (hg : Good s.hw) : DeliveryInv b fly Wf Good s := by
  refine ⟨h.start.asyncInv hwf hg, fun x => ?_⟩
  have hd : ∀ p i, deliveredFrom p i (s.view !x).trace = [] := fun p i =>
    filterMap_eq_nil_of_opened (h.trace !x) fun _ _ => rfl
  refine ⟨fun i hi => ?_, fun _ i hi => (h.chnl x i hi).2.2.2, fun i hi => ?_, fun i hi => ?_⟩
  · exact ⟨(h.chnl x i hi).1, (h.chnl x i hi).2.1, (h.chnl x i hi).2.2.1⟩
  · rw [hd, h.start.fly, writtenTo, filterMap_eq_nil_of_opened (h.trace x) fun _ _ => rfl]
    simp [Chnl.pending, (h.chnl x i hi).2.2.2]
  · rw [hd, h.start.fly, h.start.isr, completedTo, filterMap_eq_nil_of_opened (h.trace x) fun _ _ => rfl]
    rfl

theorem DeliveryInv.run (L : hw.Laws fly Wf Good) {s₀ : Link H} (h₀ : Opened b fly s₀) (hwf : Wf s₀.hw)
    (hg : Good s₀.hw) (hr : Run (Link.step b hw) (fun _ a => a.all (fun _ => ApiCall.isWrite) = true) s₀ s) :
    DeliveryInv b fly Wf Good s :=
  (Link.run_flat hr).invariant (h₀.deliveryInv hwf hg) fun _ _ _ _ h hok hs =>
    h.step L hok.2 (Link.flatStep hok.1 hs)

theorem DeliveryInv.quiet (h : DeliveryInv b fly Wf Good s) (hq : Quiescent b fly s) (x : Bool) {i : Nat}
    (hi : i < b.chnlNum) : deliveredFrom (b.id x) i (s.view !x).trace = writtenTo (b.id !x) i (s.view x).trace ∧
      completedTo (b.id !x) i (s.view x).trace = (writtenTo (b.id !x) i (s.view x).trace).map (·.1) := by
  obtain ⟨-, ⟨leg, hl⟩, -⟩ := (h.async.inv.legs h.async.good).toward x
  have hback : fly s.hw (b.id !x) (b.id x) = [] := by
    have := hq.fly !x
    rwa [Bool.not_not] at this
  -- with nothing in flight and idle interrupts the exchange is in no phase
  have hleg : leg = .idle := by
    have h1 := hl.cmds
    have h2 := hl.acks
    have h3 := hl.reply
    have h4 := hl.done (b.id !x)
    rw [hq.fly] at h1
    rw [hback] at h2
    rw [hq.isr] at h4
    cases leg with
    | idle => rfl
    | cmd => cases h1
    | ack => cases h2
    | done => exact absurd (h4.2 ⟨rfl, rfl⟩) (by simp)
    | reply a =>
      have := (h3 (b.id x) a).2 ⟨rfl, rfl⟩
      rw [hq.isr] at this; cases this
  have hidle : ((s.view x).phyChnlXCb (b.id !x)).txState = .idle := by
    cases hp : ((s.view x).phyChnlXCb (b.id !x)).txState with
    | idle => rfl
    | busy => exact absurd hleg (hl.busy.1 hp)
  have hd := h.dir x
  unfold DeliveryOk at hd
  rw [hq.fly, hback, hq.isr] at hd
  exact Delivery.quiet hd hidle hi

end

/-! ### The lossless mailbox -/

abbrev Lossless := Nat → List (Nat × MailboxData)

def lossless : Hw Lossless where
  send h src dst m := (.ok, Function.update h dst (h dst ++ [(src, m)]))
  pop _ _ := none
  copy h cpu :=
    match h cpu with
    | [] => none
    | (src, m) :: rest => some (src, m, Function.update h cpu rest)

def Lossless.fly (h : Lossless) (src dst : Nat) : List MailboxData :=
  ((h dst).filter (·.1 = src)).map (·.2)

theorem lossless_laws : lossless.Laws Lossless.fly (fun _ => True) fun _ => True where
  send_wf _ := trivial
  pop_wf _ _ := trivial
  copy_wf _ _ := trivial
  send_good _ := trivial
  pop_good _ := Iff.rfl
  copy_good _ := Iff.rfl
  send_ok := by
    intro h a b m _ _ _ c d
    by_cases hd : d = b
    · subst hd
      by_cases hc : c = a
      · subst hc; simp [lossless, Lossless.fly, List.filter_append]
      · have hca : ¬ a = c := fun h => hc h.symm
        simp [lossless, Lossless.fly, List.filter_append, hc, hca]
    · simp [lossless, Lossless.fly, hd]
  send_err h := absurd rfl h
  send_ack _ _ _ _ := rfl
  send_room _ _ _ _ _ := ⟨rfl, trivial⟩
  pop_fly h := by cases h
  copy_fly := by
    intro h c a m h' _ _ hc
    simp only [lossless] at hc
    split at hc
    · cases hc
    · rename_i src m' rest hh
      cases hc
      refine ⟨by simp [Lossless.fly, hh], fun d e hde => ?_⟩
      by_cases he : e = c
      · subst he
        have hd : ¬ a = d := fun h => hde ⟨h.symm, rfl⟩
        simp [Lossless.fly, hh, hd]
      · simp [Lossless.fly, he]

/-- Over a lossless, in-order, never full path: what the peer's `rx_isr` got is the beginning of what was accepted, and
in a quiet state all of it, each completed once. -/
theorem delivered_once (b : Board) {s₀ s : Link Lossless} (h₀ : Opened b Lossless.fly s₀)
    (hr : Run (Link.step b lossless) (fun _ a => a.all (fun _ => ApiCall.isWrite) = true) s₀ s) (x : Bool)
    {i : Nat} (hi : i < b.chnlNum) :
    deliveredFrom (b.id x) i (s.chnl !x).trace <+: writtenTo (b.id !x) i (s.chnl x).trace ∧
      (Quiescent b Lossless.fly s →
        deliveredFrom (b.id x) i (s.chnl !x).trace = writtenTo (b.id !x) i (s.chnl x).trace ∧
        completedTo (b.id !x) i (s.chnl x).trace = (writtenTo (b.id !x) i (s.chnl x).trace).map (·.1)) := by
  have h := DeliveryInv.run lossless_laws h₀ trivial trivial hr
  have hpre : deliveredFrom (b.id x) i (s.view !x).trace <+: writtenTo (b.id !x) i (s.view x).trace :=
    Delivery.delivered_of_written (h.dir x) hi
  exact ⟨hpre, fun hq => h.quiet hq x hi⟩

/-- CPU0 with the tables of `mailbox_channel.h` seen from its side: 15 channels to CPU1. -/
def cpCfg : ChnlCfg where
  selfCpu := 0
  logChnlNum c := if c = 1 then 15 else 1
  selfCpu_lt := by decide
  logChnlNum_le c := by split <;> decide

def apBoard : Board where
  cfg x := if x then apCfg else cpCfg
  ne := by decide
  num := by decide

def openedLink {H : Type} (b : Board) (h : H) : Link H where
  chnl x := ⟨fun _ => {}, fun p i => if p = b.id (!x) ∧ i < b.chnlNum then
    { inUsed := true, rxIsr := some 1, txIsr := some 2, txCmplIsr := some 3 } else {}, true, (), []⟩
  isr _ := .idle
  hw := h

theorem opened_openedLink {H : Type} (b : Board) (fly : H → (src dst : Nat) → List MailboxData) (h : H)
    (hf : ∀ p q, fly h p q = []) : Opened b fly (openedLink b h) where
  start := ⟨fun x => ⟨rfl, rfl, fun p i hp => by simp [openedLink, Link.view, hp]⟩, fun _ => rfl, fun _ => rfl, hf⟩
  chnl x i hi := by simp [openedLink, Link.view, hi]
  trace _ e he := by cases he

def twoWrites : List LinkAct :=
  [.call true (.write (logChnlOf 1 0 2) ⟨7, 1, 2, 3⟩) (.call (.write (logChnlOf 1 0 5) ⟨8, 4, 5, 6⟩) .done .done),
    .rx false ⟨0, 0, 0, 0⟩, .exit false .done, .rx true ⟨0, 0, 0, 0⟩, .exit true .done,
    .rx false ⟨0, 0, 0, 0⟩, .exit false .done, .rx true ⟨0, 0, 0, 0⟩, .exit true .done]

theorem delivered_once_twoWrites : ∃ s : Link Lossless,
    Run (Link.step apBoard lossless) (fun _ a => a.all (fun _ => ApiCall.isWrite) = true)
      (openedLink apBoard fun _ => []) s ∧
    deliveredFrom 1 2 (s.chnl false).trace = [(7, 1, 2, 3)] ∧ completedTo 0 2 (s.chnl true).trace = [7] ∧
    deliveredFrom 1 5 (s.chnl false).trace = [(8, 4, 5, 6)] ∧ completedTo 0 5 (s.chnl true).trace = [8] := by
  refine Run.of_exec_imp (p := fun s => (∀ x, s.hw.fly (apBoard.id x) (apBoard.id !x) = []) ∧ (∀ x, s.isr x = .idle) ∧
    writtenTo 0 2 (s.chnl true).trace = [(7, 1, 2, 3)] ∧ writtenTo 0 5 (s.chnl true).trace = [(8, 4, 5, 6)])
    twoWrites (by decide) ?_
  rintro s hr ⟨hf, hi, h2, h5⟩
  have hopen : Opened apBoard Lossless.fly (openedLink apBoard fun _ => []) :=
    opened_openedLink _ _ _ fun _ _ => rfl
  obtain ⟨hd2, hc2⟩ := (delivered_once apBoard hopen hr true (i := 2) (by decide)).2 ⟨hf, hi⟩
  obtain ⟨hd5, hc5⟩ := (delivered_once apBoard hopen hr true (i := 5) (by decide)).2 ⟨hf, hi⟩
  exact ⟨hd2.trans h2, hc2.trans (by rw [show apBoard.id (!true) = 0 from rfl, h2]; rfl),
    hd5.trans h5, hc5.trans (by rw [show apBoard.id (!true) = 0 from rfl, h5]; rfl)⟩

end Bk7258

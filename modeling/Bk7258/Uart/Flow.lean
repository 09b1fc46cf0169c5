import Bk7258.Uart.Link

/-!
# No byte is lost

`Dir A B` is about the data from `A` to `B`: what was sent has arrived or is in the exchange buffer, and `A` starts
to send only while `ctrl_rts` of `B` is 0. The steps of `A` and of `B` keep it, as long as a command that allows `A`
to send comes while `B` still does.
-/

namespace Bk7258
open Lts Ring Function

namespace UartEnd
variable {T : Type}

def Pending (A B : UartEnd T) (tk : Bool) (k : MbUartCmd) : Prop :=
  A.cb.written = some k ∧ k.cmd = .sendData ∧ (tk = false ∨ (B.pc none).unstored = true)

/-- The data from `A` to `B`: `tk` is set when the handler of `B` was called for the command of `A`, `rs` is the
response on the way. While `A` may start to send, `B` has room. -/
structure Dir (A B : UartEnd T) (tk : Bool) (rs : Option MbUartRsp) : Prop where
  handled : ∀ k, (B.pc none).handled = some k → tk = true ∧ rs = none ∧ A.cb.written = some k
  data : ∀ k, (B.pc none).handledData = some k → k.cmd = .sendData
  answered : ∀ r, (B.pc none).answer = some r → tk = true ∧ rs = none
  taken : tk = true → A.cb.written.isSome = true
  rsp : rs.isSome = true → tk = true
  place : ∀ t, (A.pc (some t)).completing = none
  past : ∀ c, (A.pc c).pastCts = true → B.cb.ctrlRts = false
  pending : ∀ k, Pending A B tk k → B.cb.ctrlRts = false
  cts : A.cb.statusCts = false → (∀ k, A.cb.written = some k → k.cmd ≠ .sendData) → (A.pc none).completing = none →
    B.cb.ctrlRts = false
  answer : ∀ r, (B.pc none).answer = some r ∨ rs = some r ∨ (A.pc none).completing = some r → r.uartRts = false →
    B.cb.ctrlRts = false
  copied : ∀ k bytes store freeCnt, B.pc none = .rxIdx k bytes store freeCnt →
    bytes = slice A.cb.txXchgBuff 0 k.cmdDataLen
  wire : ∀ k, Pending A B tk k → A.cb.sent = B.cb.arrived ++ slice A.cb.txXchgBuff 0 k.cmdDataLen
  quiet : (∀ k, ¬ Pending A B tk k) → A.cb.sent = B.cb.arrived

namespace Dir
variable {A B : UartEnd T} {tk : Bool} {rs : Option MbUartRsp} {c : Option T} {cb : MbUartCb} {p : UartPc}

theorem sent_arrived (h : Dir A B tk rs) : B.cb.arrived <+: A.cb.sent := by
  by_cases hp : ∃ k, Pending A B tk k
  · obtain ⟨k, hk⟩ := hp
    exact ⟨_, (h.wire k hk).symm⟩
  · rw [h.quiet fun k hk => hp ⟨k, hk⟩]

variable {r : MbUartRsp}

theorem owns_of_completing (h : p.completing = some r) : p.owns := by
  cases p <;> first | rfl | cases h

theorem owns_of_pastCts (h : p.pastCts) : p.owns := by
  cases p <;> first | rfl | cases h

variable {k : MbUartCmd}

theorem not_owns (hA : A.Holder) (hk : A.cb.written = some k) (c : Option T) : (A.pc c).owns = false := by
  by_contra ho
  have hw := (hA.of_owns (by simpa using ho)).2.1
  rw [hk] at hw
  cases hw

theorem not_completing (hA : A.Holder) (hc : (A.pc c).owns) (hcc : (A.pc c).completing = none) :
    (A.pc none).completing = none := by
  by_cases hn : none = c
  · rwa [hn]
  · cases hr : (A.pc none).completing with
    | none => rfl
    | some r =>
      have ho := owns_of_completing hr
      rw [(hA.others hc).1 none hn] at ho
      cases ho

theorem eq_none_of_completing (h : Dir A B tk rs) (hr : (A.pc c).completing ≠ none) : c = none := by
  cases c with
  | none => rfl
  | some t => exact absurd (h.place t) hr

variable [DecidableEq T]

/-! ### The sender -/

theorem completing_of_move (hc : (A.pc c).completing = none)
    (h : ((A.move c cb p).pc none).completing = none) : (A.pc none).completing = none := by
  by_cases hn : none = c
  · rwa [hn]
  · rwa [move_of_ne hn] at h

theorem completing_move (hp : p.completing = none)
    (h : ((A.move c cb p).pc none).completing = some r) : (A.pc none).completing = some r := by
  by_cases hn : none = c
  · subst hn
    rw [move_self, hp] at h
    cases h
  · rwa [move_of_ne hn] at h

theorem sender_move (h : Dir A B tk rs) (hw : cb.written = A.cb.written) (hsent : cb.sent = A.cb.sent)
    (hxchg : cb.txXchgBuff = A.cb.txXchgBuff ∨ A.cb.written = none) (hplace : p.completing = none ∨ c = none)
    (hpast : p.pastCts → B.cb.ctrlRts = false)
    (hcts : cb.statusCts = false → (∀ k, A.cb.written = some k → k.cmd ≠ .sendData) →
      ((A.move c cb p).pc none).completing = none → B.cb.ctrlRts = false)
    (hans : ∀ r, ((A.move c cb p).pc none).completing = some r → (A.pc none).completing = some r) :
    Dir (A.move c cb p) B tk rs where
  handled k hk := by rw [move_cb, hw]; exact h.handled k hk
  data := h.data
  answered := h.answered
  taken htk := by rw [move_cb, hw]; exact h.taken htk
  rsp := h.rsp
  place t := by
    by_cases hc : some t = c
    · subst hc
      rw [move_self]
      exact hplace.resolve_right nofun
    · rw [move_of_ne hc]
      exact h.place t
  past := move_pc (P := fun p => p.pastCts → B.cb.ctrlRts = false) (fun d _ => h.past d) hpast
  pending k hk := h.pending k ⟨hw ▸ hk.1, hk.2⟩
  cts hc hk hn := hcts hc (hw ▸ hk) hn
  answer r hr hrts := h.answer r (hr.imp_right fun hr => hr.imp_right (hans r)) hrts
  copied k bytes store freeCnt hp := by
    have hbytes := h.copied k bytes store freeCnt hp
    rcases hxchg with hx | hnone
    · rw [move_cb, hx]; exact hbytes
    · have := (h.handled k (by rw [hp]; rfl)).2.2
      rw [hnone] at this
      cases this
  wire k hk := by
    have hk' : Pending A B tk k := ⟨hw ▸ hk.1, hk.2⟩
    rcases hxchg with hx | hnone
    · rw [move_cb, hsent, hx]; exact h.wire k hk'
    · have := hk'.1
      rw [hnone] at this
      cases this
  quiet hq := by
    rw [move_cb, hsent]
    exact h.quiet fun k hk => hq k ⟨hw.trans hk.1, hk.2⟩

theorem sender_quiet (h : Dir A B tk rs) (hw : cb.written = A.cb.written) (hsent : cb.sent = A.cb.sent)
    (hxchg : cb.txXchgBuff = A.cb.txXchgBuff ∨ A.cb.written = none) (hcts : cb.statusCts = A.cb.statusCts)
    (hc : (A.pc c).completing = none) (hp : p.completing = none) (hpast : p.pastCts → B.cb.ctrlRts = false) :
    Dir (A.move c cb p) B tk rs :=
  h.sender_move hw hsent hxchg (.inl hp) hpast (fun hs hk hnone => h.cts (hcts ▸ hs) hk (completing_of_move hc hnone))
    fun _ => completing_move hp

theorem sender_write (h : Dir A B tk rs) (hnone : A.cb.written = none) (hw : cb.written = some k)
    (hxchg : cb.txXchgBuff = A.cb.txXchgBuff) (hcts : cb.statusCts = A.cb.statusCts)
    (hsent : cb.sent = A.cb.sent ++ if k.cmd = .sendData then slice A.cb.txXchgBuff 0 k.cmdDataLen else [])
    (hk : k.cmd = .sendData → B.cb.ctrlRts = false) (hp : p.completing = none) (hpast : p.pastCts = false)
    (hc : (A.pc c).completing = none) : Dir (A.move c cb p) B tk rs := by
  have htk : tk = false := by
    by_contra htk
    have := h.taken (by simpa using htk)
    rw [hnone] at this
    cases this
  have hquiet : A.cb.sent = B.cb.arrived := h.quiet fun k hk => by have := hk.1; rw [hnone] at this; cases this
  exact {
    handled := fun k hk => by have := (h.handled k hk).1; rw [htk] at this; cases this
    data := h.data
    answered := h.answered
    taken := fun _ => by rw [move_cb, hw]; rfl
    rsp := h.rsp
    place := fun t => by
      by_cases hct : some t = c
      · subst hct; rwa [move_self]
      · rw [move_of_ne hct]; exact h.place t
    past := move_pc (P := fun p => p.pastCts → B.cb.ctrlRts = false) (fun d _ => h.past d)
      fun ha => by rw [hpast] at ha; cases ha
    pending := fun k' hk' => by
      obtain rfl : k = k' := Option.some.inj (hw.symm.trans hk'.1)
      exact hk hk'.2.1
    cts := fun hs hdata hn => by
      rw [move_cb, hcts] at hs
      exact h.cts hs (fun k hk => by rw [hnone] at hk; cases hk) (completing_of_move hc hn)
    answer := fun r hr hrts => h.answer r (hr.imp_right fun hr => hr.imp_right (completing_move hp)) hrts
    copied := fun k bytes store freeCnt hb => by
      have := (h.handled k (by rw [hb]; rfl)).1
      rw [htk] at this
      cases this
    wire := fun k' hk' => by
      obtain rfl : k = k' := Option.some.inj (hw.symm.trans hk'.1)
      rw [move_cb, hsent, hxchg, if_pos hk'.2.1, hquiet]
    quiet := fun hq => by
      have hne : k.cmd ≠ .sendData := fun hd => hq k ⟨hw, hd, .inl htk⟩
      rw [move_cb, hsent, if_neg hne, List.append_nil, hquiet] }

variable {xchg : Nat → BitVec 8}

theorem sender_next (h : Dir A B tk rs) (hA : A.Holder)
    (hcur : (A.pc c).current B.cb) (hn : A.cb.next xchg (A.pc c) = some (cb, p)) : Dir (A.move c cb p) B tk rs := by
  by_cases hoff : (A.pc c).offSend
  · obtain ⟨hs, hpast, hcc, hp⟩ := MbUartCb.next_offSend hn hoff
    exact h.sender_quiet hs.written hs.sent (.inl hs.xchg) hs.cts hcc hp fun ha => h.past c (hpast ha)
  have hown := hA.of_owns (c := c)
  have hnc := not_completing (c := c) hA
  cases hc : A.pc c with
  | sendCts ret =>
    obtain ⟨-, hw, -⟩ := hown (by rw [hc]; rfl)
    have hcc : (A.pc c).completing = none := by rw [hc]; rfl
    rw [hc] at hn
    cases hn
    have hp : (if A.cb.statusCts = true then ret.failed else UartPc.sendRd ret).completing = none := by
      split
      · simp
      · rfl
    refine h.sender_quiet rfl rfl (.inl rfl) rfl hcc hp fun hpast => ?_
    cases hcts : A.cb.statusCts with
    | true => simp [hcts] at hpast
    | false =>
      exact h.cts hcts (fun k hk => by rw [hw] at hk; cases hk) (hnc (by rw [hc]; rfl) hcc)
  | sendWr ret rd =>
    obtain ⟨-, hw, -⟩ := hown (by rw [hc]; rfl)
    have hcc : (A.pc c).completing = none := by rw [hc]; rfl
    have hpast := h.past c (by rw [hc]; rfl)
    rw [hc] at hn
    simp only [MbUartCb.next] at hn
    split at hn <;> cases hn
    · exact h.sender_quiet rfl rfl (.inl rfl) rfl hcc (by simp) fun _ => hpast
    · exact h.sender_quiet rfl rfl (.inr hw) rfl hcc rfl fun _ => hpast
  | sendData ret rd len =>
    obtain ⟨-, hw, -⟩ := hown (by rw [hc]; rfl)
    have hpast := h.past c (by rw [hc]; rfl)
    have hcc : (A.pc c).completing = none := by rw [hc]; rfl
    rw [hc] at hn
    simp only [MbUartCb.next, hw] at hn
    cases hn
    exact h.sender_write hw rfl rfl rfl rfl (fun _ => hpast) rfl rfl hcc
  | sendState ret =>
    obtain ⟨-, hw, -⟩ := hown (by rw [hc]; rfl)
    have hcc : (A.pc c).completing = none := by rw [hc]; rfl
    rw [hc] at hn
    simp only [MbUartCb.next, hw] at hn
    cases hn
    exact h.sender_write hw rfl rfl rfl (List.append_nil _).symm (fun hd => by cases hd) (by simp) (by simp) hcc
  | rxCts k txFail =>
    have hcc : (A.pc c).completing = none := by rw [hc]; rfl
    rw [hc] at hn hcur
    cases hn
    have hp : (if (A.cb.statusCts && !k.uartRts) = true then UartPc.dataTrigger (.rxIsr ⟨A.cb.ctrlRts, txFail⟩)
        else .rxRsp ⟨A.cb.ctrlRts, txFail⟩).completing = none := by split <;> rfl
    refine h.sender_move rfl rfl (.inl rfl) (.inl hp) (fun hpast => ?_) (fun hcts _ _ => ?_) fun r => completing_move hp
    · split at hpast <;> cases hpast
    · have hrts : k.uartRts = false := hcts
      simpa [UartPc.current, hrts] using hcur
  | txCmpl k r =>
    obtain ⟨hproc, -, hcmd⟩ := hown (by rw [hc]; rfl)
    obtain rfl := h.eq_none_of_completing (c := c) (by rw [hc]; exact Option.some_ne_none r)
    rw [hc] at hn hcmd
    have hcmd : k.cmd = A.cb.txCmd := hcmd
    simp only [MbUartCb.next, hcmd, hproc, ne_eq, not_true_eq_false, Bool.true_eq_false, or_self, if_false] at hn
    cases hn
    refine h.sender_move rfl rfl (.inl rfl) (.inr rfl) (fun hp => ?_) (fun _ _ hnone => ?_) fun r' hr => ?_
    · cases hp
    · rw [move_self] at hnone; cases hnone
    · rw [move_self] at hr; rw [hc]; exact hr
  | txCmplCts r =>
    obtain rfl := h.eq_none_of_completing (c := c) (by rw [hc]; exact Option.some_ne_none r)
    rw [hc] at hn
    cases hn
    exact h.sender_move rfl rfl (.inl rfl) (.inr rfl) (fun hp => by cases hp)
      (fun hcts _ _ => h.answer r (.inr (.inr (by rw [hc]; rfl))) hcts) fun r' => completing_move rfl
  | _ => exact absurd (by rw [hc]; rfl) hoff

theorem sender_goto (h : Dir A B tk rs) (hc : (A.pc c).completing = none) (hp : p.completing = none)
    (hpast : p.pastCts = false) : Dir (A.move c A.cb p) B tk rs :=
  h.sender_quiet rfl rfl (.inl rfl) rfl hc hp fun ha => by rw [hpast] at ha; cases ha

theorem sender_txCmpl (h : Dir A B tk (some r)) (k : MbUartCmd) :
    Dir (A.move none { A.cb with written := none } (.txCmpl k r)) B false none := by
  have hunhandled : (B.pc none).handled = none := by
    cases hh : (B.pc none).handled with
    | none => rfl
    | some k' => cases (h.handled k' hh).2.1
  have hunanswered : (B.pc none).answer = none := by
    cases ha : (B.pc none).answer with
    | none => rfl
    | some r' => cases (h.answered r' ha).2
  have hunstored : (B.pc none).unstored = false := by
    cases hb : B.pc none <;> first | rfl | (rw [hb] at hunhandled; cases hunhandled)
  have htk := h.rsp rfl
  exact {
    handled := fun k' hk' => by rw [hunhandled] at hk'; cases hk'
    data := h.data
    answered := fun r' hr' => by rw [hunanswered] at hr'; cases hr'
    taken := nofun
    rsp := nofun
    place := fun t => by rw [move_of_ne (Option.some_ne_none t)]; exact h.place t
    past := move_pc (P := fun p => p.pastCts → B.cb.ctrlRts = false) (fun d _ => h.past d) nofun
    pending := fun k' hk' => nomatch hk'.1
    cts := nofun
    answer := fun r' hr' hrts => by
      rcases hr' with hr' | hr' | hr'
      · rw [hunanswered] at hr'; cases hr'
      · cases hr'
      · rw [move_self] at hr'
        cases hr'
        exact h.answer r (.inr (.inl rfl)) hrts
    copied := h.copied
    wire := fun k' hk' => nomatch hk'.1
    quiet := fun _ => h.quiet fun k' hk' => by
      rcases hk'.2.2 with hf | hs
      · rw [htk] at hf; cases hf
      · rw [hunstored] at hs; cases hs }

/-! ### The receiver -/

theorem receiver_task (h : Dir A B tk rs) (hc : none ≠ c) (harr : cb.arrived = B.cb.arrived)
    (hrts : B.cb.ctrlRts = false → cb.ctrlRts = false) : Dir A (B.move c cb p) tk rs where
  handled k hk := h.handled k (by rwa [move_of_ne hc] at hk)
  data k hk := h.data k (by rwa [move_of_ne hc] at hk)
  answered r hr := h.answered r (by rwa [move_of_ne hc] at hr)
  taken := h.taken
  rsp := h.rsp
  place := h.place
  past d hd := hrts (h.past d hd)
  pending k hk := hrts (h.pending k ⟨hk.1, hk.2.1, by simpa [move_of_ne hc] using hk.2.2⟩)
  cts hs hk hn := hrts (h.cts hs hk hn)
  answer r hr hf := hrts (h.answer r (by simpa [move_of_ne hc] using hr) hf)
  copied k bytes store freeCnt hp := h.copied k bytes store freeCnt (by rwa [move_of_ne hc] at hp)
  wire k hk := by
    rw [move_cb, harr]
    exact h.wire k ⟨hk.1, hk.2.1, by simpa [move_of_ne hc] using hk.2.2⟩
  quiet hq := by
    rw [move_cb, harr]
    exact h.quiet fun k hk => hq k ⟨hk.1, hk.2.1, by simpa [move_of_ne hc] using hk.2.2⟩

theorem receiver_isr (h : Dir A B tk rs) (harr : cb.arrived = B.cb.arrived)
    (hrts : B.cb.ctrlRts = false → cb.ctrlRts = false) (hh : ∀ k, p.handled = some k → (B.pc none).handled = some k)
    (hd : ∀ k, p.handledData = some k → k.cmd = .sendData)
    (ha : ∀ r, p.answer = some r → (tk = true ∧ rs = none) ∧ (r.uartRts = false → cb.ctrlRts = false))
    (hun : (∃ k, A.cb.written = some k ∧ k.cmd = .sendData) → tk = true → p.unstored = (B.pc none).unstored)
    (hcop : ∀ k bytes store freeCnt, p = .rxIdx k bytes store freeCnt → bytes = slice A.cb.txXchgBuff 0 k.cmdDataLen) :
    Dir A (B.move none cb p) tk rs := by
  have hpend : ∀ k, Pending A (B.move none cb p) tk k ↔ Pending A B tk k := by
    intro k
    refine and_congr_right fun hw => and_congr_right fun hk => ?_
    rw [move_self]
    cases htk : tk with
    | false => simp
    | true => rw [hun ⟨k, hw, hk⟩ htk]
  exact {
    handled := fun k hk => h.handled k (hh k (by rwa [move_self] at hk))
    data := fun k hk => hd k (by rwa [move_self] at hk)
    answered := fun r hr => (ha r (by rwa [move_self] at hr)).1
    taken := h.taken
    rsp := h.rsp
    place := h.place
    past := fun d hd => hrts (h.past d hd)
    pending := fun k hk => hrts (h.pending k ((hpend k).1 hk))
    cts := fun hs hk hn => hrts (h.cts hs hk hn)
    answer := fun r hr hf => by
      rcases hr with hr | hr
      · exact (ha r (by rwa [move_self] at hr)).2 hf
      · exact hrts (h.answer r (.inr hr) hf)
    copied := fun k bytes store freeCnt hp => hcop k bytes store freeCnt (by rwa [move_self] at hp)
    wire := fun k hk => by rw [move_cb, harr]; exact h.wire k ((hpend k).1 hk)
    quiet := fun hq => by rw [move_cb, harr]; exact h.quiet fun k hk => hq k ((hpend k).2 hk) }

variable {freeCnt : Nat}

theorem receiver_stored (h : Dir A B tk rs) {bytes : List (BitVec 8)} {store : IdxStore}
    (hb : B.pc none = .rxIdx k bytes store freeCnt) (harr : cb.arrived = B.cb.arrived ++ bytes)
    (hrts : cb.ctrlRts = B.cb.ctrlRts) : Dir A (B.move none cb (.rxFree k freeCnt false)) tk rs := by
  obtain ⟨htk, hrs, hw⟩ := h.handled k (by rw [hb]; rfl)
  have hk := h.data k (by rw [hb]; rfl)
  have hpend : Pending A B tk k := ⟨hw, hk, .inr (by rw [hb]; rfl)⟩
  have hsent : A.cb.sent = cb.arrived := by rw [h.wire k hpend, harr, h.copied k bytes store freeCnt hb]
  have hnone : ∀ k', ¬ Pending A (B.move none cb (.rxFree k freeCnt false)) tk k' := by
    rintro k' ⟨-, -, hf | hs⟩
    · rw [htk] at hf; cases hf
    · rw [move_self] at hs; cases hs
  exact {
    handled := fun k' hk' => by
      rw [move_self] at hk'
      cases hk'
      exact ⟨htk, hrs, hw⟩
    data := fun k' hk' => by
      rw [move_self] at hk'
      cases hk'
      exact hk
    answered := nofun
    taken := h.taken
    rsp := h.rsp
    place := h.place
    past := fun d hd => hrts.trans (h.past d hd)
    pending := fun k' hk' => absurd hk' (hnone k')
    cts := fun hs hd hn => hrts.trans (h.cts hs hd hn)
    answer := fun r hr hf => by
      rcases hr with hr | hr
      · rw [move_self] at hr; cases hr
      · exact hrts.trans (h.answer r (.inr hr) hf)
    copied := nofun
    wire := fun k' hk' => absurd hk' (hnone k')
    quiet := fun _ => hsent }

theorem receiver_stops (h : Dir A B tk rs) (hA : A.Holder) {txFail : Bool}
    (hb : B.pc none = .rxFree k freeCnt txFail) (harr : cb.arrived = B.cb.arrived) :
    Dir A (B.move none cb (.rxCts k txFail)) tk rs := by
  obtain ⟨htk, hrs, hw⟩ := h.handled k (by rw [hb]; rfl)
  have hk := h.data k (by rw [hb]; rfl)
  have hown := not_owns hA hw
  have hnone {B' : UartEnd T} (hB' : (B'.pc none).unstored = false) : ∀ k', ¬ Pending A B' tk k' := by
    rintro k' ⟨-, -, hf | hs⟩
    · rw [htk] at hf; cases hf
    · rw [hB'] at hs; cases hs
  exact {
    handled := fun k' hk' => by
      rw [move_self] at hk'
      cases hk'
      exact ⟨htk, hrs, hw⟩
    data := nofun
    answered := nofun
    taken := h.taken
    rsp := h.rsp
    place := h.place
    past := fun d hd => by have := owns_of_pastCts hd; rw [hown d] at this; cases this
    pending := fun k' hk' => absurd hk' (hnone (by rw [move_self]; rfl) k')
    cts := fun _ hd _ => absurd hk (hd k hw)
    answer := fun r hr _ => by
      rcases hr with hr | hr | hr
      · rw [move_self] at hr; cases hr
      · rw [hrs] at hr; cases hr
      · have := owns_of_completing hr
        rw [hown none] at this
        cases this
    copied := nofun
    wire := fun k' hk' => absurd hk' (hnone (by rw [move_self]; rfl) k')
    quiet := fun _ => by
      rw [move_cb, harr]
      exact h.quiet (hnone (by rw [hb]; rfl)) }

theorem receiver_unhandled (h : Dir A B tk rs) (hun : (B.pc none).handled = none)
    (hn : B.cb.next xchg (B.pc none) = some (cb, p)) : Dir A (B.move none cb p) tk rs := by
  obtain ⟨-, hold, hrx⟩ := UartPc.unhandled_spec hun
  obtain ⟨hp, ha⟩ := MbUartCb.next_unhandled hn hun
  obtain ⟨hd, hnew, -⟩ := UartPc.unhandled_spec hp
  obtain ⟨harr, hrts⟩ := MbUartCb.next_not_receiving hn hrx
  refine h.receiver_isr harr hrts (fun k hk => by rw [hp] at hk; cases hk) (fun k hk => by rw [hd] at hk; cases hk)
    (fun r hr => ?_) (fun _ _ => hnew.trans hold.symm) fun k bytes store freeCnt hp' => by rw [hp'] at hp; cases hp
  rw [ha] at hr
  exact ⟨h.answered r hr, fun hf => hrts (h.answer r (.inl hr) hf)⟩

theorem receiver_next (h : Dir A B tk rs) (hA : A.Holder) (hB : B.RxRing)
    (hn : B.cb.next A.cb.txXchgBuff (B.pc c) = some (cb, p)) : Dir A (B.move c cb p) tk rs := by
  cases c with
  | some t =>
    obtain ⟨harr, hrts⟩ := MbUartCb.next_not_receiving hn (hB.isr t)
    exact h.receiver_task nofun harr hrts
  | none =>
  by_cases hun : (B.pc none).handled = none
  · exact h.receiver_unhandled hun hn
  cases hb : B.pc none with
  | rx k =>
    obtain ⟨htk, hrs, hw⟩ := h.handled k (by rw [hb]; rfl)
    rw [hb] at hn
    cases hn
    cases hk : k.cmd with
    | sendData =>
      exact h.receiver_isr rfl id (fun k' hk' => by cases hk'; rw [hb]; rfl)
        (fun k' hk' => by cases hk'; exact hk) nofun
        (fun _ _ => by rw [hb]; rfl) nofun
    | sendState =>
      refine h.receiver_isr rfl id (fun k' hk' => by cases hk'; rw [hb]; rfl) nofun nofun ?_ nofun
      rintro ⟨k', hw', hk'⟩ -
      obtain rfl : k = k' := Option.some.inj (hw.symm.trans hw')
      rw [hk] at hk'
      cases hk'
  | rxRd k rd =>
    -- there is room, so the bytes are copied
    obtain ⟨⟨hpos, hmax⟩, hrd, hcount, hroom⟩ : UartPc.RxFact B.cb (.rxRd k rd) := hb ▸ hB.rx
    have hfree := uartRoom_eq hrd hB.wr_lt
    have hk := h.data k (by rw [hb]; rfl)
    rw [hb] at hn
    simp only [MbUartCb.next] at hn
    rw [if_neg (by omega), if_neg (by omega)] at hn
    cases hn
    exact h.receiver_isr rfl id (fun k' hk' => by cases hk'; rw [hb]; rfl) (fun k' hk' => by cases hk'; exact hk)
      (fun r hr => by cases hr) (fun _ _ => by rw [hb]; rfl) fun k' bytes store freeCnt hp => by cases hp; rfl
  | rxIdx k bytes store freeCnt =>
    rw [hb] at hn
    cases hn
    exact h.receiver_stored hb rfl rfl
  | rxFree k freeCnt txFail =>
    rw [hb] at hn
    cases hn
    exact h.receiver_stops hA hb rfl
  | rxCts k txFail =>
    obtain ⟨htk, hrs, hw⟩ := h.handled k (by rw [hb]; rfl)
    rw [hb] at hn
    cases hn
    refine h.receiver_isr rfl id (fun k' hk' => ?_) (fun k' hk' => ?_) (fun r hr => ⟨⟨htk, hrs⟩, ?_⟩) (fun _ _ => ?_)
      fun k' bytes store freeCnt hp => ?_
    · split at hk' <;> cases hk'
    · split at hk' <;> cases hk'
    · split at hr <;> cases hr <;> exact id
    · rw [hb]; split <;> rfl
    · split at hp <;> cases hp
  | _ => exact absurd (by rw [hb]; rfl) hun

theorem receiver_rx (h : Dir A B false rs) (hk : A.cb.written = some k) : Dir A (B.move none B.cb (.rx k)) true rs := by
  have hrs : rs = none := by
    cases hr : rs with
    | none => rfl
    | some r => cases h.rsp (by rw [hr]; rfl)
  have hpend : ∀ k', Pending A (B.move none B.cb (.rx k)) true k' ↔ Pending A B false k' := by
    intro k'
    refine and_congr_right fun _ => and_congr_right fun _ => ?_
    rw [move_self]
    exact ⟨fun _ => .inl rfl, fun _ => .inr rfl⟩
  exact {
    handled := fun k' hk' => by
      rw [move_self] at hk'
      cases hk'
      exact ⟨rfl, hrs, hk⟩
    data := nofun
    answered := nofun
    taken := fun _ => by rw [hk]; rfl
    rsp := fun _ => rfl
    place := h.place
    past := h.past
    pending := fun k' hk' => h.pending k' ((hpend k').1 hk')
    cts := h.cts
    answer := fun r hr hf => by
      rcases hr with hr | hr
      · rw [move_self] at hr; cases hr
      · exact h.answer r (.inr hr) hf
    copied := nofun
    wire := fun k' hk' => h.wire k' ((hpend k').1 hk')
    quiet := fun hq => h.quiet fun k' hk' => hq k' ((hpend k').2 hk') }

theorem receiver_rsp (h : Dir A B tk rs) (hb : B.pc none = .rxRsp r) : Dir A (B.move none B.cb .idle) tk (some r) := by
  have hr : (B.pc none).answer = some r := by rw [hb]; rfl
  have hpend : ∀ k, Pending A (B.move none B.cb .idle) tk k ↔ Pending A B tk k := by
    intro k
    refine and_congr_right fun _ => and_congr_right fun _ => ?_
    rw [move_self, hb]
    rfl
  exact {
    handled := nofun
    data := nofun
    answered := nofun
    taken := h.taken
    rsp := fun _ => (h.answered r hr).1
    place := h.place
    past := h.past
    pending := fun k hk => h.pending k ((hpend k).1 hk)
    cts := h.cts
    answer := fun r' hr' hf => by
      rcases hr' with hr' | hr' | hr'
      · rw [move_self] at hr'; cases hr'
      · cases hr'
        exact h.answer r (.inl hr) hf
      · exact h.answer r' (.inr (.inr hr')) hf
    copied := nofun
    wire := fun k hk => h.wire k ((hpend k).1 hk)
    quiet := fun hq => h.quiet fun k hk => hq k ((hpend k).2 hk) }

end Dir
end UartEnd

/-! ## The link -/

namespace UartLink
variable {T : Type} {l l' : UartLink T}

structure LinkInv (l : UartLink T) : Prop where
  tx : ∀ i, (l.side i).TxRing
  rx : ∀ i, (l.side i).RxRing
  dir : ∀ i, UartEnd.Dir (l.side i) (l.side !i) (l.taken i) (l.rsp i)

namespace LinkInv

theorem init (exceptionMode : Bool → Bool) : LinkInv (init exceptionMode : UartLink T) where
  tx _ := {
    holder := .free rfl rfl (fun _ => rfl) fun _ => rfl
    write := fun _ => trivial
    send := fun _ => trivial
    oneWriter := nofun
    oneSender := nofun
    stream := fun _ => rfl
    cmd := nofun }
  rx _ := {
    rd_lt := show 0 < uartRxBufLen by decide
    wr_lt := show 0 < uartRxBufLen by decide
    isr := fun _ => rfl
    read := fun _ => trivial
    rx := trivial
    oneReader := nofun
    stream := rfl
    room := fun _ _ => show 0 + uartXchgDataMax + 1 < uartRxBufLen by decide
    overflow := rfl }
  dir _ := {
    handled := nofun
    data := nofun
    answered := nofun
    taken := nofun
    rsp := nofun
    place := fun _ => rfl
    past := nofun
    pending := fun _ _ => rfl
    cts := fun _ _ _ => rfl
    answer := fun _ _ _ => rfl
    copied := nofun
    wire := fun _ hk => nomatch hk.1
    quiet := fun _ => rfl }

variable {i j : Bool}

theorem dir' (h : LinkInv l) (hij : j = !i) : UartEnd.Dir (l.side i) (l.side j) (l.taken i) (l.rsp i) :=
  hij ▸ h.dir i

variable {e : UartEnd T}

theorem set (h : LinkInv l) (hij : j = !i) (hself : l'.side i = e)
    (hpeer : l'.side j = l.side j) (he : e.TxRing ∧ e.RxRing) (hsend : UartEnd.Dir e (l.side j) (l'.taken i) (l'.rsp i))
    (hrecv : UartEnd.Dir (l.side j) e (l'.taken j) (l'.rsp j)) : LinkInv l' := by
  have hboth : ∀ {P : Bool → Prop}, P i → P j → ∀ x, P x := by
    intro P h1 h2 x
    subst hij
    cases i <;> cases x <;> assumption
  have hji : i = !j := by rw [hij, Bool.not_not]
  refine ⟨hboth (hself ▸ he.1) (hpeer ▸ h.tx j), hboth (hself ▸ he.2) (hpeer ▸ h.rx j), hboth ?_ ?_⟩
  · rw [← hij, hself, hpeer]; exact hsend
  · rw [← hji, hself, hpeer]; exact hrecv

theorem room (h : LinkInv l) (i : Bool) (k : MbUartCmd) (hk : (l.side i).pc none = .rx k) (hd : k.cmd = .sendData) :
    (l.side i).cb.ctrlRts = false ∧ 0 < k.cmdDataLen ∧ k.cmdDataLen ≤ uartXchgDataMax := by
  have hdir := h.dir' (i := !i) (j := i) (by simp)
  obtain ⟨-, -, hw⟩ := hdir.handled k (by rw [hk]; rfl)
  exact ⟨hdir.pending k ⟨hw, hd, .inr (by rw [hk]; rfl)⟩, (h.tx (!i)).cmd k hw hd⟩

variable [DecidableEq T]

theorem rings (h : LinkInv l) {a : UartAct T} (hs : (l.side i).step a = some e)
    (hok : (l.side i).TxOk a) (hw : ∀ t data, a = .write t data → ∀ c, ((l.side i).pc c).writing = false)
    (hr : ∀ t n, a = .read t n → ∀ c, ((l.side i).pc c).reading = false)
    (hn : ∀ c xchg, a = .next c xchg → ((l.side i).pc c).upToDate (l.side i).cb) : e.TxRing ∧ e.RxRing :=
  ⟨(h.tx i).step hok hw hs, (h.rx i).step hn hr (h.room i) hs⟩

theorem call (h : LinkInv l) {t : T} {p : UartPc} (hc : (l.side i).call t p = some e)
    (he : e.TxRing ∧ e.RxRing) (hp : p.completing = none) (hpast : p.pastCts = false) : LinkInv (l.setSide i e) := by
  obtain ⟨hidle, rfl⟩ := UartEnd.call_eq hc
  refine h.set (j := !i) rfl (update_self ..) (update_of_ne (by simp) ..) he ?_ ?_
  · exact (h.dir i).sender_goto (by rw [hidle]; rfl) hp hpast
  · exact (h.dir' (by simp)).receiver_task nofun rfl id

theorem step (h : LinkInv l) {a : UartLinkAct T} (hok : l.LinkOk a) (hs : l.step a = some l') : LinkInv l' := by
  cases a with
  | write i t data =>
    obtain ⟨e, he, rfl⟩ := Option.map_eq_some_iff.1 hs
    exact h.call he (h.rings he trivial (fun _ _ _ => hok) nofun nofun) rfl rfl
  | read i t n =>
    obtain ⟨e, he, rfl⟩ := Option.map_eq_some_iff.1 hs
    exact h.call he (h.rings he trivial nofun (fun _ _ _ => hok) nofun) rfl rfl
  | devInit i t =>
    obtain ⟨e, he, rfl⟩ := Option.map_eq_some_iff.1 hs
    exact h.call he (h.rings he trivial nofun nofun nofun) rfl rfl
  | next i c =>
    obtain ⟨e, he, rfl⟩ := Option.map_eq_some_iff.1 hs
    obtain ⟨htrig, hnew, hcur⟩ := hok
    have hrings := h.rings he htrig nofun nofun fun c' xchg ha => by cases ha; exact hnew
    obtain ⟨cb, p, hn, rfl⟩ := UartEnd.next_eq he
    refine h.set (j := !i) rfl (update_self ..) (update_of_ne (by simp) ..) hrings ?_ ?_
    · exact (h.dir i).sender_next (h.tx i).holder hcur hn
    · exact (h.dir' (by simp)).receiver_next (h.tx _).holder (h.rx i) hn
  | deliver i =>
    simp only [UartLink.step] at hs
    split at hs
    · rename_i k hk
      split at hs
      · cases hs
      · rename_i htk
        obtain ⟨e, he, rfl⟩ := Option.map_eq_some_iff.1 hs
        have hrings := h.rings he trivial nofun nofun nofun
        obtain ⟨hidle, rfl⟩ := UartEnd.rx_eq he
        refine h.set (i := !i) (j := i) (by simp) (update_self ..) (update_of_ne (by simp) ..)
          hrings ?_ ?_
        · show UartEnd.Dir _ _ (update l.taken i true (!i)) _
          rw [update_of_ne (by simp)]
          exact (h.dir' (by simp)).sender_goto (by rw [hidle]; rfl) rfl rfl
        · show UartEnd.Dir _ _ (update l.taken i true i) _
          rw [update_self]
          have hdir := h.dir i
          rw [show l.taken i = false by simpa using htk] at hdir
          exact hdir.receiver_rx hk
    · cases hs
  | respond i =>
    simp only [UartLink.step] at hs
    split at hs
    · rename_i r hr
      obtain ⟨e, he, rfl⟩ := Option.map_eq_some_iff.1 hs
      have hrings := h.rings he trivial nofun nofun nofun
      obtain ⟨-, -, rfl⟩ := UartEnd.rsp_eq he
      refine h.set (i := !i) (j := i) (by simp) (update_self ..) (update_of_ne (by simp) ..)
        hrings ?_ ?_
      · show UartEnd.Dir _ _ _ (update l.rsp i (some r) (!i))
        rw [update_of_ne (by simp)]
        exact (h.dir' (by simp)).sender_goto (by rw [hr]; rfl) rfl rfl
      · show UartEnd.Dir _ _ _ (update l.rsp i (some r) i)
        rw [update_self]
        exact (h.dir i).receiver_rsp hr
    · cases hs
  | complete i =>
    simp only [UartLink.step] at hs
    split at hs
    · rename_i r hr
      obtain ⟨e, he, rfl⟩ := Option.map_eq_some_iff.1 hs
      have hrings := h.rings he hok nofun nofun nofun
      obtain ⟨k, -, hidle, rfl⟩ := UartEnd.txCmpl_eq he
      refine h.set (j := !i) rfl (update_self ..) (update_of_ne (by simp) ..) hrings ?_ ?_
      · show UartEnd.Dir _ _ (update l.taken i false i) (update l.rsp i none i)
        rw [update_self, update_self]
        have hdir := h.dir i
        rw [hr] at hdir
        exact hdir.sender_txCmpl k
      · show UartEnd.Dir _ _ (update l.taken i false (!i)) (update l.rsp i none (!i))
        rw [update_of_ne (by simp), update_of_ne (by simp)]
        exact (h.dir' (by simp)).receiver_isr rfl id nofun nofun nofun (fun _ _ => by rw [hidle]; rfl) nofun
    · cases hs

end LinkInv
end UartLink

/-- What the reader of one side has got is the beginning of what the writer of the other side has accepted, and no
data command was thrown away. -/
theorem uart_returned_accepted {T : Type} [DecidableEq T] {exceptionMode : Bool → Bool} {l : UartLink T}
    (h : Run UartLink.step UartLink.LinkOk (.init exceptionMode) l) (i : Bool) :
    (l.side !i).cb.returned <+: (l.side i).cb.accepted ∧ (l.side !i).cb.statusOverflow = false := by
  have hinv : l.LinkInv := h.invariant (I := UartLink.LinkInv) (.init _) fun _ _ _ _ hI hok hs => hI.step hok hs
  refine ⟨?_, (hinv.rx _).overflow⟩
  exact ((hinv.rx _).returned_arrived.trans (hinv.dir i).sent_arrived).trans (hinv.tx i).sent_accepted

def uartWrite (i : Bool) (data : List (BitVec 8)) : List (UartLinkAct Unit) :=
  .write i () data :: List.replicate 9 (.next i (some ()))

def uartDeliver (i : Bool) (n m : Nat) : List (UartLinkAct Unit) :=
  .deliver i :: List.replicate n (.next (!i) none) ++ .respond i :: .complete i :: List.replicate m (.next i none)

theorem uart_returned_accepted_two : ∃ l : UartLink Unit,
    Run UartLink.step UartLink.LinkOk (.init fun _ => false) l ∧
    (l.side false).cb.returned = List.replicate 64 1 ++ List.replicate 128 2 ∧
    (l.side false).cb.returned <+: (l.side true).cb.accepted ∧ (l.side false).cb.statusOverflow = false :=
  Run.of_exec_and (List.flatten [uartWrite true (List.replicate 64 1), uartDeliver true 5 7,
    uartWrite true (List.replicate 128 2), uartDeliver true 5 5, [.read false () 256],
    List.replicate 6 (.next false (some ())), uartDeliver false 7 7]) (by decide +kernel)
    fun _ hr _ => uart_returned_accepted hr true

/-- A command of the reader's side is written while there is room and comes after the response that says there is none:
128 bytes are thrown away. -/
theorem uart_bytes_lost : ∃ l : UartLink Unit, Run UartLink.step (fun _ _ => True) (.init fun _ => false) l ∧
    (l.side false).cb.statusOverflow = true ∧
    (l.side false).cb.returned = List.replicate 64 1 ++ List.replicate 128 2 ++ [4] ∧
    (l.side true).cb.accepted = List.replicate 64 1 ++ List.replicate 128 2 ++ List.replicate 128 3 ++ [4] ∧
    ¬ (l.side false).cb.returned <+: (l.side true).cb.accepted :=
  Run.of_exec (List.flatten [uartWrite true (List.replicate 64 1), uartDeliver true 5 7, uartWrite false [9],
    uartWrite true (List.replicate 128 2), uartDeliver true 5 5, uartDeliver false 10 7,
    uartWrite true (List.replicate 128 3), uartDeliver true 4 5,
    [.read false () 256], List.replicate 6 (.next false (some ())), uartDeliver false 7 7,
    uartWrite true [4], uartDeliver true 5 7, [.read false () 256], List.replicate 4 (.next false (some ()))])
    (by decide +kernel)

end Bk7258

import Bk7258.Ipc.Cmd

/-!
# Which call an answer belongs to

The callbacks match an answer with the call in process by the command id alone, and an accepted answer leaves a count in
`rsp_sema`. So a call can return with the answer to an earlier one that has timed out. Without that, `Phase` says which
answers the call in process can get.
-/

namespace Bk7258
open Lts

namespace IpcChnl
variable (s : IpcChnl)

def sentOut : List Nat :=
  match s.sent with
  | some (_, some .pending) => []
  | some (c, _) => [c]
  | none => []

def outs : List Nat := s.rsps.map Prod.fst ++ s.pending ++ s.sentOut ++ s.written.toList

def givingUp (c : Nat) : Bool :=
  match s.cur with
  | some (d, .failed _) => d = c
  | _ => false

end IpcChnl

section
variable (args : Nat → IpcArgs)

/-- A call is not made while an answer to its command is out, and no answer arrives while its call gives
up. -/
def InTime (s : IpcChnl) : IpcAct → Prop
  | .enter => ∀ c ∈ s.outs, (args c).cmd ≠ (args s.nextCall).cmd
  | .ackIsr => ∀ c ∈ s.sentOut, s.givingUp c = false
  | .rspIsr => ∀ x ∈ s.rsps.head?, s.givingUp x.1 = false
  | _ => True

instance (s : IpcChnl) : (a : IpcAct) → Decidable (InTime args s a)
  | .enter => inferInstanceAs (Decidable (∀ c ∈ s.outs, _))
  | .ackIsr => inferInstanceAs (Decidable (∀ c ∈ s.sentOut, _))
  | .rspIsr => inferInstanceAs (Decidable (∀ x ∈ s.rsps.head?, _))
  | .fill | .write | .get | .timeout | .leave | .start | .peer _ | .rsp _ | .rxCmd _ _ => .isTrue trivial

namespace IpcChnl

structure Clear (s : IpcChnl) (c : Nat) : Prop where
  rspSema : s.cb.rspSema = 0
  inProcess : s.cb.txCmdInProcess = true
  txCmd : s.cb.txCmd = (args c).cmd
  others : ∀ d ∈ s.outs, d ≠ c → (args d).cmd ≠ (args c).cmd

structure Own (s : IpcChnl) (c : Nat) : Prop where
  inProcess : s.cb.txCmdInProcess = false
  rspOf : s.rspOf = some c
  rsp : s.cb.txCmdFailed = false → (c, s.cb.rspBuf.take s.cb.rspLen) ∈ s.answers

def Phase (s : IpcChnl) (c : Nat) : IpcPc → Prop
  | .started | .filled => s.Clear args c ∧ c ∉ s.outs
  | .waiting => s.Clear args c ∨ s.cb.rspSema = 1 ∧ s.Own c
  | .got => s.cb.rspSema = 0 ∧ s.Own c
  | .failed ret => ret ≠ .ok ∧ s.Clear args c

/-- What the call `r` tells its caller is what the peer has answered to it. -/
def OwnResult (s : IpcChnl) (r : IpcResult) : Prop :=
  r.src = some r.call ∧ ∃ rsp, (r.call, rsp) ∈ s.answers ∧
    r.copied = if (args r.call).rspBufLen.getD 0 = 0 then none else some rsp

structure IpcInv (s : IpcChnl) : Prop where
  outs_lt : ∀ c ∈ s.outs, c < s.nextCall
  rsps : ∀ x ∈ s.rsps, x ∈ s.answers
  sent : ∀ c rsp, s.sent = some (c, some (.complete rsp)) → (c, rsp) ∈ s.answers
  /-- The exchange buffer is not used again before the answer in it has arrived. -/
  xchg : ∀ c p rsp, s.sent = some (c, some (.complete rsp)) → s.cur = some (c, p) →
    s.cb.txXchgBuff.take rsp.length = rsp
  idle : s.cur = none → s.cb.rspSema = 0 ∧ s.cb.txCmdInProcess = false
  cur : ∀ c p, s.cur = some (c, p) → c < s.nextCall ∧ s.Phase args c p
  results : ∀ r ∈ s.results, r.ret = .ok → s.OwnResult args r

end IpcChnl
end

namespace IpcChnl
variable {args : Nat → IpcArgs} {rxCmdHandler : BitVec 8 → Bytes → AckState × Bytes} {s s' : IpcChnl}
  {c : Nat} {p : IpcPc}

structure Quiet (s s' : IpcChnl) : Prop where
  nextCall : s'.nextCall = s.nextCall
  results : s'.results = s.results
  rspOf : s'.rspOf = s.rspOf
  rspSema : s'.cb.rspSema = s.cb.rspSema
  txCmd : s'.cb.txCmd = s.cb.txCmd
  inProcess : s'.cb.txCmdInProcess = s.cb.txCmdInProcess
  failed : s'.cb.txCmdFailed = s.cb.txCmdFailed
  rspBuf : s'.cb.rspBuf = s.cb.rspBuf
  rspLen : s'.cb.rspLen = s.cb.rspLen
  outs : ∀ d ∈ s'.outs, d ∈ s.outs
  answers : ∀ x ∈ s.answers, x ∈ s'.answers

section
variable (hq : Quiet s s')
include hq

theorem Clear.quiet (h : s.Clear args c) : s'.Clear args c where
  rspSema := hq.rspSema.trans h.rspSema
  inProcess := hq.inProcess.trans h.inProcess
  txCmd := hq.txCmd.trans h.txCmd
  others := fun d hd => h.others d (hq.outs d hd)

theorem Own.quiet (h : s.Own c) : s'.Own c where
  inProcess := hq.inProcess.trans h.inProcess
  rspOf := hq.rspOf.trans h.rspOf
  rsp := fun hf => by
    rw [hq.rspBuf, hq.rspLen]
    exact hq.answers _ (h.rsp (hq.failed.symm.trans hf))

theorem Phase.quiet (h : s.Phase args c p) : s'.Phase args c p := by
  cases p with
  | started | filled => exact ⟨h.1.quiet hq, fun hc => h.2 (hq.outs c hc)⟩
  | waiting => exact h.imp (Clear.quiet hq) fun h => ⟨hq.rspSema.trans h.1, h.2.quiet hq⟩
  | got => exact ⟨hq.rspSema.trans h.1, h.2.quiet hq⟩
  | failed ret => exact ⟨h.1, h.2.quiet hq⟩

theorem OwnResult.quiet {r : IpcResult} (h : s.OwnResult args r) : s'.OwnResult args r := by
  obtain ⟨hsrc, rsp, hmem, hcopied⟩ := h
  exact ⟨hsrc, rsp, hq.answers _ hmem, hcopied⟩

end

theorem IpcInv.quiet (h : s.IpcInv args) (hq : Quiet s s') (hcur : s'.cur = s.cur)
    (hrsps : ∀ x ∈ s'.rsps, x ∈ s'.answers)
    (hsent : ∀ d rsp, s'.sent = some (d, some (.complete rsp)) → (d, rsp) ∈ s'.answers)
    (hxchg : ∀ d p rsp, s'.sent = some (d, some (.complete rsp)) → s.cur = some (d, p) →
      s'.cb.txXchgBuff.take rsp.length = rsp) : s'.IpcInv args where
  outs_lt := fun d hd => by rw [hq.nextCall]; exact h.outs_lt d (hq.outs d hd)
  rsps := hrsps
  sent := hsent
  xchg := fun d p rsp hs hc => hxchg d p rsp hs (hcur ▸ hc)
  idle := fun hc => by rw [hq.rspSema, hq.inProcess]; exact h.idle (hcur ▸ hc)
  cur := fun d p hc => by
    obtain ⟨hlt, hp⟩ := h.cur d p (hcur ▸ hc)
    exact ⟨hq.nextCall ▸ hlt, hp.quiet hq⟩
  results := fun r hr hok => (h.results r (hq.results ▸ hr) hok).quiet hq

/-! ### The steps of the call in process -/

theorem quiet_setPc (q : IpcPc) : Quiet s (s.setPc c q) :=
  ⟨rfl, rfl, rfl, rfl, rfl, rfl, rfl, rfl, rfl, fun _ h => h, fun _ h => h⟩

theorem mem_outs_of_complete {rsp : Bytes} (h : s.sent = some (c, some (.complete rsp))) : c ∈ s.outs := by
  simp [outs, sentOut, h]

variable {d : Nat} {q : IpcPc}

theorem cur_some_inj (h : some (c, p) = some (d, q)) : c = d ∧ p = q :=
  Prod.mk.inj (Option.some.inj h)

theorem IpcInv.move (h : s.IpcInv args) (hc : s.cur = some (c, p)) (hcur : s'.cur = some (c, q))
    (hnext : s'.nextCall = s.nextCall) (hrsps : s'.rsps = s.rsps) (hsent : s'.sent = s.sent)
    (hans : s'.answers = s.answers) (hres : s'.results = s.results)
    (hxchg : s'.cb.txXchgBuff = s.cb.txXchgBuff) (houts : ∀ d ∈ s'.outs, d ∈ s.outs ∨ d = c)
    (hq : s'.Phase args c q) : s'.IpcInv args where
  outs_lt := fun d hd => by
    rw [hnext]
    rcases houts d hd with hd | rfl
    · exact h.outs_lt d hd
    · exact (h.cur _ _ hc).1
  rsps := by rw [hrsps, hans]; exact h.rsps
  sent := by rw [hsent, hans]; exact h.sent
  xchg := fun d _ rsp hs hd => by
    obtain ⟨rfl, -⟩ := cur_some_inj (hcur.symm.trans hd)
    rw [hxchg]
    exact h.xchg c p rsp (hsent ▸ hs) hc
  idle := fun hn => nomatch hcur.symm.trans hn
  cur := fun d _ hd => by
    obtain ⟨rfl, rfl⟩ := cur_some_inj (hcur.symm.trans hd)
    rw [hnext]
    exact ⟨(h.cur c p hc).1, hq⟩
  results := fun r hr hok => by
    obtain ⟨hsrc, rsp, hmem, hcopied⟩ := h.results r (hres ▸ hr) hok
    exact ⟨hsrc, rsp, hans ▸ hmem, hcopied⟩

theorem IpcInv.setPc (h : s.IpcInv args) (hc : s.cur = some (c, p)) (hq : s.Phase args c q) :
    (s.setPc c q).IpcInv args :=
  h.move hc rfl rfl rfl rfl rfl rfl rfl (fun _ hd => .inl hd) (hq.quiet (quiet_setPc q))

theorem IpcInv.enter (h : s.IpcInv args) (hc : s.cur = none)
    (hok : ∀ d ∈ s.outs, (args d).cmd ≠ (args s.nextCall).cmd) : (s.enterCall args).IpcInv args where
  outs_lt := fun d hd => Nat.lt_succ_of_lt (h.outs_lt d hd)
  rsps := h.rsps
  sent := h.sent
  xchg := fun d _ rsp hs hd => by
    obtain ⟨rfl, -⟩ := cur_some_inj hd
    exact absurd (h.outs_lt _ (mem_outs_of_complete hs)) (Nat.lt_irrefl _)
  idle := fun hn => nomatch hn
  cur := fun d _ hd => by
    obtain ⟨rfl, rfl⟩ := cur_some_inj hd
    refine ⟨Nat.lt_succ_self _, ⟨(h.idle hc).1, rfl, rfl, fun d hd _ => hok d hd⟩, fun hmem => ?_⟩
    exact absurd (h.outs_lt _ hmem) (Nat.lt_irrefl _)
  results := h.results

theorem IpcInv.fill (h : s.IpcInv args) (hc : s.cur = some (c, .started)) : (s.fill args c).IpcInv args := by
  obtain ⟨-, hclear, hnew⟩ := h.cur c _ hc
  let t : IpcChnl := { s with cb := { s.cb with txXchgBuff := (args c).fillXchg s.cb.txXchgBuff } }
  have hq : Quiet s t := ⟨rfl, rfl, rfl, rfl, rfl, rfl, rfl, rfl, rfl, fun _ h => h, fun _ h => h⟩
  have ht : t.IpcInv args := by
    refine h.quiet hq rfl h.rsps h.sent fun d p rsp hs hd => ?_
    -- an answer to this very call cannot be out, its command is not written
    obtain ⟨rfl, -⟩ := cur_some_inj (hc.symm.trans hd)
    exact absurd (mem_outs_of_complete hs) hnew
  exact ht.setPc hc (Phase.quiet hq (p := .filled) ⟨hclear, hnew⟩)

theorem mem_outs_write (hw : s.written = none) : d ∈ (s.write c).outs ↔ d ∈ s.outs ∨ d = c := by
  have h : (s.write c).outs = s.outs ++ [c] := by
    show s.rsps.map Prod.fst ++ s.pending ++ s.sentOut ++ [c] = _
    simp [outs, hw]
  simp [h]

theorem IpcInv.write (h : s.IpcInv args) (hc : s.cur = some (c, .filled)) (hw : s.written = none) :
    (s.write c).IpcInv args := by
  obtain ⟨-, hclear, -⟩ := h.cur _ _ hc
  refine h.move hc rfl rfl rfl rfl rfl rfl rfl (fun d hd => (mem_outs_write hw).1 hd) (.inl ?_)
  refine ⟨hclear.rspSema, hclear.inProcess, hclear.txCmd, fun d hd hne => ?_⟩
  rcases (mem_outs_write hw).1 hd with hd | hd
  · exact hclear.others d hd hne
  · exact absurd hd hne

theorem IpcInv.get (h : s.IpcInv args) (hc : s.cur = some (c, .waiting)) (hpos : 0 < s.cb.rspSema) :
    (s.get c).IpcInv args := by
  refine h.move hc rfl rfl rfl rfl rfl rfl rfl (fun d hd => .inl hd) ?_
  obtain ⟨-, hclear | ⟨hone, hown⟩⟩ := h.cur _ _ hc
  · have := hclear.rspSema
    omega
  · refine ⟨?_, hown.inProcess, hown.rspOf, hown.rsp⟩
    show s.cb.rspSema - 1 = 0
    omega

variable {ret : BkErr}

theorem IpcInv.timeout (h : s.IpcInv args) (hc : s.cur = some (c, .waiting)) (hz : s.cb.rspSema = 0)
    (hret : ret ≠ .ok) : (s.setPc c (.failed ret)).IpcInv args := by
  obtain ⟨-, hclear | ⟨hone, -⟩⟩ := h.cur _ _ hc
  · exact h.setPc hc ⟨hret, hclear⟩
  · omega

theorem IpcInv.finish (h : s.IpcInv args) {r : BkErr × Option Bytes} (hsema : s.cb.rspSema = 0)
    (hr : r.1 = .ok → s.OwnResult args ⟨c, r.1, s.rspOf, r.2⟩) : (s.finish c r).IpcInv args where
  outs_lt := h.outs_lt
  rsps := h.rsps
  sent := h.sent
  xchg := fun _ _ _ _ hd => nomatch hd
  idle := fun _ => ⟨hsema, rfl⟩
  cur := fun _ _ hd => nomatch hd
  results := fun r' hr' hok => by
    rcases List.mem_append.1 hr' with hr' | hr'
    · exact h.results r' hr' hok
    · cases List.mem_singleton.1 hr'
      exact hr hok

theorem Own.takeResult (h : s.Own c) (hok : ((args c).takeResult s.cb).1 = .ok) :
    s.OwnResult args ⟨c, ((args c).takeResult s.cb).1, s.rspOf, ((args c).takeResult s.cb).2⟩ := by
  refine ⟨h.rspOf, s.cb.rspBuf.take s.cb.rspLen, ?_⟩
  unfold IpcArgs.takeResult at hok ⊢
  cases hf : s.cb.txCmdFailed with
  | true => simp [hf] at hok
  | false =>
    refine ⟨h.rsp hf, ?_⟩
    simp only [hf, Bool.false_eq_true, if_false] at hok ⊢
    rcases hb : (args c).rspBufLen with - | - | n
    · rfl
    · rfl
    · simp only [hb] at hok
      split at hok
      · cases hok
      · rename_i hn
        simp [hn]

/-! ### The peer and the channel -/

theorem outs_start (hw : s.written = some c) (hs : s.sent = none) :
    { s with written := none, sent := some (c, none) }.outs = s.outs := by
  simp [outs, sentOut, hw, hs]

theorem outs_peerAck (hs : s.sent = some (c, none)) (a : IpcAnswer) : (s.peerAck c a).outs = s.outs := by
  cases a <;> simp [outs, sentOut, peerAck, hs]

theorem IpcInv.start (h : s.IpcInv args) (hw : s.written = some c) (hs : s.sent = none) :
    { s with written := none, sent := some (c, none) }.IpcInv args := by
  refine h.quiet ⟨rfl, rfl, rfl, rfl, rfl, rfl, rfl, rfl, rfl, ?_, fun _ h => h⟩ rfl h.rsps ?_ ?_
  · intro d hd
    rwa [outs_start hw hs] at hd
  · intro d rsp hd
    cases hd
  · intro d p rsp hd
    cases hd

theorem IpcInv.peerAck (h : s.IpcInv args) (hs : s.sent = some (c, none)) (a : IpcAnswer) :
    (s.peerAck c a).IpcInv args := by
  have hout : ∀ d ∈ (s.peerAck c a).outs, d ∈ s.outs := fun d hd => by rwa [outs_peerAck hs a] at hd
  cases a with
  | complete rsp =>
    have hans : ∀ x ∈ s.answers, x ∈ s.answers ++ [(c, rsp)] := fun x hx => List.mem_append_left _ hx
    refine h.quiet ⟨rfl, rfl, rfl, rfl, rfl, rfl, rfl, rfl, rfl, hout, hans⟩ rfl
      (fun x hx => hans x (h.rsps x hx)) ?_ ?_
    · intro d r hd
      cases hd
      exact List.mem_append_right _ (List.mem_singleton.2 rfl)
    · intro d p r hd hcur
      cases hd
      exact (IpcChnlCb.take_memcpy (Nat.le_refl _)).trans (List.take_length)
  | _ =>
    refine h.quiet ⟨rfl, rfl, rfl, rfl, rfl, rfl, rfl, rfl, rfl, hout, fun _ h => h⟩ rfl h.rsps ?_ ?_
    · intro d r hd
      cases hd
    · intro d p r hd
      cases hd

theorem IpcInv.rsp (h : s.IpcInv args) {rest : List Nat} (hp : s.pending = c :: rest) (data : Bytes) :
    { s with pending := rest, rsps := s.rsps ++ [(c, data)], answers := s.answers ++ [(c, data)] }.IpcInv args := by
  have hans : ∀ x ∈ s.answers, x ∈ s.answers ++ [(c, data)] := fun x hx => List.mem_append_left _ hx
  refine h.quiet ⟨rfl, rfl, rfl, rfl, rfl, rfl, rfl, rfl, rfl, ?_, hans⟩ rfl ?_ ?_ h.xchg
  · intro d hd
    simpa [outs, sentOut, hp, or_assoc] using hd
  · intro x hx
    rcases List.mem_append.1 hx with hx | hx
    · exact hans x (h.rsps x hx)
    · exact List.mem_append_right _ hx
  · intro d r hd
    exact hans _ (h.sent d r hd)

/-! ### The interrupts -/

theorem interrupt_self : s.interrupt c s.cb = s := by
  cases hp : s.cb.txCmdInProcess <;> simp [interrupt, hp]

theorem IpcInv.arrives (h : s.IpcInv args) (hd : d ∈ s.outs) (hok : s.givingUp d = false) :
    (s.cb.txCmdInProcess = false ∨ (args d).cmd ≠ s.cb.txCmd) ∨ s.cur = some (d, .waiting) ∧ s.Clear args d := by
  rcases hcur : s.cur with - | ⟨c, p⟩
  · exact .inl (.inl (h.idle hcur).2)
  have hother : s.Clear args c → d ≠ c → (args d).cmd ≠ s.cb.txCmd := fun hclear hne => by
    rw [hclear.txCmd]
    exact hclear.others d hd hne
  obtain ⟨-, hp⟩ := h.cur c p hcur
  by_cases hdc : d = c
  · subst hdc
    cases p with
    | started | filled => exact absurd hd hp.2
    | waiting =>
      rcases hp with hclear | ⟨-, hown⟩
      · exact .inr ⟨rfl, hclear⟩
      · exact .inl (.inl hown.inProcess)
    | got => exact .inl (.inl hp.2.inProcess)
    | failed ret => simp [givingUp, hcur] at hok
  · cases p with
    | started | filled => exact .inl (.inr (hother hp.1 hdc))
    | waiting =>
      rcases hp with hclear | ⟨-, hown⟩
      · exact .inl (.inr (hother hclear hdc))
      · exact .inl (.inl hown.inProcess)
    | got => exact .inl (.inl hp.2.inProcess)
    | failed ret => exact .inl (.inr (hother hp.2 hdc))

theorem IpcInv.accept (h : s.IpcInv args) (hc : s.cur = some (c, .waiting)) (hclear : s.Clear args c)
    {cb : IpcChnlCb} {rsp : Option Bytes} (hacc : s.cb.Accepted cb rsp)
    (hrsp : ∀ r, rsp = some r → (c, r) ∈ s.answers) : (s.interrupt c cb).IpcInv args := by
  refine h.move hc hc rfl rfl rfl rfl rfl hacc.txXchgBuff (fun d hd => .inl hd) (.inr ⟨?_, hacc.inProcess, ?_, ?_⟩)
  · show cb.rspSema = 1
    rw [hacc.rspSema, hclear.rspSema]
  · simp [interrupt, hclear.inProcess, hacc.inProcess]
  · intro hf
    exact hrsp _ (hacc.rsp hf)

theorem IpcInv.drop_sent (h : s.IpcInv args) : { s with sent := none }.IpcInv args := by
  refine h.quiet ⟨rfl, rfl, rfl, rfl, rfl, rfl, rfl, rfl, rfl, ?_, fun _ h => h⟩ rfl h.rsps ?_ ?_
  · intro d hd
    simp only [outs, List.mem_append] at hd ⊢
    rcases hd with (hd | hd) | hd
    · exact .inl (.inl hd)
    · cases hd
    · exact .inr hd
  · intro d r hd
    cases hd
  · intro d p r hd
    cases hd

variable {rest : List (Nat × Bytes)}

theorem IpcInv.drop_rsp (h : s.IpcInv args) {x : Nat × Bytes}
    (hr : s.rsps = x :: rest) : { s with rsps := rest }.IpcInv args := by
  refine h.quiet ⟨rfl, rfl, rfl, rfl, rfl, rfl, rfl, rfl, rfl, ?_, fun _ h => h⟩ rfl ?_ h.sent h.xchg
  · intro d hd
    have hs : ({ s with rsps := rest } : IpcChnl).sentOut = s.sentOut := rfl
    simp only [outs, hs, hr, List.map_cons, List.cons_append] at hd ⊢
    exact List.mem_cons_of_mem _ hd
  · intro y hy
    exact h.rsps y (hr ▸ List.mem_cons_of_mem _ hy)

theorem IpcInv.ackIsr (h : s.IpcInv args) {a : IpcAnswer} (hs : s.sent = some (c, some a))
    (hok : InTime args s .ackIsr) :
    (s.interrupt c (s.cb.ipcCmdTxCmplIsr (a.ack (args c).cmd s.cb.txXchgBuff))).IpcInv args := by
  by_cases ha : a = .pending
  · subst ha
    rw [IpcChnlCb.ipcCmdTxCmplIsr_ignored (.inr (.inr ⟨rfl, rfl⟩)), interrupt_self]
    exact h
  have hmem : c ∈ s.sentOut := by
    cases a with
    | pending => exact absurd rfl ha
    | _ => simp [sentOut, hs]
  rcases h.arrives (by simp [outs, hmem]) (hok c hmem) with hign | ⟨hc, hclear⟩
  · have hcmd : (a.ack (args c).cmd s.cb.txXchgBuff).cmd = (args c).cmd := by cases a <;> rfl
    rw [IpcChnlCb.ipcCmdTxCmplIsr_ignored (hign.imp_right fun hne => .inl (by rwa [hcmd])), interrupt_self]
    exact h
  · rw [← hclear.txCmd]
    refine h.accept hc hclear (IpcChnlCb.ipcCmdTxCmplIsr_accepted hclear.inProcess ha ?_) ?_
    · intro r hr
      exact h.xchg c _ r (hr ▸ hs) hc
    · intro r hr
      cases a with
      | complete r' =>
        cases hr
        exact h.sent c _ hs
      | _ => cases hr

theorem IpcInv.rspIsr (h : s.IpcInv args) {data : Bytes} (hr : s.rsps = (c, data) :: rest)
    (hok : InTime args s .rspIsr) :
    (s.interrupt c (s.cb.ipcCmdRxIsr rxCmdHandler
      ⟨(args c).cmd ||| ipcRspCmdFlag, some data, data.length⟩).1).IpcInv args := by
  have hmem : c ∈ s.outs := by simp [outs, hr]
  rw [IpcChnlCb.ipcCmdRxIsr_rsp (args c).cmd_flag]
  rcases h.arrives hmem (hok (c, data) (by simp [hr])) with hign | ⟨hc, hclear⟩
  · have hne : ¬ (s.cb.txCmdInProcess ∧ s.cb.txCmd = (args c).cmd) := by
      rintro ⟨hp, hcmd⟩
      rcases hign with hign | hign
      · simp [hp] at hign
      · exact hign hcmd.symm
    rw [if_neg hne, interrupt_self]
    exact h
  · rw [if_pos ⟨hclear.inProcess, hclear.txCmd⟩]
    refine h.accept hc hclear (IpcChnlCb.takeRsp_accepted (List.take_length)) fun r hr' => ?_
    cases hr'
    exact h.rsps _ (by simp [hr])

theorem IpcInv.rxCmd (h : s.IpcInv args) {m : IpcCmd} (hm : m.cmd &&& ipcRspCmdFlag = 0) :
    { s with cb := (s.cb.ipcCmdRxIsr rxCmdHandler m).1 }.IpcInv args := by
  have he := s.cb.ipcCmdRxIsr_cmd rxCmdHandler hm
  refine h.quiet ⟨rfl, rfl, rfl, he.rspSema, he.txCmd, he.inProcess, he.failed, he.rspBuf, he.rspLen,
    fun _ h => h, fun _ h => h⟩ rfl h.rsps h.sent fun d p r hs hc => ?_
  show (s.cb.ipcCmdRxIsr rxCmdHandler m).1.txXchgBuff.take r.length = r
  rw [he.txXchgBuff]
  exact h.xchg d p r hs hc

theorem IpcInv.step (h : s.IpcInv args) {a : IpcAct} (hok : InTime args s a)
    (hs : s.step args rxCmdHandler a = some s') : s'.IpcInv args := by
  cases a with
  | enter =>
    simp only [IpcChnl.step] at hs
    split at hs
    · rename_i hc
      cases hs
      exact h.enter hc hok
    · cases hs
  | fill =>
    simp only [IpcChnl.step] at hs
    split at hs
    · rename_i c hc
      split at hs <;> cases hs
      · exact h.setPc hc ⟨by decide, (h.cur c _ hc).2.1⟩
      · exact h.fill hc
    · cases hs
  | write =>
    simp only [IpcChnl.step] at hs
    split at hs
    · rename_i c hc
      split at hs <;> cases hs
      · exact h.setPc hc ⟨by decide, (h.cur c _ hc).2.1⟩
      · rename_i hw
        exact h.write hc (by simpa using hw)
    · cases hs
  | get =>
    simp only [IpcChnl.step] at hs
    split at hs
    · rename_i c hc
      split at hs
      · rename_i hpos
        cases hs
        exact h.get hc hpos
      · cases hs
    · cases hs
  | timeout =>
    simp only [IpcChnl.step] at hs
    split at hs
    · rename_i c hc
      split at hs
      · rename_i hz
        cases hs
        exact h.timeout hc hz (by decide)
      · cases hs
    · cases hs
  | leave =>
    simp only [IpcChnl.step] at hs
    split at hs
    · rename_i c hc
      cases hs
      obtain ⟨-, hsema, hown⟩ := h.cur _ _ hc
      exact h.finish hsema hown.takeResult
    · rename_i c ret hc
      cases hs
      obtain ⟨-, hret, hclear⟩ := h.cur _ _ hc
      exact h.finish hclear.rspSema fun hok => absurd hok hret
    · cases hs
  | start =>
    simp only [IpcChnl.step] at hs
    split at hs
    · rename_i c hw hsent
      cases hs
      exact h.start hw hsent
    · cases hs
  | peer a =>
    simp only [IpcChnl.step] at hs
    split at hs
    · rename_i c hsent
      split at hs
      · cases hs
        exact h.peerAck hsent a
      · cases hs
    · cases hs
  | rsp data =>
    simp only [IpcChnl.step] at hs
    split at hs
    · rename_i c rest hp
      cases hs
      exact h.rsp hp data
    · cases hs
  | ackIsr =>
    simp only [IpcChnl.step] at hs
    split at hs
    · rename_i c a hsent
      cases hs
      exact (h.ackIsr hsent hok).drop_sent
    · cases hs
  | rspIsr =>
    simp only [IpcChnl.step] at hs
    split at hs
    · rename_i c data rest hr
      cases hs
      exact (h.rspIsr hr hok).drop_rsp hr
    · cases hs
  | rxCmd cmd data =>
    simp only [IpcChnl.step] at hs
    split at hs
    · rename_i hcmd
      cases hs
      exact h.rxCmd hcmd
    · cases hs

theorem IpcInv.init : IpcChnl.init.IpcInv args where
  outs_lt := fun _ hd => nomatch hd
  rsps := fun _ hx => nomatch hx
  sent := fun _ _ hs => nomatch hs
  xchg := fun _ _ _ hs => nomatch hs
  idle := fun _ => ⟨rfl, rfl⟩
  cur := fun _ _ hc => nomatch hc
  results := fun _ hr => nomatch hr

end IpcChnl

section
variable {args : Nat → IpcArgs} {rxCmdHandler : BitVec 8 → Bytes → AckState × Bytes} {s : IpcChnl}

/-- If answers come in time, a call that returns `BK_OK` has accepted the answer to itself, and copies what the peer has
answered to it. -/
theorem ok_of_own_answer (hr : Run (IpcChnl.step args rxCmdHandler) (InTime args) .init s) {r : IpcResult}
    (hmem : r ∈ s.results) (hok : r.ret = .ok) : s.OwnResult args r := by
  have hinv : s.IpcInv args := hr.invariant .init fun _ _ _ _ h hok hs => h.step hok hs
  exact hinv.results r hmem hok

end

def resCntArgs (alt : Bool) (c : Nat) : IpcArgs where
  cmd := if alt && c % 2 = 1 then 7 else 6
  cmdBuf := some [0, 0, 1, 0]
  cmdLen := 4
  rspBufLen := some 4
  cmd_flag := by split <;> decide

def noCmdHandler : BitVec 8 → Bytes → AckState × Bytes := fun _ _ => (.fail, [])

theorem ok_of_own_answer_late : ∃ s : IpcChnl,
    Run (IpcChnl.step (resCntArgs true) noCmdHandler) (InTime (resCntArgs true)) .init s ∧
      ∃ r ∈ s.results, r.ret = .ok ∧ r.copied = some [2, 0, 0, 0] ∧ s.OwnResult (resCntArgs true) r := by
  refine Run.of_exec_imp (p := fun s => ∃ r ∈ s.results, r.ret = .ok ∧ r.copied = some [2, 0, 0, 0])
    [.enter, .fill, .write, .start, .timeout, .leave, .enter, .fill, .write, .peer (.complete [1, 0, 0, 0]), .ackIsr,
      .start, .peer (.complete [2, 0, 0, 0]), .ackIsr, .get, .leave] (by decide) ?_
  rintro s hr ⟨r, hmem, hok, hcopied⟩
  exact ⟨r, hmem, hok, hcopied, ok_of_own_answer hr hmem hok⟩

/-- Two calls of one command: the second one returns the answer to the first. -/
theorem ok_of_late_answer : ∃ s : IpcChnl,
    Run (IpcChnl.step (resCntArgs false) noCmdHandler) (fun _ _ => True) .init s ∧
      s.answers = [(0, [1, 0, 0, 0])] ∧ ⟨0, .kTimeoutErr, none, none⟩ ∈ s.results ∧
      ⟨1, .ok, some 0, some [1, 0, 0, 0]⟩ ∈ s.results :=
  Run.of_exec [.enter, .fill, .write, .start, .timeout, .leave, .enter, .fill, .write,
    .peer (.complete [1, 0, 0, 0]), .ackIsr, .get, .leave] (by decide)

end Bk7258

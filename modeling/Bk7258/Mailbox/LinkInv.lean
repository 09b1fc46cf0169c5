import Mathlib.Data.Bool.Basic
import Bk7258.Mailbox.Legs

/-!
# The two directions of a link over a lawful mailbox

`Hw.Laws` is what a mailbox has to guarantee: as long as it is `Good`, a sent message is appended to those in flight and
a copy takes the first. Without synchronous writes every send finds at most one message before it (`AsyncInv`), and a
mailbox with room for two is good forever.
-/

namespace Bk7258
open Lts

/-- A mailbox whose messages in flight are `fly`, as long as it is `Good`; `Wf` are its states. -/
structure Hw.Laws {H : Type} (hw : Hw H) (fly : H → (src dst : Nat) → List MailboxData)
    (Wf Good : H → Prop) : Prop where
  send_wf : ∀ {h a b m}, Wf h → Wf (hw.send h a b m).2
  pop_wf : ∀ {h c h'}, Wf h → hw.pop h c = some h' → Wf h'
  copy_wf : ∀ {h c a m h'}, Wf h → hw.copy h c = some (a, m, h') → Wf h'
  send_good : ∀ {h a b m}, Good (hw.send h a b m).2 → Good h
  pop_good : ∀ {h c h'}, hw.pop h c = some h' → (Good h' ↔ Good h)
  copy_good : ∀ {h c a m h'}, hw.copy h c = some (a, m, h') → (Good h' ↔ Good h)
  send_ok : ∀ {h a b m}, Wf h → Good (hw.send h a b m).2 → (hw.send h a b m).1 = .ok →
    ∀ c d, fly (hw.send h a b m).2 c d = if c = a ∧ d = b then fly h a b ++ [m] else fly h c d
  send_err : ∀ {h a b m}, (hw.send h a b m).1 ≠ .ok → fly (hw.send h a b m).2 = fly h
  send_ack : ∀ {h a b m}, Wf h → b < phyChnlNum → m.isAck = true → Good (hw.send h a b m).2 →
    (hw.send h a b m).1 = .ok
  send_room : ∀ {h a b m}, Wf h → Good h → b < phyChnlNum → (∀ c, c ≠ a → fly h c b = []) →
    (fly h a b).length ≤ 1 → (hw.send h a b m).1 = .ok ∧ Good (hw.send h a b m).2
  pop_fly : ∀ {h c h'}, hw.pop h c = some h' → fly h' = fly h
  copy_fly : ∀ {h c a m h'}, Wf h → Good h → hw.copy h c = some (a, m, h') →
    fly h a c = m :: fly h' a c ∧ ∀ d e, ¬ (d = a ∧ e = c) → fly h' d e = fly h d e

section
variable {H : Type} (b : Board) (fly : H → (src dst : Nat) → List MailboxData)

def LegOk (s : Link H) (x y : Bool) (leg : Leg) : Prop :=
  LegInv (b.cfg x) (b.id y) (fly s.hw (b.id x) (b.id y)) (fly s.hw (b.id y) (b.id x))
    ((s.view x).phyChnlXCb (b.id y)) (s.isr x) (s.isr y) leg

structure Legs (s : Link H) (x y : Bool) : Prop where
  alone : ∀ a c, fly s.hw a c ≠ [] → (a = b.id x ∧ c = b.id y) ∨ (a = b.id y ∧ c = b.id x)
  out : ∃ leg, LegOk b fly s x y leg
  back : ∃ leg, LegOk b fly s y x leg

variable {b fly} {s : Link H} {x y : Bool}

theorem Legs.symm (h : Legs b fly s x y) : Legs b fly s y x :=
  ⟨fun a c hf => (h.alone a c hf).symm, h.back, h.out⟩

variable {c : Chnl H} {r : RxIsr} {leg : Leg}

theorem legOk_put (hxy : y ≠ x) : LegOk b fly (s.put x c r) x y leg ↔
      LegInv (b.cfg x) (b.id y) (fly c.hw (b.id x) (b.id y)) (fly c.hw (b.id y) (b.id x))
        (c.phyChnlXCb (b.id y)) r (s.isr y) leg := by
  simp [LegOk, hxy]

theorem legOk_put_other (hxy : y ≠ x) : LegOk b fly (s.put x c r) y x leg ↔
      LegInv (b.cfg y) (b.id x) (fly c.hw (b.id y) (b.id x)) (fly c.hw (b.id x) (b.id y))
        ((s.view y).phyChnlXCb (b.id x)) (s.isr y) r leg := by
  simp [LegOk, hxy]

variable {hw : Hw H} {Wf Good : H → Prop} {p q : Nat} {m : MailboxData}

theorem Hw.Laws.send_cases {h : H} (L : hw.Laws fly Wf Good) (hwf : Wf h) (hg : Good (hw.send h p q m).2) :
    ((hw.send h p q m).1 = .ok ∧ fly (hw.send h p q m).2 p q = fly h p q ++ [m] ∨
      (hw.send h p q m).1 ≠ .ok ∧ fly (hw.send h p q m).2 p q = fly h p q) ∧
    ∀ c d, ¬ (c = p ∧ d = q) → fly (hw.send h p q m).2 c d = fly h c d := by
  by_cases hok : (hw.send h p q m).1 = .ok
  · have hf := L.send_ok hwf hg hok
    exact ⟨.inl ⟨hok, by simp [hf]⟩, fun c d hcd => by simp [hf, hcd]⟩
  · have hf := L.send_err hok
    exact ⟨.inr ⟨hok, by rw [hf]⟩, fun c d _ => by rw [hf]⟩

variable {l : List MailboxData}

theorem filter_append_neg {p : MailboxData → Bool} (h : p m = false) : (l ++ [m]).filter p = l.filter p := by
  simp [List.filter_append, h]

variable {h' : H} {i : Nat} {a : ApiCall}

theorem Legs.alone_send (h : Legs b fly s x y)
    (hf : ∀ c d, ¬ (c = b.id x ∧ d = b.id y) → fly h' c d = fly s.hw c d) (a c : Nat) (hne : fly h' a c ≠ []) :
    (a = b.id x ∧ c = b.id y) ∨ (a = b.id y ∧ c = b.id x) := by
  by_cases hac : a = b.id x ∧ c = b.id y
  · exact .inl hac
  · rw [hf a c hac] at hne; exact h.alone a c hne

theorem isAsync_of_ctrl (h : m.hdr.ctrl = 0) : m.isAsync ∧ m.isAck = false := by
  simp [MailboxData.isAsync, MailboxData.isAck, h]

theorem isSync_of_ctrl (h : m.hdr.ctrl = chnlCtrlSyncTx) : m.isAsync = false ∧ m.isAck = false := by
  simp [MailboxData.isAsync, MailboxData.isAck, h, chnlCtrlSyncTx, chnlCtrlAckBox]

theorem Board.num_eq (b : Board) {x y : Bool} (hxy : y ≠ x) :
    (b.cfg x).logChnlNum (b.id y) = (b.cfg y).logChnlNum (b.id x) := by
  cases x <;> cases y
  · exact absurd rfl hxy
  · exact b.num
  · exact b.num.symm
  · exact absurd rfl hxy

theorem LegOk.done_of_isr (h : LegOk b fly s x y leg) (hx : s.isr x = .ackExit p) : p = b.id y ∧ leg = .done :=
  (h.done p).1 hx

section
variable (L : hw.Laws fly Wf Good) (h : Legs b fly s x y) (hxy : y ≠ x) (hwf : Wf s.hw)
include h hxy

theorem Legs.quiet (hs : (s.view x).SameTx c)
    (hh : c.hw = s.hw) : Legs b fly (s.put x c (s.isr x)) x y := by
  obtain ⟨l₁, h₁⟩ := h.out
  obtain ⟨l₂, h₂⟩ := h.back
  refine ⟨fun a d => ?_, ⟨l₁, (legOk_put hxy).2 ?_⟩, ⟨l₂, (legOk_put_other hxy).2 ?_⟩⟩
  · simp only [Link.hw_put, hh]; exact h.alone a d
  · rw [hh]
    exact LegInv.congr h₁ rfl rfl (hs.txState _) (hs.txSeq _) (hs.txLogChnl _) (fun _ => Iff.rfl) fun _ _ => Iff.rfl
  · rw [hh]; exact h₂

include L hwf

theorem Legs.sync (hm : m.isAck = false) (hm' : m.isAsync = false)
    (hs : (s.view x).SameTx c) (hh : c.hw = (hw.send s.hw (b.id x) (b.id y) m).2) (hg : Good c.hw) :
    Legs b fly (s.put x c (s.isr x)) x y := by
  rw [hh] at hg
  obtain ⟨hc, hf⟩ := L.send_cases hwf hg
  have hyx : fly (hw.send s.hw (b.id x) (b.id y) m).2 (b.id y) (b.id x) = fly s.hw (b.id y) (b.id x) :=
    hf _ _ fun h => b.id_ne' hxy h.1
  have hfilter : ∀ p : MailboxData → Bool, p m = false →
      (fly (hw.send s.hw (b.id x) (b.id y) m).2 (b.id x) (b.id y)).filter p =
        (fly s.hw (b.id x) (b.id y)).filter p := by
    intro p hp
    rcases hc with ⟨-, hc⟩ | ⟨-, hc⟩
    · rw [hc]; exact filter_append_neg hp
    · rw [hc]
  obtain ⟨l₁, h₁⟩ := h.out
  obtain ⟨l₂, h₂⟩ := h.back
  refine ⟨fun a d => ?_, ⟨l₁, (legOk_put hxy).2 ?_⟩, ⟨l₂, (legOk_put_other hxy).2 ?_⟩⟩
  · simp only [Link.hw_put, hh]; exact h.alone_send hf a d
  · rw [hh, hyx]
    exact LegInv.congr h₁ (hfilter _ hm') rfl (hs.txState _) (hs.txSeq _) (hs.txLogChnl _)
      (fun _ => Iff.rfl) fun _ _ => Iff.rfl
  · rw [hh, hyx]
    exact LegInv.frame h₂ rfl (hfilter _ hm) (fun _ => Iff.rfl) fun _ _ => Iff.rfl

theorem Legs.transmits (ht : Transmits (b.cfg x) hw.send (b.id y) i m (s.view x) c)
    (hleg : ∀ leg, LegOk b fly s x y leg → leg = .idle ∨ leg = .done) (hr : ∀ p, r ≠ .ackExit p)
    (hr' : ∀ p a, r = .cmdExit p a ↔ s.isr x = .cmdExit p a) (hg : Good c.hw) : Legs b fly (s.put x c r) x y := by
  have hh : c.hw = (hw.send s.hw (b.id x) (b.id y) m).2 := ht.hw
  have hst : (c.phyChnlXCb (b.id y)).txState =
      if (hw.send s.hw (b.id x) (b.id y) m).1 = .ok then .busy else .idle := ht.state
  rw [hh] at hg
  obtain ⟨hasync, hack⟩ := isAsync_of_ctrl ht.ctrl
  obtain ⟨hc, hf⟩ := L.send_cases hwf hg
  have hyx : fly (hw.send s.hw (b.id x) (b.id y) m).2 (b.id y) (b.id x) = fly s.hw (b.id y) (b.id x) :=
    hf _ _ fun h => b.id_ne' hxy h.1
  obtain ⟨l₁, h₁⟩ := h.out
  obtain ⟨l₂, h₂⟩ := h.back
  refine ⟨fun a d => ?_, ?_, ⟨l₂, (legOk_put_other hxy).2 ?_⟩⟩
  · simp only [Link.hw_put, hh]; exact h.alone_send hf a d
  · rcases hc with ⟨hok, hc⟩ | ⟨hok, hc⟩
    · refine ⟨.cmd m, (legOk_put hxy).2 ?_⟩
      rw [hh, hyx, hc]
      exact LegInv.transmit h₁ (hleg l₁ h₁) hasync (by rw [hst, if_pos hok]) ht.valid ht.log ht.chnl ht.seq hr
    · refine ⟨.idle, (legOk_put hxy).2 ?_⟩
      rw [hh, hyx, hc]
      exact LegInv.setIdle h₁ (hleg l₁ h₁) (by rw [hst, if_neg hok]) hr
  · rw [hh, hyx]
    refine LegInv.frame h₂ rfl ?_ (fun _ => Iff.rfl) hr'
    rcases hc with ⟨-, hc⟩ | ⟨-, hc⟩
    · rw [hc]; exact filter_append_neg hack
    · rw [hc]

theorem Legs.call (hc : CallStep (b.cfg x) hw.send (b.id y) a (s.view x) c) (hg : Good c.hw) :
    Legs b fly (s.put x c (s.isr x)) x y := by
  cases hc with
  | quiet hs hh => exact h.quiet hxy hs hh
  | sync _ m hm hs hh =>
    obtain ⟨h1, h2⟩ := isSync_of_ctrl hm
    exact h.sync L hxy hwf h2 h1 hs hh hg
  | tx hi ht =>
    have hidle : ∀ leg, LegOk b fly s x y leg → leg = .idle := fun leg hl => LegInv.leg_eq_idle hl hi
    obtain ⟨l₁, h₁⟩ := h.out
    refine h.transmits L hxy hwf ht (fun leg hl => .inl (hidle leg hl)) (fun p => ?_) (fun _ _ => Iff.rfl) hg
    exact LegInv.own_ne h₁ (by rw [hidle l₁ h₁]; simp) p

theorem Legs.ackExit (hx : s.isr x = .ackExit p)
    (hc : ((c.phyChnlXCb (b.id y)).txState = .idle ∧ c.hw = s.hw) ∨
      ∃ i m, Transmits (b.cfg x) hw.send (b.id y) i m (s.view x) c) (hg : Good c.hw) :
    Legs b fly (s.put x c .idle) x y := by
  have hdone : ∀ leg, LegOk b fly s x y leg → leg = .idle ∨ leg = .done := fun leg hl => .inr (hl.done_of_isr hx).2
  have hcmd : ∀ p a, RxIsr.idle = .cmdExit p a ↔ s.isr x = .cmdExit p a := by simp [hx]
  rcases hc with ⟨hidle, hh⟩ | ⟨i, m, ht⟩
  · obtain ⟨l₁, h₁⟩ := h.out
    obtain ⟨l₂, h₂⟩ := h.back
    refine ⟨fun a d => ?_, ⟨.idle, (legOk_put hxy).2 ?_⟩, ⟨l₂, (legOk_put_other hxy).2 ?_⟩⟩
    · simp only [Link.hw_put, hh]; exact h.alone a d
    · rw [hh]; exact LegInv.setIdle h₁ (hdone l₁ h₁) hidle (by simp)
    · rw [hh]; exact LegInv.frame h₂ rfl rfl (fun _ => Iff.rfl) hcmd
  · exact h.transmits L hxy hwf ht hdone (by simp) hcmd hg

theorem Legs.cmdExit {a : MailboxData} (hx : s.isr x = .cmdExit p a) (hs : (s.view x).SameTx c)
    (hh : c.hw = (hw.send s.hw (b.id x) p a).2) (hg : Good c.hw) : Legs b fly (s.put x c .idle) x y := by
  obtain ⟨l₁, h₁⟩ := h.out
  obtain ⟨l₂, h₂⟩ := h.back
  obtain ⟨rfl, rfl⟩ : p = b.id y ∧ l₂ = .reply a := (h₂.reply p a).1 hx
  rw [hh] at hg
  have hack : a.isAck := h₂.ack a rfl
  have hok := L.send_ack hwf (b.id_lt y) hack hg
  obtain ⟨⟨-, hc⟩ | ⟨hno, -⟩, hf⟩ := L.send_cases hwf hg
  · have hyx : fly (hw.send s.hw (b.id x) (b.id y) a).2 (b.id y) (b.id x) = fly s.hw (b.id y) (b.id x) :=
      hf _ _ fun h => b.id_ne' hxy h.1
    refine ⟨fun a' d => ?_, ⟨l₁, (legOk_put hxy).2 ?_⟩, ⟨.ack a, (legOk_put_other hxy).2 ?_⟩⟩
    · simp only [Link.hw_put, hh]; exact h.alone_send hf a' d
    · rw [hh, hyx, hc]
      exact LegInv.congr h₁ (filter_append_neg (MailboxData.isAsync_of_isAck hack)) rfl (hs.txState _)
        (hs.txSeq _) (hs.txLogChnl _) (by simp [hx]) fun _ _ => Iff.rfl
    · rw [hh, hyx, hc]
      unfold LegOk at h₂
      rw [hx] at h₂
      exact h₂.sendAck (by simp)
  · exact absurd hok hno

theorem Legs.copy (hg : Good s.hw) {a : Nat} (hc : hw.copy s.hw (b.id x) = some (a, m, h')) :
    fly s.hw (b.id y) (b.id x) = m :: fly h' (b.id y) (b.id x) ∧
      ∀ d e, ¬ (d = b.id y ∧ e = b.id x) → fly h' d e = fly s.hw d e := by
  obtain ⟨h1, h2⟩ := L.copy_fly hwf hg hc
  rcases h.alone a (b.id x) (by simp [h1]) with ⟨-, he⟩ | ⟨rfl, -⟩
  · exact absurd he.symm (b.id_ne' hxy)
  · exact ⟨h1, h2⟩

theorem Legs.rx (hg : Good s.hw) (hx : s.isr x = .idle) {a : Nat}
    (hc : hw.copy s.hw (b.id x) = some (a, m, h')) (rsp : MailboxData) {r : RxIsr × Chnl H}
    (hr : r = mbPhyChnlRxIsr (b.cfg x) m rsp ((s.view x).setHw h')) : Legs b fly (s.put x r.2 r.1) x y := by
  obtain ⟨hhd, htl⟩ := h.copy L hxy hwf hg hc
  have hxy' : fly h' (b.id x) (b.id y) = fly s.hw (b.id x) (b.id y) := htl _ _ fun h => b.id_ne' hxy h.2
  have hframe : RxFrame ((s.view x).setHw h') r.2 := hr ▸ mbPhyChnlRxIsr_frame _ _ _ _
  have hh : r.2.hw = h' := hframe.hw
  have halone : ∀ a c, fly h' a c ≠ [] → (a = b.id x ∧ c = b.id y) ∨ (a = b.id y ∧ c = b.id x) := by
    intro a c hne
    by_cases hac : a = b.id y ∧ c = b.id x
    · exact .inr hac
    · rw [htl a c hac] at hne; exact h.alone a c hne
  obtain ⟨l₁, h₁⟩ := h.out
  obtain ⟨l₂, h₂⟩ := h.back
  unfold LegOk at h₁ h₂
  rw [hhd] at h₁ h₂
  -- the sender's own direction: up to the two interrupts only the list of ACKs may change
  have hown : ∀ {leg own'}, LegInv (b.cfg x) (b.id y) (fly s.hw (b.id x) (b.id y)) (fly h' (b.id y) (b.id x))
      ((s.view x).phyChnlXCb (b.id y)) own' (s.isr y) leg → r.1 = own' →
        ∃ leg, LegOk b fly (s.put x r.2 r.1) x y leg := by
    intro leg own' hl ho
    refine ⟨leg, (legOk_put hxy).2 ?_⟩
    rw [hh, hxy', ho]
    exact hl.congr rfl rfl (hframe.same.txState _) (hframe.same.txSeq _) (hframe.same.txLogChnl _)
      (fun _ => Iff.rfl) fun _ _ => Iff.rfl
  have hother : ∀ {leg other'}, LegInv (b.cfg y) (b.id x) (fly h' (b.id y) (b.id x)) (fly s.hw (b.id x) (b.id y))
      ((s.view y).phyChnlXCb (b.id x)) (s.isr y) other' leg → r.1 = other' →
      ∃ leg, LegOk b fly (s.put x r.2 r.1) y x leg := by
    intro leg other' hl ho
    refine ⟨leg, (legOk_put_other hxy).2 ?_⟩
    rwa [hh, hxy', ho]
  have hfilter : ∀ p : MailboxData → Bool, p m = false →
      (fly h' (b.id y) (b.id x)).filter p = (m :: fly h' (b.id y) (b.id x)).filter p := by
    intro p hp; simp [hp]
  have halone' : ∀ a c, fly (s.put x r.2 r.1).hw a c ≠ [] →
      (a = b.id x ∧ c = b.id y) ∨ (a = b.id y ∧ c = b.id x) := by
    simp only [Link.hw_put, hh]; exact halone
  by_cases hack : m.isAck
  · -- the ACK of the outstanding command of `x`
    have hr1 : r.1 = .ackExit (b.id y) := by
      obtain rfl := h₁.leg_eq_ack hack
      obtain ⟨i, hv, hl⟩ := h₁.chnl (by simp)
      obtain ⟨h1, h2⟩ := h₁.hdr m (by simp [Leg.msgs])
      rw [hr]
      exact mbPhyChnlRxIsr_ack rsp hack ⟨hv, h1.trans hl, hl, h2.symm⟩
    exact ⟨halone', hown (h₁.rxAck hack) hr1,
      hother (h₂.frame (hfilter _ (MailboxData.isAsync_of_isAck hack)) rfl (fun _ => Iff.rfl) (by simp [hx])) hr1⟩
  · rw [Bool.not_eq_true] at hack
    by_cases hasync : m.isAsync
    · -- the command of the other direction
      obtain rfl := h₂.leg_eq_cmd hasync
      obtain ⟨i, hv, hl⟩ := h₂.chnl (by simp)
      obtain ⟨h1, h2⟩ := h₂.hdr m (by simp [Leg.msgs])
      obtain ⟨ack, hr1, ha, hc1, hc2, -⟩ := mbPhyChnlRxIsr_async (c := ((s.view x).setHw h')) rsp hasync
        ⟨fun he => b.id_ne' hxy he.symm, b.id_lt y⟩ ((b.num_eq hxy).symm ▸ hv.idx) (h1.trans hl)
      rw [← hr] at hr1
      exact ⟨halone', hown (h₁.frame rfl (hfilter _ hack) (by simp [hx]) fun _ _ => Iff.rfl) hr1,
        hother (h₂.rxCmd hasync ha hc1 hc2) hr1⟩
    · rw [Bool.not_eq_true] at hasync
      have hr1 : r.1 = .idle := by rw [hr]; exact mbPhyChnlRxIsr_sync rsp hack hasync
      exact ⟨halone', hown (h₁.frame rfl (hfilter _ hack) (by simp [hx]) fun _ _ => Iff.rfl) hr1,
        hother (h₂.frame (hfilter _ hasync) rfl (fun _ => Iff.rfl) (by simp [hx])) hr1⟩

end

variable (b fly Wf Good) in
/-- What holds in every state of a link: each CPU only has channels to the other open, and while the
mailbox is good both directions are in one of their phases. -/
structure LinkInv (s : Link H) : Prop where
  wf : Wf s.hw
  side : ∀ x, SideInv (b.id !x) (s.view x)
  peer : ∀ x p, s.isr x = .ackExit p → (b.cfg x).Peer p
  legs : Good s.hw → Legs b fly s false true

theorem Legs.toward (h : Legs b fly s false true) (x : Bool) : Legs b fly s x (!x) := by
  cases x
  · exact h
  · exact h.symm

theorem Legs.of_toward {x : Bool} (h : Legs b fly s x (!x)) : Legs b fly s false true := by
  cases x
  · exact h
  · exact h.symm

theorem SideInv.congr (h : SideInv q c) (h' : H) : SideInv q (c.setHw h') :=
  ⟨h.init, h.exc, h.far⟩

theorem LinkInv.put (h : LinkInv b fly Wf Good s) (x : Bool) (hwf : Wf c.hw)
    (hs : SideInv (b.id !x) c) (hp : ∀ p, r = .ackExit p → (b.cfg x).Peer p) (hg : Good c.hw → Good s.hw)
    (hl : Good c.hw → Legs b fly s x (!x) → Legs b fly (s.put x c r) x (!x)) :
    LinkInv b fly Wf Good (s.put x c r) where
  wf := hwf
  side z := by
    by_cases hz : z = x
    · subst hz; simpa using hs
    · simpa [hz] using (h.side z).congr c.hw
  peer z p hz := by
    by_cases hzx : z = x
    · subst hzx; simp only [Link.isr_put, ↓reduceIte] at hz; exact hp p hz
    · simp only [Link.isr_put, hzx, ↓reduceIte] at hz; exact h.peer z p hz
  legs hc := (hl hc ((h.legs (hg hc)).toward x)).of_toward

theorem Hw.Laws.sent (L : hw.Laws fly Wf Good) (hwf : Wf h)
    (hh : h' = h ∨ ∃ q m, h' = (hw.send h p q m).2) : Wf h' ∧ (Good h' → Good h) := by
  rcases hh with rfl | ⟨q, m, rfl⟩
  · exact ⟨hwf, fun hg => hg⟩
  · exact ⟨L.send_wf hwf, L.send_good⟩

theorem CallStep.sends {cfg : ChnlCfg} {send : SendFn H} {c' : Chnl H}
    (h : CallStep cfg send q a c c') : c'.hw = c.hw ∨ ∃ q m, c'.hw = (send c.hw cfg.selfCpu q m).2 := by
  cases h with
  | quiet _ hh => exact .inl hh
  | sync _ m _ _ hh => exact .inr ⟨q, m, hh⟩
  | @tx i m _ ht => exact .inr ⟨q, m, ht.hw⟩

theorem LinkInv.call (L : hw.Laws fly Wf Good) (h : LinkInv b fly Wf Good s) (ha : a.towards (b.id !x) = true) :
    LinkInv b fly Wf Good (s.put x (a.run (b.cfg x) hw.send id (s.view x)).2 (s.isr x)) := by
  obtain ⟨hs, hc⟩ := (h.side x).call (b.cfg x) hw.send ha
  generalize (a.run (b.cfg x) hw.send id (s.view x)).2 = c at hs hc
  obtain ⟨hwf, hg⟩ := L.sent h.wf hc.sends
  exact h.put x hwf hs (h.peer x) hg fun hg hl => hl.call L (Bool.not_ne_self x) h.wf hc hg

theorem LinkInv.ackExit (L : hw.Laws fly Wf Good) (h : LinkInv b fly Wf Good s) (hx : s.isr x = .ackExit p) :
    LinkInv b fly Wf Good (s.put x (mbPhyChnlRxAckIsrExit (b.cfg x) hw.send id p (s.view x)) .idle) := by
  obtain ⟨hs, hc⟩ := (h.side x).ackExit (b.cfg x) hw.send (h.peer x p hx)
  obtain ⟨hwf, hg⟩ := L.sent h.wf (hc.imp_right fun ⟨m, hm⟩ => ⟨p, m, hm⟩)
  refine h.put x hwf hs nofun hg fun hg hl => ?_
  obtain ⟨leg, h₁⟩ := hl.out
  obtain ⟨rfl, rfl⟩ := h₁.done_of_isr hx
  exact hl.ackExit L (Bool.not_ne_self x) h.wf hx
    (ackExit_transmits (b.cfg x) hw.send (b.peer x) (h₁.busy.2 (by simp))) hg

theorem LinkInv.cmdExit (L : hw.Laws fly Wf Good) (h : LinkInv b fly Wf Good s) {a : MailboxData}
    (hx : s.isr x = .cmdExit p a) :
    LinkInv b fly Wf Good (s.put x (mbPhyChnlRxCmdIsrExit (b.cfg x) hw.send p a (s.view x)) .idle) := by
  obtain ⟨hs, hsame, hh⟩ := (h.side x).cmdExit (b.cfg x) hw.send p a
  obtain ⟨hwf, hg⟩ := L.sent h.wf (.inr ⟨p, a, hh⟩)
  exact h.put x hwf hs nofun hg fun hg hl =>
    hl.cmdExit L (Bool.not_ne_self x) h.wf hx hsame hh hg

theorem LinkInv.rx (L : hw.Laws fly Wf Good) (h : LinkInv b fly Wf Good s) (hx : s.isr x = .idle)
    {a : Nat} (hc : hw.copy s.hw (b.id x) = some (a, m, h')) (rsp : MailboxData) :
    LinkInv b fly Wf Good (s.put x (mbPhyChnlRxIsr (b.cfg x) m rsp ((s.view x).setHw h')).2
      (mbPhyChnlRxIsr (b.cfg x) m rsp ((s.view x).setHw h')).1) := by
  have hf := mbPhyChnlRxIsr_frame (b.cfg x) m rsp ((s.view x).setHw h')
  have hg : ∀ {P : H → Prop}, P h' → P (mbPhyChnlRxIsr (b.cfg x) m rsp ((s.view x).setHw h')).2.hw :=
    fun hP => by rw [hf.hw]; exact hP
  refine h.put x (hg (L.copy_wf h.wf hc)) (((h.side x).congr h').rx hf) (fun p hp => mbPhyChnlRxIsr_peer hp) ?_ ?_
  · rw [hf.hw]; exact (L.copy_good hc).1
  · intro hg hl
    rw [hf.hw] at hg
    exact hl.rx L (Bool.not_ne_self x) h.wf ((L.copy_good hc).1 hg) hx hc rsp rfl

theorem LinkInv.pop (L : hw.Laws fly Wf Good) (h : LinkInv b fly Wf Good s) {c : Nat}
    (hc : hw.pop s.hw c = some h') : LinkInv b fly Wf Good { s with hw := h' } where
  wf := L.pop_wf h.wf hc
  side x := (h.side x).congr h'
  peer := h.peer
  legs hg := by
    obtain ⟨h1, h2, h3⟩ := h.legs ((L.pop_good hc).1 hg)
    rw [← L.pop_fly hc] at h1
    refine ⟨h1, ?_, ?_⟩ <;> simpa only [LegOk, L.pop_fly hc] using ‹_›

def Board.towards (b : Board) (x : Bool) (a : ApiCall) : Bool := a.towards (b.id !x)

variable {t : Link H}

theorem LinkInv.step (L : hw.Laws fly Wf Good) (h : LinkInv b fly Wf Good s) {a : LinkAct}
    (ha : a.all b.towards) (hs : FlatStep b hw s a t) : LinkInv b fly Wf Good t := by
  cases hs with
  | call x c =>
    simp only [LinkAct.all, Bool.and_eq_true] at ha
    exact h.call L ha.1
  | pop hx hc => exact h.pop L hc
  | rx rsp hx hc => exact h.rx L hx hc rsp
  | ackExit hx => exact h.ackExit L hx
  | cmdExit hx => exact h.cmdExit L hx

/-! ### Without synchronous writes -/

def ApiCall.isSyncWrite : ApiCall → Bool
  | .ctrl _ (.writeSync (some _)) => true
  | _ => false

def Board.asyncTowards (b : Board) (x : Bool) (a : ApiCall) : Bool := b.towards x a && !a.isSyncWrite

variable (b fly Wf Good) in
structure AsyncInv (s : Link H) : Prop where
  inv : LinkInv b fly Wf Good s
  good : Good s.hw
  kinds : ∀ a c, ∀ m ∈ fly s.hw a c, m.isAsync = true ∨ m.isAck = true

theorem length_eq_filters (h : ∀ m ∈ l, m.isAsync ∨ m.isAck) :
    l.length = (l.filter (·.isAsync)).length + (l.filter (·.isAck)).length := by
  induction l with
  | nil => rfl
  | cons m l ih =>
    have ih := ih fun m' hm' => h m' (by simp [hm'])
    rcases h m (by simp) with hm | hm
    · have hack : m.isAck = false := by
        cases ha : m.isAck
        · rfl
        · rw [MailboxData.isAsync_of_isAck ha] at hm; cases hm
      simp only [List.filter_cons, hm, hack, Bool.false_eq_true, ↓reduceIte, List.length_cons]
      omega
    · have hasync := MailboxData.isAsync_of_isAck hm
      simp only [List.filter_cons, hm, hasync, Bool.false_eq_true, ↓reduceIte, List.length_cons]
      omega

theorem AsyncInv.length_eq (h : AsyncInv b fly Wf Good s) {l₁ l₂ : Leg} (h₁ : LegOk b fly s x y l₁)
    (h₂ : LegOk b fly s y x l₂) : (fly s.hw (b.id x) (b.id y)).length = l₁.cmds.length + l₂.acks.length := by
  rw [length_eq_filters (h.kinds _ _), h₁.cmds, h₂.acks]

theorem Leg.cmds_length_le (l : Leg) : l.cmds.length ≤ 1 := by cases l <;> simp [cmds]
theorem Leg.acks_length_le (l : Leg) : l.acks.length ≤ 1 := by cases l <;> simp [acks]

theorem AsyncInv.length_le (h : AsyncInv b fly Wf Good s) (x : Bool) : (fly s.hw (b.id x) (b.id !x)).length ≤ 2 := by
  obtain ⟨-, ⟨l₁, h₁⟩, ⟨l₂, h₂⟩⟩ := (h.inv.legs h.good).toward x
  rw [h.length_eq h₁ h₂]
  have := l₁.cmds_length_le
  have := l₂.acks_length_le
  omega

theorem AsyncInv.length_le_one (h : AsyncInv b fly Wf Good s) (hl : LegOk b fly s x (!x) leg)
    (hleg : leg.cmds = []) : (fly s.hw (b.id x) (b.id !x)).length ≤ 1 := by
  obtain ⟨-, -, ⟨l₂, h₂⟩⟩ := (h.inv.legs h.good).toward x
  rw [h.length_eq hl h₂, hleg]
  simpa using l₂.acks_length_le

theorem AsyncInv.fly_eq_nil (h : AsyncInv b fly Wf Good s) (c : Nat) (hc : c ≠ b.id x) : fly s.hw c (b.id !x) = [] := by
  by_contra hne
  rcases ((h.inv.legs h.good).toward x).alone c (b.id !x) hne with ⟨he, -⟩ | ⟨-, he⟩
  · exact hc he
  · exact b.id_ne x he.symm

theorem AsyncInv.send_room (L : hw.Laws fly Wf Good) (h : AsyncInv b fly Wf Good s) (m : MailboxData)
    (hl : (fly s.hw (b.id x) (b.id !x)).length ≤ 1) :
    (hw.send s.hw (b.id x) (b.id !x) m).1 = .ok ∧ Good (hw.send s.hw (b.id x) (b.id !x) m).2 :=
  L.send_room h.inv.wf h.good (b.id_lt !x) h.fly_eq_nil hl

theorem AsyncInv.room (L : hw.Laws fly Wf Good) (h : AsyncInv b fly Wf Good s)
    (hm : m.isAsync ∨ m.isAck) (hl : (fly s.hw (b.id x) (b.id !x)).length ≤ 1) :
    Good (hw.send s.hw (b.id x) (b.id !x) m).2 ∧
      ∀ a c, ∀ m' ∈ fly (hw.send s.hw (b.id x) (b.id !x) m).2 a c, m'.isAsync ∨ m'.isAck := by
  obtain ⟨hok, hg⟩ := h.send_room L m hl
  refine ⟨hg, fun a c m' hm' => ?_⟩
  rw [L.send_ok h.inv.wf hg hok] at hm'
  split at hm'
  · rcases List.mem_append.1 hm' with hm' | hm'
    · exact h.kinds _ _ m' hm'
    · rw [List.mem_singleton.1 hm']; exact hm
  · exact h.kinds _ _ m' hm'

theorem AsyncInv.transmits (L : hw.Laws fly Wf Good) (h : AsyncInv b fly Wf Good s)
    (ht : Transmits (b.cfg x) hw.send (b.id !x) i m (s.view x) c)
    (hl : LegOk b fly s x (!x) leg) (hleg : leg.cmds = []) :
    Good c.hw ∧ ∀ a d, ∀ m' ∈ fly c.hw a d, m'.isAsync ∨ m'.isAck := by
  have hh : c.hw = (hw.send s.hw (b.id x) (b.id !x) m).2 := ht.hw
  rw [hh]
  exact h.room L (.inl (isAsync_of_ctrl ht.ctrl).1) (h.length_le_one hl hleg)

theorem AsyncInv.sendAck (L : hw.Laws fly Wf Good) (h : AsyncInv b fly Wf Good s) {a : MailboxData}
    (hx : s.isr x = .cmdExit p a) : Good (hw.send s.hw (b.id x) p a).2 ∧
      ∀ c d, ∀ m ∈ fly (hw.send s.hw (b.id x) p a).2 c d, m.isAsync ∨ m.isAck := by
  obtain ⟨-, ⟨l₁, h₁⟩, ⟨l₂, h₂⟩⟩ := (h.inv.legs h.good).toward x
  obtain ⟨rfl, rfl⟩ : p = b.id !x ∧ l₂ = .reply a := (h₂.reply p a).1 hx
  refine h.room L (.inr (h₂.ack a rfl)) ?_
  rw [h.length_eq h₁ h₂]
  simpa [Leg.acks] using l₁.cmds_length_le

theorem AsyncInv.call (L : hw.Laws fly Wf Good) (h : AsyncInv b fly Wf Good s)
    (ha : a.isSyncWrite = false) (hc : CallStep (b.cfg x) hw.send (b.id !x) a (s.view x) c) :
    Good c.hw ∧ ∀ a d, ∀ m ∈ fly c.hw a d, m.isAsync ∨ m.isAck := by
  cases hc with
  | quiet _ hh => rw [hh]; exact ⟨h.good, h.kinds⟩
  | sync hs => rw [hs] at ha; cases ha
  | tx hi ht =>
    obtain ⟨-, ⟨l₁, h₁⟩, -⟩ := (h.inv.legs h.good).toward x
    exact h.transmits L ht h₁ (by rw [LegInv.leg_eq_idle h₁ hi]; rfl)

theorem AsyncInv.step (L : hw.Laws fly Wf Good) (h : AsyncInv b fly Wf Good s) {a : LinkAct}
    (ha : a.all b.asyncTowards) (hs : FlatStep b hw s a t) : AsyncInv b fly Wf Good t := by
  have hinv : LinkInv b fly Wf Good t := by
    refine h.inv.step L (LinkAct.all_mono (fun x c hc => ?_) ha) hs
    simp only [Board.asyncTowards, Bool.and_eq_true] at hc
    exact hc.1
  suffices hk : Good t.hw ∧ ∀ a c, ∀ m ∈ fly t.hw a c, m.isAsync ∨ m.isAck = true from ⟨hinv, hk.1, hk.2⟩
  cases hs with
  | call x c =>
    simp only [LinkAct.all, Board.asyncTowards, Bool.and_eq_true, Bool.not_eq_true'] at ha
    exact h.call L ha.1.2 ((h.inv.side x).call (b.cfg x) hw.send ha.1.1).2
  | pop hx hc =>
    refine ⟨(L.pop_good hc).2 h.good, ?_⟩
    rw [L.pop_fly hc]; exact h.kinds
  | @rx x rsp a m h' hx hc =>
    have hh := (mbPhyChnlRxIsr_frame (b.cfg x) m rsp ((s.view x).setHw h')).hw
    simp only [Link.hw_put, hh]
    obtain ⟨h1, h2⟩ := L.copy_fly h.inv.wf h.good hc
    refine ⟨(L.copy_good hc).2 h.good, fun d e m' hm' => h.kinds d e m' ?_⟩
    by_cases hde : d = a ∧ e = b.id x
    · obtain ⟨rfl, rfl⟩ := hde; rw [h1]; exact List.mem_cons_of_mem _ hm'
    · rw [← h2 d e hde]; exact hm'
  | @ackExit x p hx =>
    obtain ⟨-, ⟨l₁, h₁⟩, -⟩ := (h.inv.legs h.good).toward x
    obtain ⟨rfl, rfl⟩ := h₁.done_of_isr hx
    rcases ackExit_transmits (b.cfg x) hw.send (b.peer x) (h₁.busy.2 (by simp)) with ⟨-, hh⟩ | ⟨i, m, ht⟩
    · simp only [Link.hw_put, hh]; exact ⟨h.good, h.kinds⟩
    · exact h.transmits L ht h₁ rfl
  | @cmdExit x p ack hx =>
    obtain ⟨-, -, hh⟩ := (h.inv.side x).cmdExit (b.cfg x) hw.send p ack
    simp only [Link.hw_put, hh]
    exact h.sendAck L hx

/-! ### Runs -/

variable (b fly) in
structure Started (s : Link H) : Prop where
  side : ∀ x, SideInv (b.id !x) (s.view x)
  phy : ∀ x, ((s.view x).phyChnlXCb (b.id !x)).txState = .idle
  isr : ∀ x, s.isr x = .idle
  fly : ∀ p q, fly s.hw p q = []

theorem Started.linkInv (h : Started b fly s) (hwf : Wf s.hw) : LinkInv b fly Wf Good s := by
  have hleg : ∀ x y, ((s.view x).phyChnlXCb (b.id y)).txState = .idle → LegOk b fly s x y .idle := by
    intro x y hp
    unfold LegOk
    rw [h.fly, h.fly, h.isr, h.isr]
    exact .init hp
  refine ⟨hwf, h.side, fun x p hp => ?_, fun _ => ⟨fun a c hne => absurd (h.fly a c) hne, ?_, ?_⟩⟩
  · rw [h.isr x] at hp; cases hp
  · exact ⟨.idle, hleg false true (h.phy false)⟩
  · exact ⟨.idle, hleg true false (h.phy true)⟩

theorem Started.asyncInv (h : Started b fly s) (hwf : Wf s.hw) (hg : Good s.hw) : AsyncInv b fly Wf Good s :=
  ⟨h.linkInv hwf, hg, fun a c m hm => by rw [h.fly] at hm; cases hm⟩

variable {s₀ : Link H}

theorem LinkInv.run (L : hw.Laws fly Wf Good) (h₀ : Started b fly s₀) (hwf : Wf s₀.hw)
    (hr : Run (Link.step b hw) (fun _ a => a.all b.towards) s₀ s) : LinkInv b fly Wf Good s :=
  (Link.run_flat hr).invariant (h₀.linkInv hwf) fun _ _ _ _ h hok hs => h.step L hok.2 (Link.flatStep hok.1 hs)

theorem AsyncInv.run (L : hw.Laws fly Wf Good) (h₀ : Started b fly s₀) (hwf : Wf s₀.hw)
    (hg : Good s₀.hw) (hr : Run (Link.step b hw) (fun _ a => a.all b.asyncTowards) s₀ s) : AsyncInv b fly Wf Good s :=
  (Link.run_flat hr).invariant (h₀.asyncInv hwf hg) fun _ _ _ _ h hok hs => h.step L hok.2 (Link.flatStep hok.1 hs)

end
end Bk7258

import Bk7258.Lib.Lts
import Bk7258.Mailbox.ChannelSpec

/-!
# Two CPUs over one mailbox

`Link.step` runs the channel layers of two CPUs, `x` and `!x`, over a shared mailbox: API calls from any context, and
the receive interrupt of each CPU, which reads its FIFO (`pop`), copies the message and processes it up to the callback
(`rx`), and finishes (`exit`). A step with callbacks is a sequence of steps without (`Link.step_flat`).
-/

namespace Bk7258
open Lts Function

namespace MailboxData

def isAck (m : MailboxData) : Bool := m.hdr.ctrl &&& chnlCtrlAckBox ≠ 0

/-- A command that is acknowledged: neither an ACK nor a synchronous command. -/
def isAsync (m : MailboxData) : Bool := !m.isAck && !(m.hdr.ctrl &&& chnlCtrlSyncTx ≠ 0)

end MailboxData

/-- The mailbox as the driver uses it. `pop` is the FIFO read of the interrupt loop of `cpu`, `copy` the
copy of the message it then makes, with the source CPU of the message. -/
structure Hw (H : Type) where
  send : SendFn H
  pop : H → (cpu : Nat) → Option H
  copy : H → (cpu : Nat) → Option (Nat × MailboxData × H)

structure Board where
  cfg : Bool → ChnlCfg
  ne : (cfg false).selfCpu ≠ (cfg true).selfCpu
  num : (cfg false).logChnlNum (cfg true).selfCpu = (cfg true).logChnlNum (cfg false).selfCpu

namespace Board
variable (b : Board)

def id (x : Bool) : Nat := (b.cfg x).selfCpu

def chnlNum : Nat := (b.cfg false).logChnlNum (b.id true)

theorem id_ne' {x y : Bool} (hxy : y ≠ x) : b.id y ≠ b.id x := by
  cases x <;> cases y
  · exact absurd rfl hxy
  · exact b.ne.symm
  · exact b.ne
  · exact absurd rfl hxy

theorem id_ne (x : Bool) : b.id x ≠ b.id (!x) := b.id_ne' (by cases x <;> decide)

theorem chnlNum_eq (x : Bool) : (b.cfg x).logChnlNum (b.id !x) = b.chnlNum := by
  cases x
  · rfl
  · exact b.num.symm

theorem id_lt (x : Bool) : b.id x < phyChnlNum := (b.cfg x).selfCpu_lt

theorem peer (x : Bool) : (b.cfg x).Peer (b.id !x) := ⟨b.id_ne x, b.id_lt !x⟩

theorem valid {x : Bool} {i : Nat} (h : i < b.chnlNum) : (b.cfg x).Valid (b.id !x) i :=
  ⟨(b.peer x).1, (b.peer x).2, by rw [b.chnlNum_eq]; exact h⟩

end Board

structure Link (H : Type) where
  chnl : Bool → Chnl Unit
  isr : Bool → RxIsr
  hw : H

namespace Link
variable {H : Type} (s : Link H)

def view (x : Bool) : Chnl H := { s.chnl x with hw := s.hw }

def put (x : Bool) (c : Chnl H) (r : RxIsr) : Link H where
  chnl := update s.chnl x { c with hw := () }
  isr := update s.isr x r
  hw := c.hw

@[simp] theorem view_put (x : Bool) (c : Chnl H) (r : RxIsr) : (s.put x c r).view x = c := by
  simp [view, put]

@[simp] theorem view_put_ne {x y : Bool} (h : y ≠ x) (c : Chnl H) (r : RxIsr) :
    (s.put x c r).view y = (s.view y).setHw c.hw := by
  simp [view, put, h, Chnl.setHw]

@[simp] theorem isr_put (x y : Bool) (c : Chnl H) (r : RxIsr) : (s.put x c r).isr y = if y = x then r else s.isr y := by
  simp [put, update_apply]

@[simp] theorem hw_put (x : Bool) (c : Chnl H) (r : RxIsr) : (s.put x c r).hw = c.hw := rfl

@[simp] theorem put_view (x : Bool) : s.put x (s.view x) (s.isr x) = s := by
  simp [put, view]

@[simp] theorem put_put (x : Bool) (c d : Chnl H) (r q : RxIsr) : (s.put x c r).put x d q = s.put x d q := by
  simp [put]

end Link

/-- A step of `x`: a call with what the `tx_isr` it may reach does, or a step of the receive interrupt
(`rsp` is what the `rx_isr` leaves in the message buffer). -/
inductive LinkAct
  | call (x : Bool) (c : ApiCall) (txIsr : Script)
  | pop (x : Bool)
  | rx (x : Bool) (rsp : MailboxData)
  | exit (x : Bool) (txIsr : Script)
deriving DecidableEq, Repr

def LinkAct.all (p : Bool → ApiCall → Bool) : LinkAct → Bool
  | .call x c scr => p x c && scr.all (p x)
  | .exit x scr => scr.all (p x)
  | .pop _ | .rx _ _ => true

theorem Script.all_mono {p p' : ApiCall → Bool} (h : ∀ c, p c = true → p' c = true) {scr : Script}
    (hs : scr.all p) : scr.all p' := by
  induction scr with
  | done => rfl
  | call c isr next ih1 ih2 =>
    simp only [Script.all, Bool.and_eq_true] at hs ⊢
    exact ⟨⟨h c hs.1.1, ih1 hs.1.2⟩, ih2 hs.2⟩

theorem LinkAct.all_mono {p p' : Bool → ApiCall → Bool} (h : ∀ x c, p x c = true → p' x c = true) {a : LinkAct}
    (ha : a.all p) : a.all p' := by
  cases a with
  | call x c scr =>
    simp only [LinkAct.all, Bool.and_eq_true] at ha ⊢
    exact ⟨h x c ha.1, Script.all_mono (h x) ha.2⟩
  | exit x scr => exact Script.all_mono (h x) ha
  | pop | rx => rfl

theorem Script.all_true (scr : Script) : scr.all (fun _ => true) = true := by
  induction scr with
  | done => rfl
  | call c isr next ih1 ih2 => simp [Script.all, ih1, ih2]

theorem LinkAct.all_true (a : LinkAct) : a.all (fun _ _ => true) = true := by
  cases a <;> simp [LinkAct.all, Script.all_true]

def LinkAct.flat : LinkAct → Bool
  | .call _ _ scr | .exit _ scr => scr = .done
  | .pop _ | .rx _ _ => true

section
variable {H : Type} (b : Board) (hw : Hw H)

def Link.step (s : Link H) : LinkAct → Option (Link H)
  | .call x c scr =>
    some (s.put x (c.run (b.cfg x) hw.send (scr.run (b.cfg x) hw.send) (s.view x)).2 (s.isr x))
  | .pop x => if s.isr x = .idle then (hw.pop s.hw (b.id x)).map fun h => { s with hw := h } else none
  | .rx x rsp =>
    if s.isr x = .idle then (hw.copy s.hw (b.id x)).map fun r =>
      let t := mbPhyChnlRxIsr (b.cfg x) r.2.1 rsp ((s.view x).setHw r.2.2)
      s.put x t.2 t.1
    else none
  | .exit x scr =>
    match s.isr x with
    | .idle => none
    | .ackExit p =>
      some (s.put x (mbPhyChnlRxAckIsrExit (b.cfg x) hw.send (scr.run (b.cfg x) hw.send) p (s.view x)) .idle)
    | .cmdExit p ack => some (s.put x (mbPhyChnlRxCmdIsrExit (b.cfg x) hw.send p ack (s.view x)) .idle)

def FlatOk (p : Bool → ApiCall → Bool) (_ : Link H) (a : LinkAct) : Prop := a.flat = true ∧ a.all p = true

variable {b hw} {p : Bool → ApiCall → Bool} {x : Bool} {s t : Link H}

theorem Link.run_calls (cs : List ApiCall) (hcs : ∀ c ∈ cs, p x c = true) (s : Link H) (c : Chnl H) (r : RxIsr) :
    Run (Link.step b hw) (FlatOk p) (s.put x c r) (s.put x (calls (b.cfg x) hw.send cs c) r) := by
  induction cs generalizing c with
  | nil => exact .refl
  | cons d cs ih =>
    have hd : Run (Link.step b hw) (FlatOk p) (s.put x c r) (s.put x (d.run (b.cfg x) hw.send id c).2 r) := by
      refine .tail (l := .call x d .done) .refl ⟨rfl, ?_⟩ ?_
      · simp [LinkAct.all, Script.all, hcs d (by simp)]
      · simp only [Link.step, Link.view_put, Link.isr_put, ↓reduceIte, Link.put_put]
        rfl
    exact hd.trans (ih (fun e he => hcs e (by simp [he])) _)

theorem Link.step_flat {a : LinkAct} (ha : a.all p) (hs : s.step b hw a = some t) :
    Run (Link.step b hw) (FlatOk p) s t := by
  cases a with
  | call x c scr =>
    simp only [LinkAct.all, Bool.and_eq_true] at ha
    obtain ⟨cs, hcs, he⟩ := ApiCall.run_script (b.cfg x) hw.send (p x) scr ha.2 c (s.view x)
    cases hs
    rw [he]
    have hcs' : ∀ d ∈ c :: cs, p x d = true := by simpa [ha.1] using hcs
    have hrun : Run (Link.step b hw) (FlatOk p) (s.put x (s.view x) (s.isr x)) _ :=
      Link.run_calls (c :: cs) hcs' s (s.view x) (s.isr x)
    rwa [Link.put_view] at hrun
  | pop x | rx x rsp => exact .tail .refl ⟨rfl, rfl⟩ hs
  | exit x scr =>
    cases hx : s.isr x with
    | idle => simp [Link.step, hx] at hs
    | cmdExit q ack =>
      refine .tail (l := .exit x .done) .refl ⟨rfl, rfl⟩ ?_
      simpa only [Link.step, hx] using hs
    | ackExit q =>
      obtain ⟨cs, hcs, he⟩ := mbPhyChnlRxAckIsrExit_script (b.cfg x) hw.send (p x) scr ha q (s.view x)
      simp only [Link.step, hx, Option.some.injEq] at hs
      subst hs
      rw [he]
      refine Run.trans (.tail (l := .exit x .done) .refl ⟨rfl, rfl⟩ ?_)
        (Link.run_calls cs hcs s (mbPhyChnlRxAckIsrExit (b.cfg x) hw.send id q (s.view x)) .idle)
      simp only [Link.step, hx]
      rfl

theorem Link.run_flat (h : Run (Link.step b hw) (fun _ a => a.all p) s t) : Run (Link.step b hw) (FlatOk p) s t :=
  h.refine fun _ _ _ ha hs => Link.step_flat ha hs

variable (b hw) in
inductive FlatStep (s : Link H) : LinkAct → Link H → Prop
  | call (x : Bool) (c : ApiCall) :
      FlatStep s (.call x c .done) (s.put x (c.run (b.cfg x) hw.send id (s.view x)).2 (s.isr x))
  | pop {x : Bool} {h' : H} (hx : s.isr x = .idle) (hc : hw.pop s.hw (b.id x) = some h') :
      FlatStep s (.pop x) { s with hw := h' }
  | rx {x : Bool} (rsp : MailboxData) {a : Nat} {m : MailboxData} {h' : H} (hx : s.isr x = .idle)
      (hc : hw.copy s.hw (b.id x) = some (a, m, h')) :
      FlatStep s (.rx x rsp) (s.put x (mbPhyChnlRxIsr (b.cfg x) m rsp ((s.view x).setHw h')).2
        (mbPhyChnlRxIsr (b.cfg x) m rsp ((s.view x).setHw h')).1)
  | ackExit {x : Bool} {p : Nat} (hx : s.isr x = .ackExit p) :
      FlatStep s (.exit x .done) (s.put x (mbPhyChnlRxAckIsrExit (b.cfg x) hw.send id p (s.view x)) .idle)
  | cmdExit {x : Bool} {p : Nat} {ack : MailboxData} (hx : s.isr x = .cmdExit p ack) :
      FlatStep s (.exit x .done) (s.put x (mbPhyChnlRxCmdIsrExit (b.cfg x) hw.send p ack (s.view x)) .idle)

theorem Link.flatStep {a : LinkAct} (ha : a.flat) (hs : s.step b hw a = some t) : FlatStep b hw s a t := by
  cases a with
  | call x c scr =>
    obtain rfl : scr = .done := by simpa [LinkAct.flat] using ha
    cases hs
    exact .call x c
  | pop x =>
    simp only [Link.step] at hs
    split at hs
    · obtain ⟨h', hc, rfl⟩ := Option.map_eq_some_iff.1 hs
      exact .pop ‹_› hc
    · cases hs
  | rx x rsp =>
    simp only [Link.step] at hs
    split at hs
    · obtain ⟨⟨a, m, h'⟩, hc, rfl⟩ := Option.map_eq_some_iff.1 hs
      exact .rx rsp ‹_› hc
    · cases hs
  | exit x scr =>
    obtain rfl : scr = .done := by simpa [LinkAct.flat] using ha
    simp only [Link.step] at hs
    split at hs
    · cases hs
    · cases hs; exact .ackExit ‹_›
    · cases hs; exact .cmdExit ‹_›

end
end Bk7258

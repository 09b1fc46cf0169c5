import Bk7258.Uart.End

/-!
# Who has `tx_in_process`

The flag is claimed by a trigger and cleared by the context that could not send. In between it belongs to that context,
then to the command it writes, and from its completion on to `mb_uart_tx_cmpl_isr`. In exception mode the flag is not
set at all.
-/

namespace Bk7258
open Lts Ring

namespace UartPc

def owns : UartPc → Bool
  | .sendCts _ | .sendRd _ | .sendWr .. | .sendData .. | .clear _ | .sendState _ | .txCmpl .. | .txCmplCts _
  | .txCmplFail => true
  | _ => false

def advancing : UartPc → Bool
  | .sendIdx .. => true
  | _ => false

def triggers : UartPc → Bool
  | .dataTrigger _ | .stateTrigger => true
  | _ => false

def Fresh (cb : MbUartCb) : UartPc → Prop
  | .sendWr _ rd => rd = cb.txRdIdx
  | .sendData _ rd _ => rd = cb.txRdIdx ∧ cb.txCmd = .sendData
  | .txCmpl c _ => c.cmd = cb.txCmd
  | _ => True

theorem Fresh.congr {cb cb' : MbUartCb} {p : UartPc} (h : p.Fresh cb) (hrd : cb'.txRdIdx = cb.txRdIdx)
    (hcmd : cb'.txCmd = cb.txCmd) : p.Fresh cb' := by
  cases p <;> simp_all [Fresh]

end UartPc

namespace UartRet
variable (ret : UartRet)

@[simp] theorem done_owns : ret.done.owns = false := by cases ret <;> rfl
@[simp] theorem done_advancing : ret.done.advancing = false := by cases ret <;> rfl
@[simp] theorem sent_owns : ret.sent.owns = false := by cases ret <;> rfl
@[simp] theorem sent_advancing : ret.sent.advancing = false := by cases ret <;> rfl
@[simp] theorem failed_owns : ret.failed.owns := by cases ret <;> rfl
@[simp] theorem failed_fresh (cb : MbUartCb) : ret.failed.Fresh cb := by cases ret <;> trivial

end UartRet

/-- What a step of a context does to the owner of `tx_in_process`. -/
inductive MbUartCb.TxStep (cb : MbUartCb) (p : UartPc) (cb' : MbUartCb) (p' : UartPc) : Prop
  | other (hp : p.owns = false) (ha : p.advancing = false) (hp' : p'.owns = false) (ha' : p'.advancing = false)
      (hproc : cb'.txInProcess = cb.txInProcess) (hw : cb'.written = cb.written) (hcmd : cb'.txCmd = cb.txCmd)
      (hrd : cb'.txRdIdx = cb.txRdIdx)
  | claim (hp : p.owns = false) (ha : p.advancing = false) (hproc : cb.txInProcess = false) (hp' : p'.owns = true)
      (hfresh : p'.Fresh cb') (hproc' : cb'.txInProcess = true) (hw : cb'.written = cb.written)
  | work (hp : p.owns = true) (hp' : p'.owns = true) (hfresh : p'.Fresh cb')
      (hproc : cb'.txInProcess = cb.txInProcess) (hw : cb'.written = cb.written)
  | write (k : MbUartCmd) (hp : p.owns = true) (hp' : p'.owns = false)
      (hproc : cb'.txInProcess = cb.txInProcess) (hw : cb'.written = some k) (hcmd : cb'.txCmd = k.cmd)
  | release (hp : p.owns = true) (hp' : p'.owns = false) (ha' : p'.advancing = false)
      (hproc : cb'.txInProcess = false) (hw : cb'.written = cb.written)
  | advance (hp : p.advancing = true) (hp' : p'.owns = false) (ha' : p'.advancing = false)
      (hproc : cb'.txInProcess = cb.txInProcess) (hw : cb'.written = cb.written) (hcmd : cb'.txCmd = cb.txCmd)

theorem MbUartCb.next_txStep {cb cb' : MbUartCb} {xchg : Nat → BitVec 8} {p p' : UartPc}
    (h : cb.next xchg p = some (cb', p')) (hex : p.triggers → cb.exceptionMode = false)
    (hown : p.owns → cb.txInProcess ∧ cb.written = none ∧ p.Fresh cb) : cb.TxStep p cb' p' := by
  cases p with
  | idle | rxRsp => cases h
  | write | writeRd | writeIdx | read | readIdx | rxIdx | rxFree | txCmplOk =>
    cases h
    refine .other rfl rfl ?_ ?_ rfl rfl rfl rfl <;> first | rfl | (split <;> rfl)
  | rx c =>
    cases h
    refine .other rfl rfl ?_ ?_ rfl rfl rfl rfl <;> (cases c.cmd <;> rfl)
  | rxCts c txFail =>
    cases h
    refine .other rfl rfl ?_ ?_ rfl rfl rfl rfl <;> (split <;> rfl)
  | readRd bufLen rd | readRts wr =>
    simp only [next] at h
    split at h <;> cases h <;> exact .other rfl rfl rfl rfl rfl rfl rfl rfl
  | rxRd c rd =>
    simp only [next] at h
    split at h
    · cases h; exact .other rfl rfl rfl rfl rfl rfl rfl rfl
    · split at h <;> cases h <;> exact .other rfl rfl rfl rfl rfl rfl rfl rfl
  | dataTrigger ret =>
    simp only [next] at h
    split at h
    · cases h; exact .other rfl rfl (by simp) (by simp) rfl rfl rfl rfl
    · rename_i hproc
      cases h
      exact .claim rfl rfl (by simpa using hproc) rfl trivial (by simp [claimTx, hex rfl]) rfl
  | stateTrigger =>
    simp only [next] at h
    split at h
    · cases h; exact .other rfl rfl rfl rfl rfl rfl rfl rfl
    · rename_i hproc
      cases h
      exact .claim rfl rfl (by simpa using hproc) rfl trivial (by simp [claimTx, hex rfl]) rfl
  | sendCts ret =>
    cases h
    refine .work rfl ?_ ?_ rfl rfl <;> split
    · simp
    · rfl
    · simp
    · trivial
  | sendRd ret => cases h; exact .work rfl rfl rfl rfl rfl
  | sendWr ret rd =>
    simp only [next] at h
    split at h
    · cases h; exact .work rfl (by simp) (by simp) rfl rfl
    · cases h; exact .work rfl rfl ⟨(hown rfl).2.2, rfl⟩ rfl rfl
  | sendData ret rd cpyLen =>
    obtain ⟨-, hw, -, hcmd⟩ := hown rfl
    simp only [next, hw] at h
    cases h
    exact .write _ rfl rfl rfl rfl hcmd
  | sendState ret =>
    simp only [next, (hown rfl).2.1] at h
    cases h
    exact .write _ rfl (by simp) rfl rfl rfl
  | sendIdx ret rd cpyLen => cases h; exact .advance rfl (by simp) (by simp) rfl rfl rfl
  | clear ret => cases h; exact .release rfl (by simp) (by simp) rfl rfl
  | txCmpl c rsp =>
    obtain ⟨hproc, -, hcmd⟩ := hown rfl
    have hcmd : c.cmd = cb.txCmd := hcmd
    simp only [next, hcmd, hproc, ne_eq, not_true_eq_false, Bool.true_eq_false, or_self, if_false] at h
    cases h
    exact .work rfl rfl trivial rfl rfl
  | txCmplCts rsp => cases h; exact .work rfl rfl trivial rfl rfl
  | txCmplFail =>
    cases h
    refine .work rfl ?_ ?_ rfl rfl <;> (split <;> trivial)

namespace UartEnd
variable {T : Type}

/-- The owner of `tx_in_process`: nobody, a context, or the command that is written. -/
inductive Holder (s : UartEnd T) : Prop
  | free (hproc : s.cb.txInProcess = false) (hw : s.cb.written = none) (hown : ∀ c, (s.pc c).owns = false)
      (hadv : ∀ c, (s.pc c).advancing = false)
  | held (c : Option T) (hproc : s.cb.txInProcess = true) (hw : s.cb.written = none) (hc : (s.pc c).owns = true)
      (hfresh : (s.pc c).Fresh s.cb) (hown : ∀ d, d ≠ c → (s.pc d).owns = false)
      (hadv : ∀ d, (s.pc d).advancing = false)
  | out (k : MbUartCmd) (hproc : s.cb.txInProcess = true) (hw : s.cb.written = some k) (hcmd : s.cb.txCmd = k.cmd)
      (hown : ∀ c, (s.pc c).owns = false)

/-- The completion of a command is handled after its writer has moved `tx_rd_idx`, and the end is not in exception
mode. -/
def TxOk (s : UartEnd T) : UartAct T → Prop
  | .next c _ => (s.pc c).triggers = true → s.cb.exceptionMode = false
  | .txCmpl _ => ∀ c, (s.pc c).advancing = false
  | .write .. | .read .. | .devInit _ | .rx _ | .rsp => True

variable {s s' : UartEnd T} {a : UartAct T} {c : Option T} {cb : MbUartCb} {p : UartPc}

namespace Holder

theorem of_owns (h : s.Holder) (hc : (s.pc c).owns) : s.cb.txInProcess ∧ s.cb.written = none ∧ (s.pc c).Fresh s.cb := by
  cases h with
  | free _ _ hown | out _ _ _ _ hown => rw [hown c] at hc; cases hc
  | held d hproc hw _ hfresh hown =>
    by_cases hd : c = d
    · subst hd; exact ⟨hproc, hw, hfresh⟩
    · rw [hown c hd] at hc; cases hc

theorem others (h : s.Holder) (hc : (s.pc c).owns) :
    (∀ d, d ≠ c → (s.pc d).owns = false) ∧ ∀ d, (s.pc d).advancing = false := by
  cases h with
  | free _ _ hown | out _ _ _ _ hown => rw [hown c] at hc; cases hc
  | held d _ _ _ _ hown hadv =>
    by_cases hd : c = d
    · subst hd; exact ⟨hown, hadv⟩
    · rw [hown c hd] at hc; cases hc

variable [DecidableEq T]

theorem move (h : s.Holder) (hc : (s.pc c).owns = false) (hp : p.owns = false) (ha : p.advancing = false)
    (hproc : cb.txInProcess = s.cb.txInProcess) (hw : cb.written = s.cb.written) (hcmd : cb.txCmd = s.cb.txCmd)
    (hrd : cb.txRdIdx = s.cb.txRdIdx) : (s.move c cb p).Holder := by
  cases h with
  | free h1 h2 hown hadv =>
    exact .free (hproc.trans h1) (hw.trans h2) (move_all (fun d _ => hown d) hp) (move_all (fun d _ => hadv d) ha)
  | out k h1 h2 h3 hown =>
    exact .out k (hproc.trans h1) (hw.trans h2) (hcmd.trans h3) (move_all (fun d _ => hown d) hp)
  | held d h1 h2 hd hfresh hown hadv =>
    have hne : d ≠ c := by rintro rfl; rw [hc] at hd; cases hd
    refine .held d (hproc.trans h1) (hw.trans h2) ?_ ?_ (fun x hx => ?_) (move_all (fun d _ => hadv d) ha)
    · rwa [move_of_ne hne]
    · rw [move_of_ne hne]
      exact hfresh.congr hrd hcmd
    · by_cases hxc : x = c
      · subst hxc; rwa [move_self]
      · rw [move_of_ne hxc]; exact hown x hx

theorem held_move (hproc : cb.txInProcess) (hw : cb.written = none) (hp : p.owns) (hfresh : p.Fresh cb)
    (hown : ∀ d, d ≠ c → (s.pc d).owns = false) (hadv : ∀ d, d ≠ c → (s.pc d).advancing = false) :
    (s.move c cb p).Holder := by
  refine .held c hproc hw (by rwa [move_self]) (by rwa [move_self]) (fun d hd => ?_) (move_all hadv ?_)
  · rw [move_of_ne hd]; exact hown d hd
  · cases p <;> first | rfl | cases hp

theorem txStep (h : s.Holder) (hs : s.cb.TxStep (s.pc c) cb p) : (s.move c cb p).Holder := by
  cases hs with
  | other hp ha hp' ha' hproc hw hcmd hrd => exact h.move hp hp' ha' hproc hw hcmd hrd
  | claim hp ha hproc hp' hfresh hproc' hw =>
    cases h with
    | held _ h1 | out _ h1 => rw [hproc] at h1; cases h1
    | free _ hnone hown hadv =>
      exact held_move hproc' (hw.trans hnone) hp' hfresh (fun d _ => hown d) fun d _ => hadv d
  | work hp hp' hfresh hproc hw =>
    obtain ⟨h1, h2, -⟩ := h.of_owns hp
    obtain ⟨hown, hadv⟩ := h.others hp
    exact held_move (hproc.trans h1) (hw.trans h2) hp' hfresh hown fun d _ => hadv d
  | write k hp hp' hproc hw hcmd =>
    exact .out k (hproc.trans (h.of_owns hp).1) hw hcmd (move_all (h.others hp).1 hp')
  | release hp hp' ha' hproc hw =>
    exact .free hproc (hw.trans (h.of_owns hp).2.1) (move_all (h.others hp).1 hp')
      (move_all (fun d _ => (h.others hp).2 d) ha')
  | advance hp hp' ha' hproc hw hcmd =>
    -- only after a write has a context the index still to move
    cases h with
    | free _ _ _ hadv | held _ _ _ _ _ _ hadv => rw [hadv c] at hp; cases hp
    | out k h1 h2 h3 hown =>
      exact .out k (hproc.trans h1) (hw.trans h2) (hcmd.trans h3) (move_all (fun d _ => hown d) hp')

theorem txCmpl (h : s.Holder) (hadv : ∀ d, (s.pc d).advancing = false) {k : MbUartCmd} (hw : s.cb.written = some k)
    (r : MbUartRsp) : (s.move none { s.cb with written := none } (.txCmpl k r)).Holder := by
  cases h with
  | free _ h | held _ _ h => rw [hw] at h; cases h
  | out k' hproc hk hcmd hown =>
    obtain rfl : k = k' := Option.some.inj (hw.symm.trans hk)
    exact held_move hproc rfl rfl hcmd.symm (fun d _ => hown d) fun d _ => hadv d

theorem step (h : s.Holder) (hok : s.TxOk a) (hs : s.step a = some s') : s'.Holder := by
  cases a with
  | write t data | read t n | devInit t =>
    obtain ⟨hidle, rfl⟩ := call_eq hs
    exact h.move (by rw [hidle]; rfl) rfl rfl rfl rfl rfl rfl
  | rx k =>
    obtain ⟨hidle, rfl⟩ := rx_eq hs
    exact h.move (by rw [hidle]; rfl) rfl rfl rfl rfl rfl rfl
  | rsp =>
    obtain ⟨r, hr, rfl⟩ := rsp_eq hs
    exact h.move (by rw [hr]; rfl) rfl rfl rfl rfl rfl rfl
  | txCmpl r =>
    obtain ⟨k, hw, -, rfl⟩ := txCmpl_eq hs
    exact h.txCmpl hok hw r
  | next c xchg =>
    obtain ⟨cb, p, hn, rfl⟩ := next_eq hs
    exact h.txStep (MbUartCb.next_txStep hn hok h.of_owns)

end Holder
end UartEnd
end Bk7258

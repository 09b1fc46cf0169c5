import Mathlib.Data.Fintype.Option
import Bk7258.Uart.InProcess

/-!
# Bytes left in the transmit ring

A trigger that finds `tx_in_process` set leaves the ring to whoever has set it. But `mb_uart_send_data` looks at
`status_cts` and at the ring first, and its caller clears the flag after that: a trigger that comes in between is lost.
If none does, there is always somebody who still looks.
-/

namespace Bk7258
open Lts Ring

def MbUartCb.Waiting (cb : MbUartCb) : Prop := cb.txRdIdx ≠ cb.txWrIdx ∧ cb.statusCts = false

namespace UartPc

def gaveUp : UartPc → Bool
  | .clear _ | .txCmplFail => true
  | _ => false

def wakes : UartPc → Bool
  | .dataTrigger _ => true
  | _ => false

def looks : UartPc → Bool
  | .dataTrigger _ | .sendCts _ | .sendRd _ | .sendWr .. | .sendData .. | .sendState _ | .txCmpl .. | .txCmplCts _ =>
    true
  | _ => false

theorem looks_of_owns {p : UartPc} (h : p.owns) (hg : p.gaveUp = false) : p.looks := by
  cases p <;> first | rfl | simp_all [owns, gaveUp]

end UartPc

theorem MbUartCb.next_waiting {cb cb' : MbUartCb} {xchg : Nat → BitVec 8} {p p' : UartPc}
    (h : cb.next xchg p = some (cb', p')) (hown : p.owns → cb.txInProcess ∧ cb.written = none ∧ p.Fresh cb)
    (hadv : p.advancing → cb.written.isSome) (hwait : cb'.Waiting) :
    p'.looks ∨ cb'.written.isSome ∨ (cb.Waiting ∧ cb'.written = cb.written ∧
      (p.looks = false ∨ ∃ ret, p = .dataTrigger ret ∧ cb.txInProcess)) := by
  cases p with
  | idle | rxRsp => cases h
  | write | writeRd | read | readIdx | rxIdx | rxFree | rx | clear | txCmplFail | txCmplOk =>
    cases h
    exact .inr (.inr ⟨hwait, rfl, .inl rfl⟩)
  | writeIdx | sendRd | txCmplCts => cases h; exact .inl rfl
  | readRd | readRts | stateTrigger =>
    simp only [next] at h
    split at h <;> cases h <;> exact .inr (.inr ⟨hwait, rfl, .inl rfl⟩)
  | rxRd c rd =>
    simp only [next] at h
    split at h
    · cases h; exact .inr (.inr ⟨hwait, rfl, .inl rfl⟩)
    · split at h <;> cases h <;> exact .inr (.inr ⟨hwait, rfl, .inl rfl⟩)
  | rxCts c txFail =>
    cases h
    have hrts : c.uartRts = false := hwait.2
    cases hcts : cb.statusCts with
    | true => exact .inl (by simp [hrts, UartPc.looks])
    | false => exact .inr (.inr ⟨⟨hwait.1, hcts⟩, rfl, .inl rfl⟩)
  | dataTrigger ret =>
    simp only [next] at h
    split at h
    · rename_i hproc
      cases h
      exact .inr (.inr ⟨hwait, rfl, .inr ⟨ret, rfl, hproc⟩⟩)
    · cases h; exact .inl rfl
  | sendCts ret =>
    cases h
    exact .inl (by simp [show cb.statusCts = false from hwait.2, UartPc.looks])
  | sendWr ret rd =>
    -- the ring is empty for the owner of the flag only if it is
    obtain rfl : rd = cb.txRdIdx := (hown rfl).2.2
    simp only [next] at h
    split at h
    · rename_i hzero
      cases h
      exact absurd (Fin.ext ((count_eq_zero cb.txRdIdx.isLt).1 hzero)) hwait.1
    · cases h; exact .inl rfl
  | sendData ret rd cpyLen | sendState ret =>
    simp only [next, (hown rfl).2.1] at h
    cases h
    exact .inr (.inl rfl)
  | sendIdx ret rd cpyLen => cases h; exact .inr (.inl (hadv rfl))
  | txCmpl c rsp =>
    obtain ⟨hproc, -, hcmd⟩ := hown rfl
    have hcmd : c.cmd = cb.txCmd := hcmd
    simp only [next, hcmd, hproc, ne_eq, not_true_eq_false, Bool.true_eq_false, or_self, if_false] at h
    cases h
    exact .inl rfl

namespace UartEnd
variable {T : Type}

/-- No trigger between a failed `mb_uart_send_data` and the write that clears `tx_in_process`; a completion is handled
after its writer has moved `tx_rd_idx`; no exception mode. -/
def WakeOk (s : UartEnd T) : UartAct T → Prop
  | .next c _ => ((s.pc c).triggers = true → s.cb.exceptionMode = false) ∧
      ((s.pc c).wakes = true → ∀ d, (s.pc d).gaveUp = false)
  | .txCmpl _ => ∀ c, (s.pc c).advancing = false
  | .write .. | .read .. | .devInit _ | .rx _ | .rsp => True

instance [Fintype T] (s : UartEnd T) : (a : UartAct T) → Decidable (s.WakeOk a)
  | .next _ _ => inferInstanceAs (Decidable (_ ∧ _))
  | .txCmpl _ => inferInstanceAs (Decidable (∀ _, _))
  | .write .. | .read .. | .devInit _ | .rx _ | .rsp => .isTrue trivial

variable {s s' : UartEnd T} {a : UartAct T} {c : Option T} {cb : MbUartCb} {p : UartPc}

theorem WakeOk.txOk (h : s.WakeOk a) : s.TxOk a := by
  cases a with
  | next c xchg => exact h.1
  | txCmpl r => exact h
  | _ => trivial

def Served (s : UartEnd T) : Prop := s.cb.Waiting → s.cb.written.isSome = true ∨ ∃ c, (s.pc c).looks = true

theorem Holder.of_advancing (h : s.Holder) (hc : (s.pc c).advancing) : s.cb.written.isSome := by
  cases h with
  | free _ _ _ hadv | held _ _ _ _ _ _ hadv => rw [hadv c] at hc; cases hc
  | out k _ hw => simp [hw]

theorem Holder.looks (h : s.Holder) (hproc : s.cb.txInProcess) (hg : ∀ d, (s.pc d).gaveUp = false) :
    s.cb.written.isSome ∨ ∃ d, (s.pc d).owns ∧ (s.pc d).looks := by
  cases h with
  | free h => rw [hproc] at h; cases h
  | held d _ _ hd => exact .inr ⟨d, hd, UartPc.looks_of_owns hd (hg d)⟩
  | out k _ hw => exact .inl (by simp [hw])

namespace Served
variable [DecidableEq T]

theorem looks_move {d : Option T} (hd : (s.pc d).looks) (hne : d ≠ c) : ∃ d, ((s.move c cb p).pc d).looks = true :=
  ⟨d, by rwa [move_of_ne hne]⟩

theorem move (h : s.Served) (hc : (s.pc c).looks = false) : (s.move c s.cb p).Served := by
  intro hwait
  obtain hw | ⟨d, hd⟩ := h hwait
  · exact .inl hw
  · exact .inr (looks_move hd (by rintro rfl; rw [hc] at hd; cases hd))

theorem next (h : s.Served) (hh : s.Holder) {xchg : Nat → BitVec 8}
    (hok : (s.pc c).wakes → ∀ d, (s.pc d).gaveUp = false)
    (hn : s.cb.next xchg (s.pc c) = some (cb, p)) : (s.move c cb p).Served := by
  intro hwait
  obtain hp | hw | ⟨hwait, hw, hc | ⟨ret, hc, hproc⟩⟩ := MbUartCb.next_waiting hn hh.of_owns hh.of_advancing hwait
  · exact .inr ⟨c, by simpa using hp⟩
  · exact .inl hw
  · obtain hw' | ⟨d, hd⟩ := h hwait
    · exact .inl (by simpa [hw] using hw')
    · exact .inr (looks_move hd (by rintro rfl; rw [hc] at hd; cases hd))
  · -- the trigger leaves the ring to the owner of the flag
    obtain hw' | ⟨d, hown, hd⟩ := hh.looks hproc (hok (by rw [hc]; rfl))
    · exact .inl (by simpa [hw] using hw')
    · exact .inr (looks_move hd (by rintro rfl; rw [hc] at hown; cases hown))

theorem step (h : s.Served) (hh : s.Holder) (hok : s.WakeOk a) (hs : s.step a = some s') : s'.Served := by
  cases a with
  | write t data | read t n | devInit t =>
    obtain ⟨hidle, rfl⟩ := call_eq hs
    exact h.move (by rw [hidle]; rfl)
  | rx k =>
    obtain ⟨hidle, rfl⟩ := rx_eq hs
    exact h.move (by rw [hidle]; rfl)
  | rsp =>
    obtain ⟨r, hr, rfl⟩ := rsp_eq hs
    exact h.move (by rw [hr]; rfl)
  | txCmpl r =>
    obtain ⟨k, hw, -, rfl⟩ := txCmpl_eq hs
    exact fun _ => .inr ⟨none, by simp [UartPc.looks]⟩
  | next c xchg =>
    obtain ⟨cb, p, hn, rfl⟩ := next_eq hs
    exact h.next hh hok.2 hn

end Served

def init (exceptionMode : Bool) : UartEnd T := { cb := { exceptionMode := exceptionMode } }

end UartEnd

/-- With no command and no call or handler, the transmit ring is empty or the peer must not be sent to. -/
theorem no_bytes_left_waiting {T : Type} [DecidableEq T] {m : Bool} {s : UartEnd T}
    (h : Run UartEnd.step UartEnd.WakeOk (.init m) s) (hw : s.cb.written = none) (hidle : ∀ c, s.pc c = .idle) :
    ¬ (s.cb.txRdIdx ≠ s.cb.txWrIdx ∧ s.cb.statusCts = false) := by
  have hinv : s.Holder ∧ s.Served := by
    refine h.invariant (I := fun s => s.Holder ∧ s.Served) ?_ fun s s' a _ hI hok hs =>
      ⟨hI.1.step hok.txOk hs, hI.2.step hI.1 hok hs⟩
    exact ⟨.free rfl rfl (fun _ => rfl) fun _ => rfl, fun hwait => absurd rfl hwait.1⟩
  intro hwait
  obtain hs | ⟨c, hc⟩ := hinv.2 hwait
  · rw [hw] at hs; cases hs
  · rw [hidle c] at hc; cases hc

theorem no_bytes_left_waiting_one : ∃ s : UartEnd Unit, Run UartEnd.step UartEnd.WakeOk (.init false) s ∧
    s.cb.accepted = [7] ∧ ¬ (s.cb.txRdIdx ≠ s.cb.txWrIdx ∧ s.cb.statusCts = false) := by
  refine Run.of_exec_imp (p := fun s => s.cb.accepted = [7] ∧ s.cb.written = none ∧ ∀ c, s.pc c = .idle)
    (List.flatten [[.write () [7]], List.replicate 9 (.next (some ()) fun _ => 0), [.txCmpl ⟨false, false⟩],
      List.replicate 7 (.next none fun _ => 0)]) (by decide) ?_
  exact fun s hr ⟨hacc, hw, hidle⟩ => ⟨hacc, no_bytes_left_waiting hr hw hidle⟩

/-- The writer finds `status_cts` at 1; before it clears `tx_in_process`, the peer allows the end to send, and the
trigger of the handler finds the flag set. -/
theorem bytes_left_waiting : ∃ s : UartEnd Unit, Run UartEnd.step (fun _ _ => True) (.init false) s ∧
    s.cb.written = none ∧ (∀ c, s.pc c = .idle) ∧ s.cb.txRdIdx ≠ s.cb.txWrIdx ∧ s.cb.statusCts = false :=
  Run.of_exec (List.flatten [[.rx ⟨.sendState, 0, true⟩], List.replicate 2 (.next none fun _ => 0),
    [.rsp, .write () [7]], List.replicate 5 (.next (some ()) fun _ => 0),
    [.rx ⟨.sendState, 0, false⟩], List.replicate 3 (.next none fun _ => 0),
    [.rsp, .next (some ()) fun _ => 0]]) (by decide)

end Bk7258

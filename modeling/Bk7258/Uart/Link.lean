import Mathlib.Data.Fintype.Option
import Bk7258.Uart.RxRing

/-!
# Two ends and the flow control between them

The channel delivers a command of one end to the handler of the other, takes the response back and completes the
command. `status_cts` of an end is a copy of `ctrl_rts` of its peer, and may be old. The steps of an end are sorted here
by what the other direction and the channel see of them.
-/

namespace Bk7258
open Lts Ring Function

/-! ## The link -/

structure UartLink (T : Type) where
  side : Bool → UartEnd T
  taken : Bool → Bool := fun _ => false
  rsp : Bool → Option MbUartRsp := fun _ => none

inductive UartLinkAct (T : Type)
  | write (i : Bool) (t : T) (data : List (BitVec 8))
  | read (i : Bool) (t : T) (bufLen : Nat)
  | devInit (i : Bool) (t : T)
  | next (i : Bool) (c : Option T)
  | deliver (i : Bool)
  | respond (i : Bool)
  | complete (i : Bool)
deriving DecidableEq

namespace UartLink
variable {T : Type}

section
variable [DecidableEq T] (l : UartLink T)

def setSide (i : Bool) (e : UartEnd T) : UartLink T := { l with side := update l.side i e }

def step : UartLinkAct T → Option (UartLink T)
  | .write i t data => ((l.side i).step (.write t data)).map (l.setSide i)
  | .read i t bufLen => ((l.side i).step (.read t bufLen)).map (l.setSide i)
  | .devInit i t => ((l.side i).step (.devInit t)).map (l.setSide i)
  | .next i c => ((l.side i).step (.next c (l.side !i).cb.txXchgBuff)).map (l.setSide i)
  | .deliver i => match (l.side i).cb.written with
    | some k => if l.taken i then none else ((l.side !i).step (.rx k)).map fun e =>
        { l.setSide (!i) e with taken := update l.taken i true }
    | none => none
  | .respond i => match (l.side !i).pc none with
    | .rxRsp r => ((l.side !i).step .rsp).map fun e =>
        { l.setSide (!i) e with rsp := update l.rsp i (some r) }
    | _ => none
  | .complete i => match l.rsp i with
    | some r => ((l.side i).step (.txCmpl r)).map fun e =>
        { l.setSide i e with
          taken := update l.taken i false
          rsp := update l.rsp i none }
    | none => none

end

def init (exceptionMode : Bool → Bool) : UartLink T :=
  { side := fun i => { cb := { exceptionMode := exceptionMode i } } }

end UartLink

/-! ## One direction -/

namespace UartPc

def handled : UartPc → Option MbUartCmd
  | .rx k | .rxRd k _ | .rxIdx k _ _ _ | .rxFree k _ _ | .rxCts k _ => some k
  | _ => none

def handledData : UartPc → Option MbUartCmd
  | .rxRd k _ | .rxIdx k _ _ _ | .rxFree k _ _ => some k
  | _ => none

def unstored : UartPc → Bool
  | .rx _ | .rxRd .. | .rxIdx .. => true
  | _ => false

end UartPc

def UartRet.answer : UartRet → Option MbUartRsp
  | .rxIsr r => some r
  | .task | .txCmplIsr => none

namespace UartPc

def answer : UartPc → Option MbUartRsp
  | .rxRsp r => some r
  | .dataTrigger ret | .sendCts ret | .sendRd ret | .sendWr ret _ | .sendData ret _ _ | .sendIdx ret _ _ | .clear ret
  | .sendState ret => ret.answer
  | _ => none

/-- The response `mb_uart_tx_cmpl_isr` has not looked at yet. -/
def completing : UartPc → Option MbUartRsp
  | .txCmpl _ r | .txCmplCts r => some r
  | _ => none

/-- `mb_uart_send_data` has found `status_cts` at 0 and not written the command yet. -/
def pastCts : UartPc → Bool
  | .sendRd _ | .sendWr .. | .sendData .. => true
  | _ => false

/-- A command that sets `status_cts` to 0 comes while the peer's `ctrl_rts` is still 0. -/
def current (peer : MbUartCb) : UartPc → Bool
  | .rxCts k _ => k.uartRts || !peer.ctrlRts
  | _ => true

end UartPc

namespace UartLink
variable {T : Type}

/-- At each end one write and one read at a time, and no exception mode; `tx_rd_idx` is moved before the command is
completed; a reader that sets `ctrl_rts` to 0 has seen all that is in the ring; a command that sets `status_cts` to 0
comes while the peer's `ctrl_rts` is still 0. -/
def LinkOk (l : UartLink T) : UartLinkAct T → Prop
  | .write i _ _ => ∀ c, ((l.side i).pc c).writing = false
  | .read i _ _ => ∀ c, ((l.side i).pc c).reading = false
  | .next i c => (((l.side i).pc c).triggers = true → (l.side i).cb.exceptionMode = false) ∧
      ((l.side i).pc c).upToDate (l.side i).cb = true ∧ ((l.side i).pc c).current (l.side !i).cb = true
  | .complete i => ∀ c, ((l.side i).pc c).advancing = false
  | .devInit .. | .deliver _ | .respond _ => True

instance [Fintype T] (l : UartLink T) : (a : UartLinkAct T) → Decidable (l.LinkOk a)
  | .write .. | .read .. | .complete _ => inferInstanceAs (Decidable (∀ _, _))
  | .next .. => inferInstanceAs (Decidable (_ ∧ _))
  | .devInit .. | .deliver _ | .respond _ => .isTrue trivial

end UartLink

/-! ## What a step does for a direction -/

theorem UartPc.unhandled_spec {p : UartPc} (h : p.handled = none) :
    p.handledData = none ∧ p.unstored = false ∧ p.receiving = false := by
  cases p <;> first | exact ⟨rfl, rfl, rfl⟩ | cases h

def UartPc.offSend : UartPc → Bool
  | .sendCts _ | .sendWr .. | .sendData .. | .sendState _ | .rxCts .. | .txCmpl .. | .txCmplCts _ => false
  | _ => true

namespace UartRet
variable (ret : UartRet)

@[simp] theorem done_answer : ret.done.answer = ret.answer := by cases ret <;> rfl
@[simp] theorem sent_answer : ret.sent.answer = ret.answer := by cases ret <;> rfl
@[simp] theorem failed_answer : ret.failed.answer = ret.answer := by cases ret <;> rfl
@[simp] theorem done_handled : ret.done.handled = none := by cases ret <;> rfl
@[simp] theorem sent_handled : ret.sent.handled = none := by cases ret <;> rfl
@[simp] theorem failed_handled : ret.failed.handled = none := by cases ret <;> rfl
@[simp] theorem done_completing : ret.done.completing = none := by cases ret <;> rfl
@[simp] theorem sent_completing : ret.sent.completing = none := by cases ret <;> rfl
@[simp] theorem failed_completing : ret.failed.completing = none := by cases ret <;> rfl
@[simp] theorem done_pastCts : ret.done.pastCts = false := by cases ret <;> rfl
@[simp] theorem sent_pastCts : ret.sent.pastCts = false := by cases ret <;> rfl
@[simp] theorem failed_pastCts : ret.failed.pastCts = false := by cases ret <;> rfl

end UartRet

namespace MbUartCb
variable {cb cb' : MbUartCb} {xchg : Nat → BitVec 8} {p p' : UartPc}

structure SendSame (cb cb' : MbUartCb) : Prop where
  written : cb'.written = cb.written
  sent : cb'.sent = cb.sent
  xchg : cb'.txXchgBuff = cb.txXchgBuff
  cts : cb'.statusCts = cb.statusCts

theorem next_offSend (h : cb.next xchg p = some (cb', p')) (hp : p.offSend) :
    cb.SendSame cb' ∧ (p'.pastCts → p.pastCts) ∧ p.completing = none ∧ p'.completing = none := by
  cases p with
  | idle | rxRsp => cases h
  | sendCts | sendWr | sendData | sendState | rxCts | txCmpl | txCmplCts => cases hp
  | write | writeRd | writeIdx | read | rxIdx | rxFree | txCmplOk | sendRd | clear | sendIdx =>
    cases h
    exact ⟨⟨rfl, rfl, rfl, rfl⟩, by first | exact fun h => h | simp, rfl, by first | rfl | simp⟩
  | readIdx | rx | txCmplFail =>
    cases h
    refine ⟨⟨rfl, rfl, rfl, rfl⟩, ?_, rfl, ?_⟩ <;> split <;> first | exact fun h => h | rfl
  | dataTrigger | readRd | readRts | stateTrigger =>
    simp only [next] at h
    split at h <;> cases h <;>
      exact ⟨⟨rfl, rfl, rfl, rfl⟩, by first | exact fun h => h | simp, rfl, by first | rfl | simp⟩
  | rxRd =>
    simp only [next] at h
    split at h
    · cases h; exact ⟨⟨rfl, rfl, rfl, rfl⟩, fun h => h, rfl, rfl⟩
    · split at h <;> cases h <;> exact ⟨⟨rfl, rfl, rfl, rfl⟩, fun h => h, rfl, rfl⟩

theorem next_not_receiving (h : cb.next xchg p = some (cb', p')) (hp : p.receiving = false) :
    cb'.arrived = cb.arrived ∧ (cb.ctrlRts = false → cb'.ctrlRts = false) := by
  cases p with
  | idle | rxRsp => cases h
  | rx | rxRd | rxIdx | rxFree => cases hp
  | write | writeRd | writeIdx | read | txCmplOk | sendRd | clear | sendIdx | readIdx | txCmplFail | sendCts
  | rxCts | txCmpl | txCmplCts =>
    cases h
    exact ⟨rfl, fun h => h⟩
  | dataTrigger | readRd | readRts | stateTrigger | sendWr | sendData | sendState =>
    simp only [next] at h
    split at h <;> cases h <;> exact ⟨rfl, fun h => by first | exact h | rfl⟩

theorem next_unhandled (h : cb.next xchg p = some (cb', p')) (hp : p.handled = none) :
    p'.handled = none ∧ p'.answer = p.answer := by
  cases p with
  | idle | rxRsp => cases h
  | rx | rxRd | rxIdx | rxFree | rxCts => cases hp
  | write | writeRd | writeIdx | read | txCmplOk | sendRd | clear | sendIdx | txCmplCts =>
    cases h
    exact ⟨by first | rfl | simp, by first | rfl | apply UartRet.done_answer | apply UartRet.sent_answer⟩
  | readIdx | txCmplFail | sendCts | txCmpl =>
    cases h
    constructor <;> split <;> first | rfl | apply UartRet.failed_handled | apply UartRet.failed_answer
  | dataTrigger | readRd | readRts | stateTrigger | sendWr | sendData | sendState =>
    simp only [next] at h
    split at h <;> cases h <;> exact ⟨by first | rfl | simp, by
      first | rfl | apply UartRet.done_answer | apply UartRet.sent_answer | apply UartRet.failed_answer⟩

end MbUartCb

end Bk7258

import Mathlib.Data.Fintype.Basic
import Bk7258.Lib.Lts

/-!
# The thread of `bk_api_ipc.c`

`bk_ipc_send` puts the message in `local_list`, sets a bit of `waiting_event` and posts `waiting_sem`; a message of the
other CPU goes to `remote_list` in the same way. The thread collects all bits and serves them in a loop that runs again
as long as it has taken a message. Commands go out through `bk_ipc_send_original`, which takes `sem`; to announce a
shutdown it takes `sem` a second time, and nothing posts it for that (`bk_ipc_cpu_id_get` is always `IPC_CORE_CPU1`).

The wait of the thread passes the handle `waiting_sem` where `rtos_get_semaphore` takes its address, so the call acts on
what the first word of the semaphore names. A task in `bk_ipc_send_sync` is free again when its command is written,
which allows more than the code does.
-/

namespace Bk7258
open Lts

structure IpcEvents where
  send : Bool := false
  recv : Bool := false
  free : Bool := false
  localShutdown : Bool := false
deriving DecidableEq, Repr

structure IpcChanCfg where
  rxCb : Bool
  txCb : Bool
deriving DecidableEq, Repr

/-- A message of the other CPU; `handAsync` is `MIPC_CHAN_HAND_FLAG_ASYNC` as the sender has set it. -/
structure IpcMsg (C : Type) where
  chan : C
  handAsync : Bool := false
deriving DecidableEq, Repr

/-- What a callback does: its result, and for `rx_cb` whether it calls `bk_ipc_obj_extract`. -/
structure IpcCb where
  ret : UInt32 := 0
  extract : Bool := false
deriving DecidableEq, Repr

/-- `stray` is how `nxsem_wait` ends on an object that is not `waiting_sem`, if it does. -/
structure ThreadIn extends IpcCb where
  stray : Option Bool := none
deriving DecidableEq, Repr

def bkErrNoDev : UInt32 := 0xFFFFEFF1

/-- The first word of the object behind a handle, taken for a handle -/
inductive SemWord
  | null
  | self
  | other
deriving DecidableEq, Repr

/-- The registered channels, and the first word of `waiting_sem` when its count is `n` -/
structure IpcEnv (C : Type) where
  channel : C → Option IpcChanCfg
  word : Nat → SemWord

/-- What is written to the mailbox: a command of the thread or of `bk_ipc_send_sync`, a response of the thread or of
`bk_ipc_obj_free`, a state. -/
inductive BkIpcCmd (C : Type)
  | cmd (num : Nat)
  | syncCmd (num : Nat)
  | ack (m : IpcMsg C) (result : UInt32)
  | objAck (num : Nat)
  | startup
  | shutdown
deriving DecidableEq, Repr

inductive IpcPart
  | recv
  | noDev
  | send
  | shutdown
deriving DecidableEq, Repr

/-- `bk_ipc_thread_entry`; `bits` are the collected events, `again` is `loop_again`. -/
inductive IpcThread (C : Type)
  | wait
  | collect
  | free (bits : IpcEvents)
  | recv (bits : IpcEvents)
  | handle (bits : IpcEvents) (m : IpcMsg C)
  | send (bits : IpcEvents) (again : Bool)
  | shutdown (bits : IpcEvents) (again : Bool)
  /-- `bk_ipc_send_original` takes `sem`. -/
  | get (bits : IpcEvents) (again : Bool) (part : IpcPart) (c : BkIpcCmd C)
  | write (bits : IpcEvents) (again : Bool) (part : IpcPart) (c : BkIpcCmd C)
  /-- `bk_ipc_send_original` waits for the completion of the shutdown command. -/
  | cmpl (bits : IpcEvents) (again : Bool) (part : IpcPart)
  | loop (bits : IpcEvents) (again : Bool)
deriving DecidableEq, Repr

/-- Other calls that end in `bk_ipc_send_original`: `bk_ipc_send_sync`, `bk_ipc_obj_free`, `bk_ipc_init` -/
inductive IpcCall
  | sync (num : Nat)
  | objFree (num : Nat)
  | init
deriving DecidableEq, Repr

def IpcCall.cmd {C : Type} : IpcCall → BkIpcCmd C
  | .sync num => .syncCmd num
  | .objFree num => .objAck num
  | .init => .startup

inductive IpcSender
  | idle
  | notify
  | get (c : IpcCall)
  | write (c : IpcCall)
deriving DecidableEq, Repr

/-- `bk_ipc_info_t`, and the thread's `ret`. `outstanding` is the command not completed; `pushed` are the messages of
`bk_ipc_send`, `written` what was handed to `mb_chnl_write`, `arrived` the messages of the other CPU and `handled` those
the thread has looked at, with what `rx_cb` did. -/
structure BkIpcInfo (T C : Type) where
  waitingEvent : IpcEvents := {}
  waitingSem : Nat := 0
  sem : Nat := 1
  localList : List Nat := []
  remoteList : List (IpcMsg C) := []
  freeList : List C := []
  outstanding : Option (BkIpcCmd C) := none
  thread : IpcThread C := .wait
  ret : UInt32 := 0
  task : T → IpcSender := fun _ => .idle
  rxIsr : Option IpcEvents := none
  pushed : List Nat := []
  written : List (BkIpcCmd C) := []
  arrived : List (IpcMsg C) := []
  handled : List (IpcMsg C × Option IpcCb) := []

inductive BkIpcAct (T C : Type)
  | send (t : T) (num : Nat)
  | notify (t : T)
  | call (t : T) (c : IpcCall)
  | get (t : T)
  | write (t : T)
  | thread (e : ThreadIn)
  | rxCmd (m : IpcMsg C)
  | rxAck (chan : C)
  | rxNotify
  | shutdown
  | txCmpl
deriving DecidableEq

def IpcEvents.or (a b : IpcEvents) : IpcEvents :=
  ⟨a.send || b.send, a.recv || b.recv, a.free || b.free, a.localShutdown || b.localShutdown⟩

namespace IpcPart

def next {C : Type} (bits : IpcEvents) (again : Bool) : IpcPart → IpcThread C
  | .recv | .noDev => .send bits again
  | .send => .shutdown bits again
  | .shutdown => .loop bits again

/-- `ret` after the command is sent, or not -/
def ret (ok : Bool) (ret : UInt32) : IpcPart → UInt32
  | .recv | .send => if ok then 0 else 0xFFFFFFFF
  | .noDev | .shutdown => ret

end IpcPart

namespace BkIpcInfo

section
variable {T C : Type} [DecidableEq C] (env : IpcEnv C) (s : BkIpcInfo T C)

def eventNotify (event : IpcEvents) : BkIpcInfo T C :=
  { s with waitingEvent := s.waitingEvent.or event, waitingSem := s.waitingSem + 1 }

/-- `rtos_get_semaphore(&ipc_info->sem)`; `none` while it waits -/
def getSem : Option (BkIpcInfo T C) := if 0 < s.sem then some { s with sem := s.sem - 1 } else none

/-- `mb_chnl_write`, which is refused while a command is outstanding; `bk_ipc_send_original` then posts `sem`. -/
def mbChnlWrite (c : BkIpcCmd C) : Bool × BkIpcInfo T C :=
  if s.outstanding.isSome then (false, { s with sem := s.sem + 1 })
  else (true, { s with outstanding := some c, written := s.written ++ [c] })

def setThread (p : IpcThread C) : BkIpcInfo T C := { s with thread := p }

def hasTxCb (chan : C) : Bool := (env.channel chan).any (·.txCb)

/-- The message is looked at: its channel may have an `rx_cb`, and then the flag decides. -/
def handle (bits : IpcEvents) (m : IpcMsg C) (cb : IpcCb) : BkIpcInfo T C :=
  match env.channel m.chan with
  | none => { s with thread := .get bits true .noDev (.ack m bkErrNoDev), handled := s.handled ++ [(m, none)] }
  | some cfg =>
    if cfg.rxCb then { s with
      ret := cb.ret
      thread := if m.handAsync || cb.extract then .send bits true else .get bits true .recv (.ack m cb.ret)
      handled := s.handled ++ [(m, some cb)] }
    else { s with
      thread := if m.handAsync then .send bits true else .get bits true .recv (.ack m s.ret)
      handled := s.handled ++ [(m, none)] }

def threadStep (e : ThreadIn) : Option (BkIpcInfo T C) :=
  match s.thread with
  | .wait => match env.word s.waitingSem with
    -- after a failed wait the loop comes back to it
    | .null => some s
    | .self =>
      if 0 < s.waitingSem then some { s with waitingSem := s.waitingSem - 1, ret := 0, thread := .collect } else none
    | .other => e.stray.map fun ok => if ok then { s with ret := 0, thread := .collect } else s
  | .collect => some { s with waitingEvent := {}, thread := .free s.waitingEvent }
  | .free bits =>
    if bits.free then
      match s.freeList with
      | [] => some (s.setThread (.recv bits))
      | chan :: rest => some { s with freeList := rest, ret := if hasTxCb env chan then e.ret else s.ret }
    else some (s.setThread (.recv bits))
  | .recv bits =>
    if bits.recv then
      match s.remoteList with
      | [] => some (s.setThread (.send bits false))
      | m :: rest => some { s with remoteList := rest, thread := .handle bits m }
    else some (s.setThread (.send bits false))
  | .handle bits m => some (s.handle env bits m e.toIpcCb)
  | .send bits again =>
    if bits.send then
      match s.localList with
      | [] => some (s.setThread (.shutdown bits again))
      | d :: rest => some { s with localList := rest, thread := .get bits true .send (.cmd d) }
    else some (s.setThread (.shutdown bits again))
  | .shutdown bits again =>
    if bits.localShutdown then some (s.setThread (.get bits again .shutdown .shutdown))
    else some (s.setThread (.loop bits again))
  | .get bits again part c => s.getSem.map (·.setThread (.write bits again part c))
  | .write bits again part c =>
    let r := s.mbChnlWrite c
    some { r.2 with
      ret := part.ret r.1 s.ret
      thread := if r.1 && c = .shutdown then .cmpl bits again part else part.next bits again }
  | .cmpl bits again part => s.getSem.map (·.setThread (part.next bits again))
  | .loop bits again => some (s.setThread (if again then .free bits else .wait))

end

section
variable {T C : Type} [DecidableEq T] [DecidableEq C] (env : IpcEnv C) (s : BkIpcInfo T C)

def setTask (t : T) (p : IpcSender) : BkIpcInfo T C := { s with task := Function.update s.task t p }

def step : BkIpcAct T C → Option (BkIpcInfo T C)
  | .send t num => if s.task t = .idle then
      some { s.setTask t .notify with localList := s.localList ++ [num], pushed := s.pushed ++ [num] } else none
  | .notify t => if s.task t = .notify then some ((s.setTask t .idle).eventNotify { send := true }) else none
  | .call t c => if s.task t = .idle then some (s.setTask t (.get c)) else none
  | .get t => match s.task t with
    | .get c => (s.setTask t (.write c)).getSem
    | _ => none
  | .write t => match s.task t with
    | .write c => some ((s.setTask t .idle).mbChnlWrite c.cmd).2
    | _ => none
  | .thread e => s.threadStep env e
  | .rxCmd m => if s.rxIsr = none then
      some { s with remoteList := s.remoteList ++ [m], arrived := s.arrived ++ [m], rxIsr := some { recv := true } }
      else none
  | .rxAck chan => if s.rxIsr = none then
      some { s with freeList := s.freeList ++ [chan], rxIsr := some { free := true } } else none
  | .rxNotify => s.rxIsr.map fun event => { s with rxIsr := none }.eventNotify event
  | .shutdown => some (s.eventNotify { localShutdown := true })
  | .txCmpl => if s.outstanding.isSome then some { s with outstanding := none, sem := s.sem + 1 } else none

end

/-! ## The steps as cases -/

section
variable {T C : Type} [DecidableEq C] (env : IpcEnv C) {s s' : BkIpcInfo T C} {e : ThreadIn}

inductive ThreadStep (s : BkIpcInfo T C) (e : ThreadIn) : BkIpcInfo T C → Prop
  | wait (hp : s.thread = .wait) (hpos : 0 < s.waitingSem) :
      ThreadStep s e { s with waitingSem := s.waitingSem - 1, ret := 0, thread := .collect }
  | collect (hp : s.thread = .collect) : ThreadStep s e { s with waitingEvent := {}, thread := .free s.waitingEvent }
  | freeOne {bits : IpcEvents} {chan : C} {rest : List C} (hp : s.thread = .free bits)
      (hlist : s.freeList = chan :: rest) :
      ThreadStep s e { s with freeList := rest, ret := if hasTxCb env chan then e.ret else s.ret }
  | freeNone {bits : IpcEvents} (hp : s.thread = .free bits) : ThreadStep s e (s.setThread (.recv bits))
  | recvOne {bits : IpcEvents} {m : IpcMsg C} {rest : List (IpcMsg C)} (hp : s.thread = .recv bits)
      (hb : bits.recv = true) (hlist : s.remoteList = m :: rest) :
      ThreadStep s e { s with remoteList := rest, thread := .handle bits m }
  | recvNone {bits : IpcEvents} (hp : s.thread = .recv bits) (hnil : bits.recv = true → s.remoteList = []) :
      ThreadStep s e (s.setThread (.send bits false))
  | noDev {bits : IpcEvents} {m : IpcMsg C} (hp : s.thread = .handle bits m) (hc : env.channel m.chan = none) :
      ThreadStep s e { s with
        thread := .get bits true .noDev (.ack m bkErrNoDev), handled := s.handled ++ [(m, none)] }
  | rxCb {bits : IpcEvents} {m : IpcMsg C} {cfg : IpcChanCfg} (hp : s.thread = .handle bits m)
      (hc : env.channel m.chan = some cfg) (hcb : cfg.rxCb = true) :
      ThreadStep s e { s with
        ret := e.ret
        thread := if m.handAsync || e.extract then .send bits true else .get bits true .recv (.ack m e.ret)
        handled := s.handled ++ [(m, some e.toIpcCb)] }
  | noCb {bits : IpcEvents} {m : IpcMsg C} {cfg : IpcChanCfg} (hp : s.thread = .handle bits m)
      (hc : env.channel m.chan = some cfg) (hcb : cfg.rxCb = false) :
      ThreadStep s e { s with
        thread := if m.handAsync then .send bits true else .get bits true .recv (.ack m s.ret)
        handled := s.handled ++ [(m, none)] }
  | sendOne {bits : IpcEvents} {again : Bool} {d : Nat} {rest : List Nat} (hp : s.thread = .send bits again)
      (hb : bits.send = true) (hlist : s.localList = d :: rest) :
      ThreadStep s e { s with localList := rest, thread := .get bits true .send (.cmd d) }
  | sendNone {bits : IpcEvents} {again : Bool} (hp : s.thread = .send bits again)
      (hnil : bits.send = true → s.localList = []) : ThreadStep s e (s.setThread (.shutdown bits again))
  | announce {bits : IpcEvents} {again : Bool} (hp : s.thread = .shutdown bits again)
      (hb : bits.localShutdown = true) : ThreadStep s e (s.setThread (.get bits again .shutdown .shutdown))
  | noShutdown {bits : IpcEvents} {again : Bool} (hp : s.thread = .shutdown bits again)
      (hb : bits.localShutdown = false) : ThreadStep s e (s.setThread (.loop bits again))
  | get {bits : IpcEvents} {again : Bool} {part : IpcPart} {c : BkIpcCmd C} (hp : s.thread = .get bits again part c)
      (hpos : 0 < s.sem) : ThreadStep s e { s with sem := s.sem - 1, thread := .write bits again part c }
  | write {bits : IpcEvents} {again : Bool} {part : IpcPart} {c : BkIpcCmd C} (hp : s.thread = .write bits again part c)
      (hout : s.outstanding = none) :
      ThreadStep s e { s with
        outstanding := some c
        written := s.written ++ [c]
        ret := part.ret true s.ret
        thread := if c = .shutdown then .cmpl bits again part else part.next bits again }
  | refused {bits : IpcEvents} {again : Bool} {part : IpcPart} {c : BkIpcCmd C}
      (hp : s.thread = .write bits again part c) (hout : s.outstanding.isSome = true) :
      ThreadStep s e { s with
        sem := s.sem + 1, ret := part.ret false s.ret, thread := part.next bits again }
  | cmpl {bits : IpcEvents} {again : Bool} {part : IpcPart} (hp : s.thread = .cmpl bits again part)
      (hpos : 0 < s.sem) : ThreadStep s e { s with sem := s.sem - 1, thread := part.next bits again }
  | loop {bits : IpcEvents} {again : Bool} (hp : s.thread = .loop bits again) :
      ThreadStep s e (s.setThread (if again then .free bits else .wait))

variable {env}

theorem handle_cases {bits : IpcEvents} {m : IpcMsg C} (hp : s.thread = .handle bits m) :
    ThreadStep env s e (s.handle env bits m e.toIpcCb) := by
  unfold handle
  split
  next hc => exact .noDev hp hc
  next cfg hc =>
    cases hcb : cfg.rxCb with
    | true => exact .rxCb hp hc hcb
    | false => exact .noCb hp hc hcb

/-- When the first word of `waiting_sem` is its own address, the wait is the one that is meant. -/
theorem threadStep_cases (hword : ∀ n, env.word n = .self) (hs : s.threadStep env e = some s') :
    ThreadStep env s e s' := by
  unfold threadStep at hs
  split at hs
  next hp =>
    rw [hword] at hs
    dsimp only at hs
    split at hs <;> cases hs
    next hpos => exact .wait hp hpos
  next hp => cases hs; exact .collect hp
  next hp =>
    split at hs
    · split at hs <;> cases hs
      next => exact .freeNone hp
      next hlist => exact .freeOne hp hlist
    · cases hs
      exact .freeNone hp
  next hp =>
    split at hs
    next hb =>
      split at hs <;> cases hs
      next hlist => exact .recvNone hp fun _ => hlist
      next hlist => exact .recvOne hp hb hlist
    next hb => cases hs; exact .recvNone hp fun hb' => absurd hb' hb
  next hp => cases hs; exact handle_cases hp
  next hp =>
    split at hs
    next hb =>
      split at hs <;> cases hs
      next hlist => exact .sendNone hp fun _ => hlist
      next hlist => exact .sendOne hp hb hlist
    next hb => cases hs; exact .sendNone hp fun hb' => absurd hb' hb
  next hp =>
    split at hs <;> cases hs
    next hb => exact .announce hp hb
    next hb => exact .noShutdown hp (Bool.eq_false_iff.2 hb)
  next hp =>
    unfold getSem at hs
    split at hs <;> cases hs
    next hpos => exact .get hp hpos
  next c hp =>
    unfold mbChnlWrite at hs
    split at hs <;> cases hs
    next hout => exact .refused hp hout
    next hout =>
      have hstep : ThreadStep env s e _ := .write hp (by simpa using hout)
      simpa using hstep
  next hp =>
    unfold getSem at hs
    split at hs <;> cases hs
    next hpos => exact .cmpl hp hpos
  next hp => cases hs; exact .loop hp

end

section
variable {T C : Type} [DecidableEq T] [DecidableEq C] (env : IpcEnv C) {s s' : BkIpcInfo T C} {a : BkIpcAct T C}

inductive Step (s : BkIpcInfo T C) : BkIpcAct T C → BkIpcInfo T C → Prop
  | send {t : T} (ht : s.task t = .idle) (num : Nat) : Step s (.send t num)
      { s.setTask t .notify with localList := s.localList ++ [num], pushed := s.pushed ++ [num] }
  | notify {t : T} (ht : s.task t = .notify) :
      Step s (.notify t) ((s.setTask t .idle).eventNotify { send := true })
  | call {t : T} (ht : s.task t = .idle) (c : IpcCall) : Step s (.call t c) (s.setTask t (.get c))
  | get {t : T} {c : IpcCall} (ht : s.task t = .get c) (hpos : 0 < s.sem) :
      Step s (.get t) { s.setTask t (.write c) with sem := s.sem - 1 }
  | write {t : T} {c : IpcCall} (ht : s.task t = .write c) :
      Step s (.write t) ((s.setTask t .idle).mbChnlWrite c.cmd).2
  | thread {e : ThreadIn} {u : BkIpcInfo T C} (h : s.threadStep env e = some u) : Step s (.thread e) u
  | rxCmd (hisr : s.rxIsr = none) (m : IpcMsg C) : Step s (.rxCmd m)
      { s with remoteList := s.remoteList ++ [m], arrived := s.arrived ++ [m], rxIsr := some { recv := true } }
  | rxAck (hisr : s.rxIsr = none) (chan : C) :
      Step s (.rxAck chan) { s with freeList := s.freeList ++ [chan], rxIsr := some { free := true } }
  | rxNotify {event : IpcEvents} (hisr : s.rxIsr = some event) :
      Step s .rxNotify ({ s with rxIsr := none }.eventNotify event)
  | shutdown : Step s .shutdown (s.eventNotify { localShutdown := true })
  | txCmpl (hout : s.outstanding.isSome = true) :
      Step s .txCmpl { s with outstanding := none, sem := s.sem + 1 }

theorem step_cases (hs : s.step env a = some s') : Step env s a s' := by
  cases a with
  | thread e => exact .thread hs
  | shutdown => cases hs; exact .shutdown
  | rxNotify =>
    obtain ⟨event, hisr, rfl⟩ := Option.map_eq_some_iff.1 hs
    exact .rxNotify hisr
  | send t num =>
    obtain ⟨ht, hs⟩ := Option.ite_none_right_eq_some.1 hs
    cases hs
    exact .send ht num
  | notify t =>
    obtain ⟨ht, hs⟩ := Option.ite_none_right_eq_some.1 hs
    cases hs
    exact .notify ht
  | call t c =>
    obtain ⟨ht, hs⟩ := Option.ite_none_right_eq_some.1 hs
    cases hs
    exact .call ht c
  | get t =>
    simp only [step] at hs
    split at hs
    next ht =>
      obtain ⟨hpos, hs⟩ := Option.ite_none_right_eq_some.1 hs
      cases hs
      exact .get ht hpos
    next => cases hs
  | write t =>
    simp only [step] at hs
    split at hs <;> cases hs
    next ht => exact .write ht
  | rxCmd m =>
    obtain ⟨hisr, hs⟩ := Option.ite_none_right_eq_some.1 hs
    cases hs
    exact .rxCmd hisr m
  | rxAck chan =>
    obtain ⟨hisr, hs⟩ := Option.ite_none_right_eq_some.1 hs
    cases hs
    exact .rxAck hisr chan
  | txCmpl =>
    obtain ⟨hout, hs⟩ := Option.ite_none_right_eq_some.1 hs
    cases hs
    exact .txCmpl hout

end

/-! ## What has to hold -/

section
variable {T C : Type} (s : BkIpcInfo T C)

def sentNums : List Nat := s.written.filterMap fun c => match c with
  | .cmd num => some num
  | _ => none

/-- A shutdown is announced once, and the thread takes no message once it is collected or announced. -/
def ThreadOk : IpcThread C → Prop
  | .collect => s.waitingEvent.localShutdown = true → .shutdown ∉ s.written
  | .recv bits => bits.recv = true → bits.localShutdown = true ∨ .shutdown ∈ s.written → s.remoteList = []
  | .send bits _ => bits.send = true → bits.localShutdown = true ∨ .shutdown ∈ s.written → s.localList = []
  | _ => True

def ShutdownOk : BkIpcAct T C → Prop
  | .thread _ => s.ThreadOk s.thread
  | _ => True

variable [DecidableEq C]

instance : (p : IpcThread C) → Decidable (s.ThreadOk p)
  | .collect | .recv .. | .send .. => inferInstanceAs (Decidable (_ → _))
  | .wait | .free _ | .handle .. | .shutdown .. | .get .. | .write .. | .cmpl .. | .loop .. => .isTrue trivial

instance : (a : BkIpcAct T C) → Decidable (s.ShutdownOk a)
  | .thread _ => inferInstanceAs (Decidable (s.ThreadOk s.thread))
  | .send .. | .notify _ | .call .. | .get _ | .write _ | .rxCmd _ | .rxAck _ | .rxNotify | .shutdown | .txCmpl =>
    .isTrue trivial

end
end BkIpcInfo

namespace IpcThread
variable {C : Type}

def inHand : IpcThread C → List Nat
  | .get _ _ _ (.cmd num) | .write _ _ _ (.cmd num) => [num]
  | _ => []

def needsSem : IpcThread C → Bool
  | .get .. | .cmpl .. => true
  | _ => false

def writes : IpcThread C → Bool
  | .write .. => true
  | _ => false

def looks : IpcThread C → Bool
  | .free bits | .recv bits | .handle bits _ | .send bits _ => bits.send
  | .shutdown bits again | .get bits again _ _ | .write bits again _ _ | .cmpl bits again _ | .loop bits again =>
    bits.send && again
  | .wait | .collect => false

end IpcThread
end Bk7258

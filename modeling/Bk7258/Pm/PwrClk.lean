import Mathlib.Data.Fintype.Basic
import Bk7258.Lib.Lts
import Bk7258.Mailbox.Types

/-!
# Power management requests to the CP

All these functions of `pwr_clk.c` and `pm.c` have one body: a finish flag is cleared, the command is sent on
`MB_CHNL_PWC` with some retries, and the flag is polled for 100 ms; the receive interrupt sets it. When the time is up
the function logs that and returns `BK_OK` all the same.
-/

namespace Bk7258
open Lts Function

/-- `hdr.cmd` on `MB_CHNL_PWC`, `PM_POWER_CTRL_CMD` to `PM_SLEEP_WAKEUP_NOTIFY_CMD` -/
inductive PmCmd
  | powerCtrl
  | clkCtrl
  | sleepCtrl
  | cpuFreqCtrl
  | cpu1BootReady
  | ctrlExternalLdo
  | ctrlPsramPower
  | cp1PsramMallocState
  | cp1DumpPsramMallocInfo
  | cp1Recovery
  | enterDeepSleep
  | getPmData
  | ctrlApState
  | rtcDeepsleep
  | wakeupConfig
  | sleepWakeupNotify
  | other (code : UInt8)
deriving DecidableEq, Repr

structure PmMbCmd where
  cmd : PmCmd
  param1 : UInt32
  param2 : UInt32
  param3 : UInt32
deriving DecidableEq, Repr

/-- The variables of type `pm_mailbox_communication_state_e` -/
inductive PmFlag
  | cp1Pwr
  | cp1Clk
  | cp1Sleep
  | cp1CpuFreq
  | cp1Init
  | externalLdo
  | psramPower
  | rtcDeepsleep
  | getCpData
  | ctrlState
  | deepsleep
  | wakeupSrcCfg
deriving DecidableEq, Repr

inductive PmApCoreEvent
  | psramStateNotify
  | apRecovery
  | sleepWakeupNotify
deriving DecidableEq, Repr

structure PmApCoreMsg where
  event : PmApCoreEvent
  param1 : UInt32
  param2 : UInt32
  param3 : UInt32
deriving DecidableEq, Repr

/-- `finish f` says that the flag is `PM_MAILBOX_COMMUNICATION_FINISH`. The lists are what was given to
`bk_pm_ap_core_send_msg`, what the interrupt sends, and the calls of `bk_pm_ap_psram_power_state_handle_callback`. -/
structure PmAp where
  finish : PmFlag → Bool := fun _ => false
  pmMbData : PmMbCmd := ⟨.other 0, 0, 0, 0⟩
  coreMsgs : List PmApCoreMsg := []
  responses : List PmMbCmd := []
  psramCallbacks : List (UInt32 × UInt32) := []

namespace PmAp

def stateSet (s : PmAp) (f : PmFlag) (finished : Bool) : PmAp :=
  { s with finish := update s.finish f finished }

def coreSendMsg (s : PmAp) (m : PmApCoreMsg) : PmAp :=
  { s with coreMsgs := s.coreMsgs ++ [m] }

def finishIfOk (s : PmAp) (f : PmFlag) (c : PmMbCmd) : PmAp :=
  if c.param1 = 0 then s.stateSet f true else s

def rxIsr (s : PmAp) (c : PmMbCmd) : PmAp :=
  match c.cmd with
  | .powerCtrl => s.finishIfOk .cp1Pwr c
  | .clkCtrl => s.finishIfOk .cp1Clk c
  | .sleepCtrl => s.finishIfOk .cp1Sleep c
  | .cpuFreqCtrl => s.finishIfOk .cp1CpuFreq c
  | .ctrlExternalLdo => s.finishIfOk .externalLdo c
  | .ctrlPsramPower =>
    -- a reply that is neither `ON` nor `OFF` only changes what is logged
    (if c.param1 = 0 then s.coreSendMsg ⟨.psramStateNotify, 0, c.param2, 0⟩ else s).stateSet .psramPower true
  | .cp1PsramMallocState =>
    if c.param1 = 1 then
      let s := s.coreSendMsg ⟨.psramStateNotify, 1, c.param2, 0⟩
      { s with responses := s.responses ++ [⟨.cp1PsramMallocState, 2, 0, 0⟩] }
    else s
  | .cp1Recovery => (s.coreSendMsg ⟨.apRecovery, c.param1, c.param2, 0⟩).stateSet .cp1Init false
  | .rtcDeepsleep => s.finishIfOk .rtcDeepsleep c
  | .getPmData => { s with pmMbData := c }.stateSet .getCpData true
  | .ctrlApState => s.stateSet .ctrlState true
  | .enterDeepSleep => s.stateSet .deepsleep true
  | .wakeupConfig => s.stateSet .wakeupSrcCfg true
  | .sleepWakeupNotify => s.coreSendMsg ⟨.sleepWakeupNotify, c.param1, c.param2, c.param3⟩
  | .cpu1BootReady | .cp1DumpPsramMallocInfo | .other _ => s

end PmAp

def PmFlag.cmd : PmFlag → PmCmd
  | .cp1Pwr => .powerCtrl
  | .cp1Clk => .clkCtrl
  | .cp1Sleep => .sleepCtrl
  | .cp1CpuFreq => .cpuFreqCtrl
  | .cp1Init => .cpu1BootReady
  | .externalLdo => .ctrlExternalLdo
  | .psramPower => .ctrlPsramPower
  | .rtcDeepsleep => .rtcDeepsleep
  | .getCpData => .getPmData
  | .ctrlState => .ctrlApState
  | .deepsleep => .enterDeepSleep
  | .wakeupSrcCfg => .wakeupConfig

structure PmExchange where
  flag : PmFlag
  msg : PmMbCmd
  cmd_eq : msg.cmd = flag.cmd
deriving DecidableEq

inductive PmBody
  | ret (e : BkErr)
  | exchange (x : PmExchange)
deriving DecidableEq

def bkPmModuleVotePowerCtrl (module powerState : UInt32) : PmBody :=
  .exchange ⟨.cp1Pwr, ⟨.powerCtrl, module, powerState, 0⟩, rfl⟩

def bkPmModuleVoteSleepCtrl (module sleepState sleepTime : UInt32) : PmBody :=
  if module = 22 then .ret .ok else .exchange ⟨.cp1Sleep, ⟨.sleepCtrl, module, sleepState, sleepTime⟩, rfl⟩

def bkPmModuleVotePsramCtrl (module powerState : UInt32) : PmBody :=
  .exchange ⟨.psramPower, ⟨.ctrlPsramPower, module, powerState, 0⟩, rfl⟩

def bkPmModuleVoteCtrlExternalLdo (module gpioId value : UInt32) : PmBody :=
  .exchange ⟨.externalLdo, ⟨.ctrlExternalLdo, module, gpioId, value⟩, rfl⟩

def bkPmApSleepModeSet (sleepMode : UInt32) : PmBody :=
  .exchange ⟨.deepsleep, ⟨.enterDeepSleep, sleepMode, 0, 0⟩, rfl⟩

def bkPmModuleVoteCpuFreq (module cpuFreq : UInt32) : PmBody :=
  .exchange ⟨.cp1CpuFreq, ⟨.cpuFreqCtrl, module, cpuFreq, 0⟩, rfl⟩

def bkPmClockCtrl (module clockState : UInt32) : PmBody :=
  .exchange ⟨.cp1Clk, ⟨.clkCtrl, module, clockState, 0⟩, rfl⟩

def bkPmApRtcEnterDeepsleep (module sleepTime : UInt32) : PmBody :=
  .exchange ⟨.rtcDeepsleep, ⟨.rtcDeepsleep, module, sleepTime, 0⟩, rfl⟩

def bkPmModuleVoteBootCp1Ctrl (module powerState : UInt32) : PmBody :=
  .exchange ⟨.ctrlState, ⟨.ctrlApState, module, powerState, 0⟩, rfl⟩

def pmWakeupSourceConfig (sleepMode wakeupSource data : UInt32) : PmBody :=
  .exchange ⟨.wakeupSrcCfg, ⟨.wakeupConfig, sleepMode, wakeupSource, data⟩, rfl⟩

def pmApGetCpData (type : UInt32) (null : Bool) : PmBody :=
  if null then .ret .fail else .exchange ⟨.getCpData, ⟨.getPmData, type, 0, 0⟩, rfl⟩

inductive PmReq
  | votePowerCtrl (module powerState : UInt32)
  | voteSleepCtrl (module sleepState sleepTime : UInt32)
  | votePsramCtrl (module powerState : UInt32)
  | voteCtrlExternalLdo (module gpioId value : UInt32)
  | sleepModeSet (sleepMode : UInt32)
  | voteCpuFreq (module cpuFreq : UInt32)
  | clockCtrl (module clockState : UInt32)
  | rtcEnterDeepsleep (module sleepTime : UInt32)
  | voteBootCp1Ctrl (module powerState : UInt32)
  | wakeupSourceConfig (sleepMode wakeupSource data : UInt32)
  | getCpData (type : UInt32) (null : Bool)
deriving DecidableEq, Repr

def PmReq.body : PmReq → PmBody
  | .votePowerCtrl module powerState => bkPmModuleVotePowerCtrl module powerState
  | .voteSleepCtrl module sleepState sleepTime => bkPmModuleVoteSleepCtrl module sleepState sleepTime
  | .votePsramCtrl module powerState => bkPmModuleVotePsramCtrl module powerState
  | .voteCtrlExternalLdo module gpioId value => bkPmModuleVoteCtrlExternalLdo module gpioId value
  | .sleepModeSet sleepMode => bkPmApSleepModeSet sleepMode
  | .voteCpuFreq module cpuFreq => bkPmModuleVoteCpuFreq module cpuFreq
  | .clockCtrl module clockState => bkPmClockCtrl module clockState
  | .rtcEnterDeepsleep module sleepTime => bkPmApRtcEnterDeepsleep module sleepTime
  | .voteBootCp1Ctrl module powerState => bkPmModuleVoteBootCp1Ctrl module powerState
  | .wakeupSourceConfig sleepMode wakeupSource data => pmWakeupSourceConfig sleepMode wakeupSource data
  | .getCpData type null => pmApGetCpData type null

def bkPmApMiscGetTimeIntervalFromStartup (null : Bool) : PmReq := .getCpData 0 null
def bkPmDeepSleepWakeupSourceGet : PmReq := .getCpData 1 false
def bkPmExitLowVolWakeupSourceGet : PmReq := .getCpData 2 false

/-- What a function does after the wait. The second component is what it stores in `*data`. -/
def PmReq.after (req : PmReq) (s : PmAp) : PmAp × Option UInt32 :=
  match req with
  | .votePsramCtrl module powerState =>
    (if powerState = 0 then { s with psramCallbacks := s.psramCallbacks ++ [(module, powerState)] } else s, none)
  | .getCpData _ _ => (s, some s.pmMbData.param2)
  | _ => (s, none)

structure PmCall where
  num : Nat
  req : PmReq
  x : PmExchange
  body_eq : req.body = .exchange x
deriving DecidableEq

/-- Where a call is. From the successful `mb_chnl_write` on, `sentAt` is the number of positive replies to its command
that had come before. -/
inductive PmPc
  | reset
  | send (retryCount : Nat)
  | start (sentAt : Nat)
  | poll (sentAt : Nat) (previousTick currentTick : UInt64)
  | count (sentAt : Nat) (previousTick : UInt64)
  | after (sentAt : Nat)
deriving DecidableEq, Repr

/-- A call that has returned. `gotAt` is the number of positive replies to its command that have come by now. -/
structure PmRet where
  num : Nat
  req : PmReq
  result : BkErr
  sentAt : Option Nat
  gotAt : Nat
  data : Option UInt32
deriving DecidableEq, Repr

inductive PmTask
  | idle
  | run (c : PmCall) (pc : PmPc)
  | ret (r : PmRet)
deriving DecidableEq

/-- `bk_pm_deep_sleep_wakeup_source_get` and `bk_pm_exit_low_vol_wakeup_source_get` ignore the result. -/
def PmRet.wakeupSource (r : PmRet) : UInt32 := r.data.getD 6

def PmReq.start (req : PmReq) (num : Nat) : PmTask :=
  match h : req.body with
  | .ret e => .ret ⟨num, req, e, none, 0, none⟩
  | .exchange x => .run ⟨num, req, x, h⟩ .reset

/-- A positive reply: the one the interrupt does not call an error, where it looks at it. -/
def PmMbCmd.positive (c : PmMbCmd) : Bool :=
  match c.cmd with
  | .ctrlPsramPower => c.param1 = 0 ∨ c.param1 = 1
  | _ => c.param1 = 0

/-- `asked` holds the queries the CP has not answered, `answers` the values it has sent, both with the number of the
call; `recv` counts the positive replies. -/
structure PmSys (T : Type) where
  ap : PmAp := {}
  now : UInt64 := 0
  task : T → PmTask := fun _ => .idle
  next : Nat := 0
  recv : PmCmd → Nat := fun _ => 0
  asked : List (Nat × UInt32) := []
  answers : List (Nat × UInt32) := []

inductive PmAct (T : Type)
  | call (t : T) (req : PmReq)
  | run (t : T) (ok : Bool)
  | rx (c : PmMbCmd)
  | tick (n : UInt64)

/-- `PM_SEND_CMD_CP1_RESPONSE_TIEM*PM_AON_RTC_DEFAULT_TICK_COUNT` -/
def pmResponseTicks : UInt64 := 100 * 32

def PmTask.late : PmTask → Option PmFlag
  | .run c (.poll _ previousTick currentTick) =>
    if currentTick - previousTick < pmResponseTicks then none else some c.x.flag
  | _ => none

def PmCall.question (c : PmCall) : List (Nat × UInt32) :=
  if c.x.msg.cmd = .getPmData then [(c.num, c.x.msg.param1)] else []

namespace PmSys

variable {T : Type}

def rx (s : PmSys T) (c : PmMbCmd) : PmSys T :=
  let s := { s with ap := s.ap.rxIsr c }
  let s := if c.positive then { s with recv := update s.recv c.cmd (s.recv c.cmd + 1) } else s
  match c.cmd, s.asked with
  | .getPmData, q :: asked => { s with asked, answers := (q.1, c.param2) :: s.answers }
  | _, _ => s

variable [DecidableEq T]

def setTask (s : PmSys T) (t : T) (x : PmTask) : PmSys T :=
  { s with task := update s.task t x }

def run (s : PmSys T) (t : T) (c : PmCall) (ok : Bool) : PmPc → PmSys T
  | .reset => { s with ap := s.ap.stateSet c.x.flag false }.setTask t (.run c (.send 0))
  | .send retryCount =>
    if ok then
      { s with asked := s.asked ++ c.question }.setTask t (.run c (.start (s.recv c.x.msg.cmd)))
    else if retryCount > 5 then
      s.setTask t (.ret ⟨c.num, c.req, .fail, none, 0, none⟩)
    else
      s.setTask t (.run c (.send (retryCount + 1)))
  | .start sentAt => s.setTask t (.run c (.poll sentAt s.now s.now))
  | .poll sentAt previousTick currentTick =>
    if currentTick - previousTick < pmResponseTicks then
      if s.ap.finish c.x.flag then s.setTask t (.run c (.after sentAt))
      else s.setTask t (.run c (.count sentAt previousTick))
    else
      s.setTask t (.run c (.after sentAt))
  | .count sentAt previousTick => s.setTask t (.run c (.poll sentAt previousTick s.now))
  | .after sentAt =>
    { s with ap := (c.req.after s.ap).1 }.setTask t
      (.ret ⟨c.num, c.req, .ok, some sentAt, s.recv c.x.msg.cmd, (c.req.after s.ap).2⟩)

def step (s : PmSys T) : PmAct T → Option (PmSys T)
  | .call t req =>
    match s.task t with
    | .run _ _ => none
    | _ => some ({ s with next := s.next + 1 }.setTask t (req.start s.next))
  | .run t ok =>
    match s.task t with
    | .run c pc => some (s.run t c ok pc)
    | _ => none
  | .rx c => some (s.rx c)
  | .tick n => some { s with now := s.now + n }

end PmSys

/-! ### The flag of a request -/

def PmReq.flag : PmReq → PmFlag
  | .votePowerCtrl .. => .cp1Pwr
  | .voteSleepCtrl .. => .cp1Sleep
  | .votePsramCtrl .. => .psramPower
  | .voteCtrlExternalLdo .. => .externalLdo
  | .sleepModeSet .. => .deepsleep
  | .voteCpuFreq .. => .cp1CpuFreq
  | .clockCtrl .. => .cp1Clk
  | .rtcEnterDeepsleep .. => .rtcDeepsleep
  | .voteBootCp1Ctrl .. => .ctrlState
  | .wakeupSourceConfig .. => .wakeupSrcCfg
  | .getCpData .. => .getCpData

theorem PmReq.flag_eq {req : PmReq} {x : PmExchange} (hb : req.body = .exchange x) : x.flag = req.flag := by
  cases req with
  | voteSleepCtrl module sleepState sleepTime =>
    change bkPmModuleVoteSleepCtrl module sleepState sleepTime = _ at hb
    unfold bkPmModuleVoteSleepCtrl at hb
    split at hb
    · cases hb
    · cases hb
      rfl
  | getCpData type null =>
    change pmApGetCpData type null = _ at hb
    unfold pmApGetCpData at hb
    split at hb
    · cases hb
    · cases hb
      rfl
  | _ =>
    cases hb
    rfl

/-! ### What the interrupt changes -/

def PmMbCmd.finishes (c : PmMbCmd) : Option PmFlag :=
  match c.cmd with
  | .powerCtrl => if c.param1 = 0 then some .cp1Pwr else none
  | .clkCtrl => if c.param1 = 0 then some .cp1Clk else none
  | .sleepCtrl => if c.param1 = 0 then some .cp1Sleep else none
  | .cpuFreqCtrl => if c.param1 = 0 then some .cp1CpuFreq else none
  | .ctrlExternalLdo => if c.param1 = 0 then some .externalLdo else none
  | .rtcDeepsleep => if c.param1 = 0 then some .rtcDeepsleep else none
  | .ctrlPsramPower => some .psramPower
  | .getPmData => some .getCpData
  | .ctrlApState => some .ctrlState
  | .enterDeepSleep => some .deepsleep
  | .wakeupConfig => some .wakeupSrcCfg
  | _ => none

theorem PmMbCmd.finishes_cmd {c : PmMbCmd} {f : PmFlag} (h : c.finishes = some f) : c.cmd = f.cmd := by
  unfold finishes at h
  cases hc : c.cmd <;> grind [PmFlag.cmd]

namespace PmAp

variable {s : PmAp} {c : PmMbCmd} {f : PmFlag}

@[simp] theorem stateSet_finish (s : PmAp) (g : PmFlag) (b : Bool) :
    (s.stateSet g b).finish = update s.finish g b := rfl

@[simp] theorem coreSendMsg_finish (s : PmAp) (m : PmApCoreMsg) : (s.coreSendMsg m).finish = s.finish := rfl

theorem finishIfOk_finish (s : PmAp) (g : PmFlag) (c : PmMbCmd) :
    (s.finishIfOk g c).finish = if c.param1 = 0 then update s.finish g true else s.finish := by
  unfold finishIfOk
  split <;> rfl

theorem rxIsr_finish (hf : f ≠ .cp1Init) :
    (s.rxIsr c).finish f = match c.finishes with
      | some g => update s.finish g true f
      | none => s.finish f := by
  unfold rxIsr PmMbCmd.finishes
  cases c.cmd <;> simp only [finishIfOk_finish, stateSet_finish, coreSendMsg_finish, apply_ite PmAp.finish, ite_self]
  case cp1Recovery => exact update_of_ne hf ..
  all_goals split <;> rfl

theorem rxIsr_pmMbData (h : c.cmd ≠ .getPmData) : (s.rxIsr c).pmMbData = s.pmMbData := by
  unfold rxIsr finishIfOk
  cases hc : c.cmd <;> simp only [apply_ite PmAp.pmMbData, stateSet, coreSendMsg, ite_self]
  exact absurd hc h

end PmAp

namespace PmSys

variable {T : Type}

theorem rx_recv (s : PmSys T) (m : PmMbCmd) :
    (s.rx m).recv = if m.positive then update s.recv m.cmd (s.recv m.cmd + 1) else s.recv := by
  unfold rx
  dsimp only
  split <;> split <;> rfl

theorem rx_ap (s : PmSys T) (m : PmMbCmd) : (s.rx m).ap = s.ap.rxIsr m := by
  unfold rx
  dsimp only
  split <;> split <;> rfl

theorem rx_task (s : PmSys T) (m : PmMbCmd) : (s.rx m).task = s.task := by
  unfold rx
  dsimp only
  split <;> split <;> rfl

variable {s : PmSys T} {m : PmMbCmd}

theorem rx_asked_of_ne (h : m.cmd ≠ .getPmData) : (s.rx m).asked = s.asked ∧ (s.rx m).answers = s.answers := by
  unfold rx
  dsimp only
  split
  · contradiction
  · split <;> exact ⟨rfl, rfl⟩

theorem rx_answer {q : Nat × UInt32} {qs : List (Nat × UInt32)} (h : m.cmd = .getPmData) (ha : s.asked = q :: qs) :
    (s.rx m).asked = qs ∧ (s.rx m).answers = (q.1, m.param2) :: s.answers := by
  unfold rx
  rw [h]
  cases hp : m.positive <;> simp [ha]

section
variable [DecidableEq T] {s' : PmSys T} {t : T}

theorem step_call {req : PmReq} (hs : s.step (.call t req) = some s') :
    (∀ c pc, s.task t ≠ .run c pc) ∧ s' = { s with next := s.next + 1 }.setTask t (req.start s.next) := by
  unfold PmSys.step at hs
  dsimp only at hs
  split at hs
  · cases hs
  · rename_i hidle
    exact ⟨hidle, (Option.some.inj hs).symm⟩

theorem step_run {ok : Bool} (hs : s.step (.run t ok) = some s') :
    ∃ c pc, s.task t = .run c pc ∧ s' = s.run t c ok pc := by
  unfold PmSys.step at hs
  dsimp only at hs
  split at hs
  · exact ⟨_, _, ‹_›, (Option.some.inj hs).symm⟩
  · cases hs

end
end PmSys

theorem PmReq.after_finish (req : PmReq) (a : PmAp) : (req.after a).1.finish = a.finish := by
  unfold after
  split
  · dsimp only
    split <;> rfl
  · rfl
  · rfl

theorem PmReq.after_pmMbData (req : PmReq) (a : PmAp) : (req.after a).1.pmMbData = a.pmMbData := by
  unfold after
  split
  · dsimp only
    split <;> rfl
  · rfl
  · rfl

end Bk7258

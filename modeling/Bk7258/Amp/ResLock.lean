import Bk7258.Lib.Lts
import Bk7258.Lib.Tally
import Bk7258.Mailbox.Types

/-!
# The AMP resource lock

`amp_res_lock.c` for one resource. The server CPU counts the requests of each CPU (`req_cnt`) and posts semaphores or
sends indications; a task of the client CPU reaches the counts by a message. `AmpLock.step` interleaves the steps of any
number of tasks on the two CPUs, `false` (the server, CPU0) and `true` (the client, CPU1).
-/

namespace Bk7258
open Function

structure AmpResReqCnt where
  selfReqCnt : BitVec 16
  othersReqCnt : BitVec 16
deriving DecidableEq, Repr

/-- `amp_res_sync_t` of one CPU; `reqCnt` is there on the server only. -/
structure AmpResSync where
  inited : Bool
  resSema : Nat
  reqCnt : Nat → BitVec 16

namespace AmpResSync

def setReqCnt (r : AmpResSync) (cnt : Nat → BitVec 16) : AmpResSync := { r with reqCnt := cnt }

def post (r : AmpResSync) : AmpResSync := { r with resSema := r.resSema + 1 }
def take (r : AmpResSync) : AmpResSync := { r with resSema := r.resSema - 1 }

@[simp] theorem setReqCnt_reqCnt (r : AmpResSync) (cnt : Nat → BitVec 16) : (r.setReqCnt cnt).reqCnt = cnt := rfl

end AmpResSync

section
variable (ampCpuCnt : Nat)

def allCnt (reqCnt : Nat → BitVec 16) : BitVec 16 := (List.range ampCpuCnt).foldl (fun n i => n + reqCnt i) 0

def cntList (reqCnt : Nat → BitVec 16) (cpuId : Nat) : AmpResReqCnt :=
  ⟨reqCnt cpuId, allCnt ampCpuCnt reqCnt - reqCnt cpuId⟩

def ampResAcquireCnt (r : AmpResSync) (cpuId : Nat) : Except BkErr (AmpResReqCnt × AmpResSync) :=
  if !r.inited then .error .errNotInit
  else if ampCpuCnt ≤ cpuId then .error .errParam
  else .ok (cntList ampCpuCnt r.reqCnt cpuId, r.setReqCnt (update r.reqCnt cpuId (r.reqCnt cpuId + 1)))

def ampResReleaseCnt (r : AmpResSync) (cpuId : Nat) : Except BkErr (AmpResReqCnt × AmpResSync) :=
  if !r.inited then .error .errNotInit
  else if ampCpuCnt ≤ cpuId then .error .errParam
  else if 0 < r.reqCnt cpuId then
    let reqCnt := update r.reqCnt cpuId (r.reqCnt cpuId - 1)
    .ok (cntList ampCpuCnt reqCnt cpuId, r.setReqCnt reqCnt)
  else .error .fail

variable {ampCpuCnt} {r : AmpResSync} {cpuId : Nat} (hi : r.inited = true) (hlt : cpuId < ampCpuCnt)
include hi hlt

theorem ampResAcquireCnt_ok :
    ampResAcquireCnt ampCpuCnt r cpuId = .ok (cntList ampCpuCnt r.reqCnt cpuId,
      r.setReqCnt (update r.reqCnt cpuId (r.reqCnt cpuId + 1))) := by
  rw [ampResAcquireCnt, if_neg (by simp [hi]), if_neg (by omega)]

theorem ampResReleaseCnt_ok (hpos : 0 < r.reqCnt cpuId) :
    ampResReleaseCnt ampCpuCnt r cpuId = .ok (cntList ampCpuCnt (update r.reqCnt cpuId (r.reqCnt cpuId - 1)) cpuId,
        r.setReqCnt (update r.reqCnt cpuId (r.reqCnt cpuId - 1))) := by
  rw [ampResReleaseCnt, if_neg (by simp [hi]), if_neg (by omega), if_pos hpos]

theorem ampResReleaseCnt_fail (hpos : ¬ 0 < r.reqCnt cpuId) :
    ampResReleaseCnt ampCpuCnt r cpuId = .error .fail := by
  rw [ampResReleaseCnt, if_neg (by simp [hi]), if_neg (by omega), if_neg hpos]

end

def ampResAvailable (r : AmpResSync) : BkErr × AmpResSync :=
  if !r.inited then (.errNotInit, r) else (.ok, r.post)

/-! ### The counts as numbers -/

theorem toNat_add_one {x : BitVec 16} (h : x.toNat + 1 < 2 ^ 16) : (x + 1).toNat = x.toNat + 1 := by
  rw [BitVec.toNat_add]
  exact Nat.mod_eq_of_lt h

theorem toNat_sub_one {x : BitVec 16} (h : 0 < x.toNat) : (x - 1).toNat + 1 = x.toNat := by
  have hlt := x.isLt
  rw [BitVec.toNat_sub]
  show (2 ^ 16 - 1 + x.toNat) % 2 ^ 16 + 1 = x.toNat
  omega

/-! ### Tasks -/

inductive Pc
  | idle
  | acqReq
  | acqCnt (cnt : AmpResReqCnt)
  | wait
  | expired
  | backReq
  | backCnt (cnt : AmpResReqCnt)
  | hold
  | relReq
  | relCnt (cnt : AmpResReqCnt)
deriving DecidableEq, Repr

/-- The tasks of the two CPUs, and the number of CPUs the server counts requests for. -/
structure AmpCfg (τ : Type) where
  cpu : τ → Bool
  ampCpuCnt : Nat
  two_le : 2 ≤ ampCpuCnt

theorem AmpCfg.cpuId_lt {τ : Type} (cfg : AmpCfg τ) (t : τ) : (cfg.cpu t).toNat < cfg.ampCpuCnt :=
  Nat.lt_of_le_of_lt (Bool.toNat_le _) cfg.two_le

/-- `ind` are the availability indications in flight to each CPU. -/
structure AmpLock (τ : Type) where
  sync : Bool → AmpResSync
  pc : τ → Pc
  ind : Bool → Nat

inductive AmpAct (τ : Type)
  | acquire (t : τ)
  | serve (t : τ)
  | post (t : τ)
  | get (t : τ)
  | timeout (t : τ)
  | back (t : τ)
  | clear (t : τ)
  | release (t : τ)
  | pass (t : τ)
  | available (c : Bool)
deriving DecidableEq, Repr

namespace AmpLock

section
variable {τ : Type} (s : AmpLock τ) (c : Bool)

def setSync (r : AmpResSync) : AmpLock τ := { s with sync := update s.sync c r }

def setInd (n : Nat) : AmpLock τ := { s with ind := update s.ind c n }

def avail : Nat := (s.sync false).resSema + (s.sync true).resSema + s.ind false + s.ind true

@[simp] theorem setSync_pc (r : AmpResSync) : (s.setSync c r).pc = s.pc := rfl
@[simp] theorem setSync_ind (r : AmpResSync) : (s.setSync c r).ind = s.ind := rfl
@[simp] theorem setInd_pc (n : Nat) : (s.setInd c n).pc = s.pc := rfl
@[simp] theorem setInd_sync (n : Nat) : (s.setInd c n).sync = s.sync := rfl

@[simp] theorem setSync_sync (r : AmpResSync) (d : Bool) : (s.setSync c r).sync d = if d = c then r else s.sync d := by
  simp [setSync, update_apply]

theorem avail_setSync (r : AmpResSync) : (s.setSync c r).avail + (s.sync c).resSema = s.avail + r.resSema := by
  cases c <;> simp [avail] <;> omega

theorem avail_setInd (n : Nat) : (s.setInd c n).avail + s.ind c = s.avail + n := by
  cases c <;> simp [avail, setInd] <;> omega

end

section
variable {τ : Type} [DecidableEq τ] (cfg : AmpCfg τ) (s : AmpLock τ)

def setPc (t : τ) (p : Pc) : AmpLock τ := { s with pc := update s.pc t p }

@[simp] theorem setPc_sync (t : τ) (p : Pc) : (s.setPc t p).sync = s.sync := rfl
@[simp] theorem setPc_ind (t : τ) (p : Pc) : (s.setPc t p).ind = s.ind := rfl

def acquireCnt (t : τ) : AmpLock τ :=
  match ampResAcquireCnt cfg.ampCpuCnt (s.sync false) (cfg.cpu t).toNat with
  | .ok r => (s.setSync false r.2).setPc t (.acqCnt r.1)
  | .error _ => s.setPc t .idle

def releaseCnt (t : τ) (k : AmpResReqCnt → Pc) : AmpLock τ :=
  match ampResReleaseCnt cfg.ampCpuCnt (s.sync false) (cfg.cpu t).toNat with
  | .ok r => (s.setSync false r.2).setPc t (k r.1)
  | .error _ => s.setPc t .idle

def step : AmpAct τ → Option (AmpLock τ)
  | .acquire t =>
    if s.pc t = .idle then
      if !(s.sync (cfg.cpu t)).inited then some s
      else if cfg.cpu t then some (s.setPc t .acqReq) else some (s.acquireCnt cfg t)
    else none
  | .serve t =>
    match s.pc t with
    | .acqReq => some (s.acquireCnt cfg t)
    | .backReq => some (s.releaseCnt cfg t .backCnt)
    | .relReq => some (s.releaseCnt cfg t .relCnt)
    | _ => none
  | .post t =>
    match s.pc t with
    | .acqCnt cnt =>
      let r := s.sync (cfg.cpu t)
      let r := if cnt.selfReqCnt = 0 ∧ cnt.othersReqCnt = 0 then r.post else r
      some ((s.setSync (cfg.cpu t) r).setPc t .wait)
    | _ => none
  | .get t =>
    let r := s.sync (cfg.cpu t)
    if s.pc t = .wait ∧ 0 < r.resSema then some ((s.setSync (cfg.cpu t) r.take).setPc t .hold) else none
  -- a wait times out only while there is nothing to take
  | .timeout t =>
    if s.pc t = .wait ∧ (s.sync (cfg.cpu t)).resSema = 0 then some (s.setPc t .expired) else none
  | .back t =>
    if s.pc t = .expired then
      if cfg.cpu t then some (s.setPc t .backReq) else some (s.releaseCnt cfg t .backCnt)
    else none
  | .clear t =>
    match s.pc t with
    | .backCnt cnt =>
      let r := s.sync (cfg.cpu t)
      let r := if cnt.selfReqCnt = 0 then r.take else r
      some ((s.setSync (cfg.cpu t) r).setPc t .idle)
    | _ => none
  | .release t =>
    if s.pc t = .hold then
      if !(s.sync (cfg.cpu t)).inited then some s
      else if cfg.cpu t then some (s.setPc t .relReq) else some (s.releaseCnt cfg t .relCnt)
    else none
  | .pass t =>
    match s.pc t with
    | .relCnt cnt =>
      let c := cfg.cpu t
      if 0 < cnt.selfReqCnt then some ((s.setSync c (s.sync c).post).setPc t .idle)
      else if 0 < cnt.othersReqCnt then some ((s.setInd (!c) (s.ind (!c) + 1)).setPc t .idle)
      else some (s.setPc t .idle)
    | _ => none
  | .available c =>
    if 0 < s.ind c then some ((s.setInd c (s.ind c - 1)).setSync c (ampResAvailable (s.sync c)).2) else none

end

def init (τ : Type) : AmpLock τ where
  sync _ := ⟨true, 0, fun _ => 0⟩
  pc _ := .idle
  ind _ := 0

end AmpLock
end Bk7258

import Bk7258.Lib.Lts
import Bk7258.Otp.Update

/-!
# The OTP driver on any hardware

The functions of the driver share one pointer, `otp_map`. `OTP_ACTIVE` sets it and `OTP_SLEEP` makes it `NULL` again;
where it is not `NULL`, `OTP_ACTIVE` returns -1 from the function it stands in. The hardware is arbitrary here; at the
memory of `Otp.Update` the update is the one of that module.
-/

namespace Bk7258

open Lts

def otpReadOnly : Nat := 3

def otpNoAccess : Nat := 0xF

inductive OtpFactoryStep
  | initPuf
  | checkPufQuality
  | checkPufHealth
  | doAutoRepair
  | enableShuffleWrite
  | enableShuffleRead
  | testPage
  | offMarginRead
  | onMarginRead
  | initialOffCheck
  | enableProgramProtect
  | enableTestModeLock
deriving DecidableEq, Repr

structure OtpHw (σ : Type) where
  active : σ → σ × Bool
  readPermission : OtpBank → Nat → σ → σ × Nat
  readMask : OtpBank → Nat → σ → σ × Nat
  writePermission : OtpBank → Nat → Nat → σ → σ
  writeMask : OtpBank → Nat → Nat → σ → σ
  readOtp : OtpBank → Nat → σ → σ × Bytes.Mem
  writeOtp : OtpBank → Nat → Bytes.Mem → σ → σ
  readRandomNumber : σ → σ × BitVec 32
  readTmlck : σ → σ × Nat
  readShfwen : σ → σ × Nat
  readShfren : σ → σ × Nat
  factory : OtpFactoryStep → σ → Option (σ × BitVec 32)
  past : OtpBank → Nat → OtpItem

structure OtpDrv (σ : Type) where
  otpMap : Option OtpBank
  hw : σ

inductive OtpRet
  | common (r : OtpErr)
  | noReadPermission
  | permissionWrong
deriving DecidableEq, Repr

namespace OtpHw
variable {σ : Type} (hw : OtpHw σ) (cfg : OtpCfg) (d : OtpDrv σ) (b : OtpBank)

/-! ## The functions -/

def otpActive : OtpDrv σ × Bool :=
  if d.otpMap = none then
    let r := hw.active d.hw
    if r.2 then (⟨some b, r.1⟩, true) else (⟨none, r.1⟩, false)
  else (d, false)

def bracket {α : Type} (access : σ → σ × α) : OtpDrv σ × Option α :=
  let a := hw.otpActive d b
  if a.2 then
    let r := access a.1.hw
    (⟨none, r.1⟩, some r.2)
  else (a.1, none)

def mapItem (item : Nat) : OtpItem := ((cfg.table b)[item]?).getD (hw.past b item)

-- no check of the index in the functions that read a permission or a mask
def otpReadPermission (item : Nat) : OtpDrv σ × Option Nat :=
  hw.bracket d b fun s =>
    let location := (hw.mapItem cfg b item).offset / 4
    let permission := hw.readPermission b location s
    let mask := hw.readMask b location permission.1
    (mask.1, max permission.2 mask.2)

def bkOtpApbReadPermission (item : Nat) : OtpDrv σ × Option Nat := hw.otpReadPermission cfg d .apb item

def bkOtpAhbReadPermission (item : Nat) : OtpDrv σ × Option Nat := hw.otpReadPermission cfg d .ahb item

def otpReadMask (item : Nat) : OtpDrv σ × Option Nat :=
  hw.bracket d b (hw.readMask b ((hw.mapItem cfg b item).offset / 4))

def bkOtpApbReadMask (item : Nat) : OtpDrv σ × Option Nat := hw.otpReadMask cfg d .apb item

def bkOtpAhbReadMask (item : Nat) : OtpDrv σ × Option Nat := hw.otpReadMask cfg d .ahb item

/-- The loop over the words of an item: a word for every four bytes of `size`, the last one for what is left -/
def forWords (write : Nat → σ → σ) : (fuel location size : Nat) → σ → σ
  | 0, _, _, s => s
  | fuel + 1, location, size, s =>
    if size > 0 then forWords write fuel (location + 1) (size - 4) (write location s) else s

/-- The functions that write a permission or a mask; `allowed` is whether the value may be written. -/
def otpWriteWords (item : Nat) (allowed : Bool) (write : Nat → σ → σ) : OtpDrv σ × OtpRet :=
  match (cfg.table b)[item]? with
  | none => (d, .common .indexWrong)
  | some it =>
    if !allowed then (d, .permissionWrong)
    else
      let r := hw.bracket d b fun s => (forWords write it.allocatedSize (it.offset / 4) it.allocatedSize s, ())
      (r.1, if r.2 = some () then .common .ok else .common .fail)

def bkOtpAhbWritePermission (item permission : Nat) : OtpDrv σ × OtpRet :=
  hw.otpWriteWords cfg d .ahb item (permission = otpReadOnly) fun location =>
    hw.writePermission .ahb location permission

def bkOtpApbWritePermission (item permission : Nat) : OtpDrv σ × OtpRet :=
  hw.otpWriteWords cfg d .apb item (permission = otpReadOnly ∨ permission = otpNoAccess) fun location =>
    hw.writePermission .apb location permission

def bkOtpApbWriteMask (item mask : Nat) : OtpDrv σ × OtpRet :=
  hw.otpWriteWords cfg d .apb item true fun location => hw.writeMask .apb location mask

def bkOtpAhbWriteMask (item mask : Nat) : OtpDrv σ × OtpRet :=
  hw.otpWriteWords cfg d .ahb item true fun location => hw.writeMask .ahb location mask

def readPass : (fuel location start size : Nat) → σ → σ × List UInt8
  | 0, _, _, _, s => (s, [])
  | fuel + 1, location, start, size, s =>
    if size = 0 then (s, [])
    else
      let value := hw.readOtp b location s
      let cpyCnt := wordCnt start size
      let rest := readPass fuel (location + 1) 0 (size - cpyCnt) value.1
      (rest.1, (List.range cpyCnt).map (fun i => value.2 (start + i)) ++ rest.2)

/-- -1 is larger than `OTP_READ_ONLY`: a privilege is unsigned. -/
def otpRead (item size : Nat) : OtpDrv σ × Except OtpRet (List UInt8) :=
  match (cfg.table b)[item]? with
  | none => (d, .error (.common .indexWrong))
  | some it =>
    let r := hw.otpReadPermission cfg d b item
    if r.2.any (· ≤ otpReadOnly) then
      let a := hw.bracket r.1 b fun s =>
        if size > it.allocatedSize then (s, none)
        else
          let data := hw.readPass b size (it.offset / 4) (it.offset % 4) size s
          (data.1, some data.2)
      (a.1, match a.2 with
        | none => .error (.common .fail)
        | some none => .error (.common .addrOutOfRange)
        | some (some data) => .ok data)
    else (r.1, .error .noReadPermission)

def bkOtpApbRead (item size : Nat) : OtpDrv σ × Except OtpRet (List UInt8) := hw.otpRead cfg d .apb item size

def bkOtpAhbRead (item size : Nat) : OtpDrv σ × Except OtpRet (List UInt8) := hw.otpRead cfg d .ahb item size

def bkOtpApbReadByOffset (itemOffset size : Nat) : OtpDrv σ × Option (List UInt8) :=
  hw.bracket d .apb (hw.readPass .apb size (itemOffset / 4) (itemOffset % 4) size)

section
variable (item : Nat) (buf : Bytes.Mem) (size : Nat)

/-- An update up to its second pass: the item and the hardware that one starts with, or what the update returns
instead -/
def updateBegin : Except (OtpDrv σ × OtpErr) (OtpItem × σ) :=
  match (cfg.table b)[item]? with
  | none => .error (d, .indexWrong)
  | some it =>
    let r := hw.otpReadPermission cfg d b item
    if r.2 ≠ some cfg.readWrite then .error (r.1, .noWritePermission)
    else
      let a := hw.otpActive r.1 b
      if !a.2 then .error (a.1, .fail)
      else if size > it.allocatedSize then .error (⟨none, a.1.hw⟩, .addrOutOfRange)
      else
        let left := checkPass (hw.readOtp b) size buf (it.offset / 4) (it.offset % 4) size a.1.hw
        if left.2 > 0 then .error (⟨none, left.1⟩, .updateNotEqual) else .ok (it, left.1)

def otpUpdate : OtpDrv σ × OtpErr :=
  match hw.updateBegin cfg d b item buf size with
  | .error r => r
  | .ok (it, s) =>
    let w := writePass (hw.readOtp b) (hw.writeOtp b) size buf (it.offset / 4) (it.offset % 4) size s
    -- no `OTP_SLEEP` where a word is read back differently
    if w.2 then (⟨none, w.1⟩, .ok) else (⟨some b, w.1⟩, .updateNotEqual)

def bkOtpApbUpdate : OtpDrv σ × OtpErr := hw.otpUpdate cfg d .apb item buf size

def bkOtpAhbUpdate : OtpDrv σ × OtpErr := hw.otpUpdate cfg d .ahb item buf size

end

def randomNumbers : (size : Nat) → σ → σ × List (BitVec 32)
  | 0, s => (s, [])
  | size + 1, s =>
    let value := hw.readRandomNumber s
    let rest := randomNumbers size value.1
    (rest.1, value.2 :: rest.2)

def bkOtpReadRandomNumber (size : Nat) : OtpDrv σ × Option (List (BitVec 32)) :=
  hw.bracket d .apb (hw.randomNumbers size)

/-! ### The factory test -/

def bkErrOtp (n : Nat) : BitVec 32 := BitVec.ofInt 32 (-0x4500 - n)

structure Flow (σ : Type) where
  hw : σ
  ret : BitVec 32
  failCode : BitVec 32

/-- Parts of the test with the bits of `fail_code` they stand for, up to the first that fails -/
def flowSteps : List (OtpFactoryStep × Nat) → σ → Option (Flow σ)
  | [], s => some ⟨s, 0, 0⟩
  | (part, bit) :: rest, s =>
    match hw.factory part s with
    | none => none
    | some r => if r.2 ≠ 0 then some ⟨r.1, r.2, 1#32 <<< bit⟩ else flowSteps rest r.1

def flowRepair (s : σ) : Option (Flow σ) :=
  (hw.factory .doAutoRepair s).map fun (s, ret) =>
    if ret ≠ 0 then ⟨s, ret, (1#32 <<< 3) ||| (ret <<< 12)⟩ else ⟨s, 0, 0⟩

def flowRetry (part : OtpFactoryStep) (flag : σ → σ × Nat) (bit : Nat) : (retryCount : Nat) → σ → Option (Flow σ)
  | 0, s =>
    let f := flag s
    let again := flag f.1
    some (if again.2 = 0xF then ⟨again.1, 0, 0⟩ else ⟨again.1, bkErrOtp 12, 0⟩)
  | retryCount + 1, s =>
    let f := flag s
    if f.2 = 0xF then
      let again := flag f.1
      some (if again.2 = 0xF then ⟨again.1, 0, 0⟩ else ⟨again.1, bkErrOtp 12, 0⟩)
    else
      match hw.factory part f.1 with
      | none => none
      | some r => if r.2 ≠ 0 then some ⟨r.1, r.2, 1#32 <<< bit⟩ else flowRetry part flag bit retryCount r.1

def flowThen (f : Option (Flow σ)) (next : σ → Option (Flow σ)) : Option (Flow σ) :=
  match f with
  | none => none
  | some f => if f.ret ≠ 0 then some f else next f.hw

def flowTest (s : σ) : Option (Flow σ) :=
  flowThen (hw.flowSteps [(.initPuf, 0), (.checkPufQuality, 1), (.checkPufHealth, 2)] s) fun s =>
  flowThen (hw.flowRepair s) fun s =>
  flowThen (hw.flowRetry .enableShuffleWrite hw.readShfwen 4 10 s) fun s =>
  flowThen (hw.flowRetry .enableShuffleRead hw.readShfren 5 10 s) fun s =>
  hw.flowSteps [(.testPage, 6), (.offMarginRead, 7), (.onMarginRead, 8), (.initialOffCheck, 9),
    (.enableProgramProtect, 10),
    (.enableTestModeLock, 11)] s

def flowCode (f : Flow σ) : BitVec 32 :=
  if f.ret = bkErrOtp 8 then f.failCode ||| 1#32 <<< 16
  else if f.ret = bkErrOtp 10 then f.failCode ||| 1#32 <<< 17
  else if f.ret = bkErrOtp 11 then f.failCode ||| 1#32 <<< 18
  else if f.ret = bkErrOtp 12 then f.failCode ||| 1#32 <<< 19
  else if f.ret = bkErrOtp 13 then f.failCode ||| 1#32 <<< 20
  else f.failCode

def bkOtpFullyFlowTest : Option (OtpDrv σ × BitVec 32) :=
  let a := hw.otpActive d .apb
  if !a.2 then some (a.1, BitVec.ofInt 32 (-1))
  else
    let tmlck := hw.readTmlck a.1.hw
    -- no `OTP_SLEEP` where the test has succeeded before
    if tmlck.2 = 0xF then some (⟨some .apb, tmlck.1⟩, 0)
    else (hw.flowTest tmlck.1).map fun f => (⟨none, f.hw⟩, flowCode f)

end OtpHw

/-! ## Calls -/

inductive OtpCall (σ : Type)
  | readPermission (b : OtpBank) (item : Nat)
  | writePermission (b : OtpBank) (item permission : Nat)
  | readMask (b : OtpBank) (item : Nat)
  | writeMask (b : OtpBank) (item mask : Nat)
  | read (b : OtpBank) (item size : Nat)
  | readByOffset (itemOffset size : Nat)
  | update (b : OtpBank) (item : Nat) (buf : Bytes.Mem) (size : Nat)
  | readRandomNumber (size : Nat)
  | fullyFlowTest
  | hardware (s : σ)

namespace OtpHw
section
variable {σ : Type} (hw : OtpHw σ) (cfg : OtpCfg) (d : OtpDrv σ)

def step : OtpCall σ → Option (OtpDrv σ)
  | .readPermission .apb item => some (hw.bkOtpApbReadPermission cfg d item).1
  | .readPermission .ahb item => some (hw.bkOtpAhbReadPermission cfg d item).1
  | .writePermission .apb item permission => some (hw.bkOtpApbWritePermission cfg d item permission).1
  | .writePermission .ahb item permission => some (hw.bkOtpAhbWritePermission cfg d item permission).1
  | .readMask .apb item => some (hw.bkOtpApbReadMask cfg d item).1
  | .readMask .ahb item => some (hw.bkOtpAhbReadMask cfg d item).1
  | .writeMask .apb item mask => some (hw.bkOtpApbWriteMask cfg d item mask).1
  | .writeMask .ahb item mask => some (hw.bkOtpAhbWriteMask cfg d item mask).1
  | .read .apb item size => some (hw.bkOtpApbRead cfg d item size).1
  | .read .ahb item size => some (hw.bkOtpAhbRead cfg d item size).1
  | .readByOffset itemOffset size => some (hw.bkOtpApbReadByOffset d itemOffset size).1
  | .update .apb item buf size => some (hw.bkOtpApbUpdate cfg d item buf size).1
  | .update .ahb item buf size => some (hw.bkOtpAhbUpdate cfg d item buf size).1
  | .readRandomNumber size => some (hw.bkOtpReadRandomNumber d size).1
  | .fullyFlowTest => (hw.bkOtpFullyFlowTest d).map Prod.fst
  | .hardware s => some { d with hw := s }

/-- The second pass of an update reads a word back differently from how it has written it. -/
def Mismatch (b : OtpBank) (item : Nat) (buf : Bytes.Mem) (size : Nat) : Prop :=
  ∃ it s, hw.updateBegin cfg d b item buf size = .ok (it, s) ∧
    (writePass (hw.readOtp b) (hw.writeOtp b) size buf (it.offset / 4) (it.offset % 4) size s).2 = false

def KeepsMap : OtpCall σ → Prop
  | .update b item buf size => hw.Mismatch cfg d b item buf size
  | .fullyFlowTest => (hw.otpActive d .apb).2 = true ∧ (hw.readTmlck (hw.otpActive d .apb).1.hw).2 = 0xF
  | _ => False

end

section
variable {σ : Type} {hw : OtpHw σ} {cfg : OtpCfg} {d u : OtpDrv σ} {b : OtpBank} {item size : Nat} {buf : Bytes.Mem}

theorem otpActive_taken (h : d.otpMap ≠ none) : hw.otpActive d b = (d, false) := if_neg h

theorem otpActive_free (h : d.otpMap = none) :
    hw.otpActive d b = (⟨if (hw.active d.hw).2 then some b else none, (hw.active d.hw).1⟩, (hw.active d.hw).2) := by
  unfold otpActive
  rw [if_pos h]
  by_cases hon : (hw.active d.hw).2 = true
  · simp only [hon, if_true]
  · simp only [Bool.not_eq_true _ ▸ hon, Bool.false_eq_true, if_false]

theorem otpActive_false (h : (hw.otpActive d b).2 = false) : (hw.otpActive d b).1.otpMap = d.otpMap := by
  by_cases hmap : d.otpMap = none
  · rw [otpActive_free hmap] at h ⊢
    change (hw.active d.hw).2 = false at h
    simp [h, hmap]
  · rw [otpActive_taken hmap]

theorem otpActive_true (h : (hw.otpActive d b).2 = true) : d.otpMap = none := by
  by_contra hmap
  rw [otpActive_taken hmap] at h
  cases h

theorem bracket_otpMap {α : Type} (access : σ → σ × α) : (hw.bracket d b access).1.otpMap = d.otpMap := by
  unfold bracket
  by_cases h : (hw.otpActive d b).2 = true
  · simp only [h, if_true, otpActive_true h]
  · simp only [h]
    exact otpActive_false (Bool.eq_false_iff.2 h)

theorem otpReadPermission_otpMap : (hw.otpReadPermission cfg d b item).1.otpMap = d.otpMap := bracket_otpMap _

theorem otpWriteWords_otpMap (allowed : Bool) (write : Nat → σ → σ) :
    (hw.otpWriteWords cfg d b item allowed write).1.otpMap = d.otpMap := by
  unfold otpWriteWords
  split
  · rfl
  · split
    · rfl
    · exact bracket_otpMap _

theorem otpWriteWords_ok {it : OtpItem} {allowed : Bool} {write : Nat → σ → σ} (hit : (cfg.table b)[item]? = some it)
    (hok : (hw.otpWriteWords cfg d b item allowed write).2 = .common .ok) :
    allowed = true ∧ (hw.otpWriteWords cfg d b item allowed write).1.hw =
      forWords write it.allocatedSize (it.offset / 4) it.allocatedSize (hw.active d.hw).1 := by
  unfold otpWriteWords bracket at hok ⊢
  rw [hit] at hok ⊢
  cases allowed with
  | false => cases hok
  | true =>
    simp only [Bool.not_true, Bool.false_eq_true, if_false] at hok ⊢
    by_cases hon : (hw.otpActive d b).2 = true
    · rw [if_pos hon, otpActive_free (otpActive_true hon)]
      exact ⟨trivial, rfl⟩
    · rw [if_neg hon] at hok
      cases hok

theorem otpRead_otpMap : (hw.otpRead cfg d b item size).1.otpMap = d.otpMap := by
  unfold otpRead
  cases (cfg.table b)[item]? with
  | none => rfl
  | some it =>
    by_cases hperm : (hw.otpReadPermission cfg d b item).2.any (· ≤ otpReadOnly) = true
    · simp only [hperm, if_true]
      exact (bracket_otpMap _).trans otpReadPermission_otpMap
    · simp only [hperm]
      exact otpReadPermission_otpMap

theorem updateBegin_cases (hw : OtpHw σ) (cfg : OtpCfg) (d : OtpDrv σ) (b : OtpBank) (item : Nat) (buf : Bytes.Mem)
    (size : Nat) :
    (∃ r, hw.updateBegin cfg d b item buf size = .error r ∧ r.1.otpMap = d.otpMap) ∨
      ∃ it s₀ s, hw.updateBegin cfg d b item buf size = .ok (it, s) ∧ d.otpMap = none ∧
        checkPass (hw.readOtp b) size buf (it.offset / 4) (it.offset % 4) size s₀ = (s, 0) := by
  have hperm : (hw.otpReadPermission cfg d b item).1.otpMap = d.otpMap := otpReadPermission_otpMap
  unfold updateBegin
  split
  · exact .inl ⟨_, rfl, rfl⟩
  · rename_i it _
    by_cases hrw : (hw.otpReadPermission cfg d b item).2 = some cfg.readWrite
    case neg => exact .inl ⟨_, if_pos hrw, hperm⟩
    simp only [hrw, ne_eq, not_true_eq_false, if_false]
    by_cases hon : (hw.otpActive (hw.otpReadPermission cfg d b item).1 b).2 = true
    case neg =>
      simp only [Bool.not_eq_true _ ▸ hon, Bool.not_false, if_true]
      exact .inl ⟨_, rfl, (otpActive_false (Bool.eq_false_iff.2 hon)).trans hperm⟩
    -- `OTP_ACTIVE` has succeeded, so the pointer was `NULL`, and is again after each `OTP_SLEEP`
    have hfree : d.otpMap = none := hperm ▸ otpActive_true hon
    simp only [hon, Bool.not_true, Bool.false_eq_true, if_false]
    by_cases hsize : size > it.allocatedSize
    · exact .inl ⟨_, if_pos hsize, hfree.symm⟩
    · rw [if_neg hsize]
      split
      · exact .inl ⟨_, rfl, hfree.symm⟩
      · rename_i hleft
        exact .inr ⟨it, _, _, rfl, hfree, Prod.ext rfl (Nat.eq_zero_of_not_pos hleft)⟩

theorem otpUpdate_otpMap (h : ¬hw.Mismatch cfg d b item buf size) :
    (hw.otpUpdate cfg d b item buf size).1.otpMap = d.otpMap := by
  unfold otpUpdate
  rcases updateBegin_cases hw cfg d b item buf size with ⟨r, hr, hmap⟩ | ⟨it, -, s, hs, hfree, -⟩
  · rw [hr]
    exact hmap
  · rw [hs]
    have hback :
        (writePass (hw.readOtp b) (hw.writeOtp b) size buf (it.offset / 4) (it.offset % 4) size s).2 = true := by
      by_contra hw
      exact h ⟨it, s, hs, Bool.eq_false_iff.2 hw⟩
    simp only [hback, if_true, hfree]

theorem otpUpdate_mismatch (h : hw.Mismatch cfg d b item buf size) :
    (hw.otpUpdate cfg d b item buf size).1.otpMap = some b := by
  obtain ⟨it, s, hs, hback⟩ := h
  unfold otpUpdate
  rw [hs]
  simp only [hback, Bool.false_eq_true, if_false]

theorem fullyFlowTest_otpMap (cfg : OtpCfg) {r : OtpDrv σ × BitVec 32} (h : hw.bkOtpFullyFlowTest d = some r) :
    (KeepsMap hw cfg d .fullyFlowTest → r.1.otpMap = some .apb) ∧
      (¬KeepsMap hw cfg d .fullyFlowTest → r.1.otpMap = d.otpMap) := by
  unfold bkOtpFullyFlowTest at h
  by_cases hon : (hw.otpActive d .apb).2 = true
  case neg =>
    simp only [Bool.not_eq_true _ ▸ hon, Bool.not_false, if_true, Option.some.injEq] at h
    subst h
    exact ⟨fun hkeep => absurd hkeep.1 hon, fun _ => otpActive_false (Bool.eq_false_iff.2 hon)⟩
  simp only [hon, Bool.not_true, Bool.false_eq_true, if_false] at h
  by_cases hlck : (hw.readTmlck (hw.otpActive d .apb).1.hw).2 = 0xF
  · rw [if_pos hlck, Option.some.injEq] at h
    subst h
    exact ⟨fun _ => rfl, fun hkeep => absurd ⟨hon, hlck⟩ hkeep⟩
  · rw [if_neg hlck] at h
    obtain ⟨f, -, rfl⟩ := Option.map_eq_some_iff.1 h
    exact ⟨fun hkeep => absurd hkeep.2 hlck, fun _ => (otpActive_true hon).symm⟩

theorem step_otpMap {c : OtpCall σ} (h : hw.step cfg d c = some u) :
    (KeepsMap hw cfg d c → u.otpMap ≠ none) ∧ (¬KeepsMap hw cfg d c → u.otpMap = d.otpMap) := by
  -- a call that never keeps the pointer
  have hgive {r : OtpDrv σ} (hmap : r.otpMap = d.otpMap) (hu : some r = some u) :
      (False → u.otpMap ≠ none) ∧ (¬False → u.otpMap = d.otpMap) := by
    obtain rfl := Option.some.inj hu
    exact ⟨False.elim, fun _ => hmap⟩
  have hupdate {b : OtpBank} {item : Nat} {buf : Bytes.Mem} {size : Nat}
      (hu : some (hw.otpUpdate cfg d b item buf size).1 = some u) :
      (hw.Mismatch cfg d b item buf size → u.otpMap ≠ none) ∧
        (¬hw.Mismatch cfg d b item buf size → u.otpMap = d.otpMap) := by
    obtain rfl := Option.some.inj hu
    refine ⟨fun hmis => ?_, otpUpdate_otpMap⟩
    rw [otpUpdate_mismatch hmis]
    exact Option.some_ne_none b
  match c with
  | .readPermission .apb _ | .readPermission .ahb _ => exact hgive otpReadPermission_otpMap h
  | .writePermission .apb _ _ | .writePermission .ahb _ _ => exact hgive (otpWriteWords_otpMap _ _) h
  | .readMask .apb _ | .readMask .ahb _ => exact hgive (bracket_otpMap _) h
  | .writeMask .apb _ _ | .writeMask .ahb _ _ => exact hgive (otpWriteWords_otpMap _ _) h
  | .read .apb _ _ | .read .ahb _ _ => exact hgive otpRead_otpMap h
  | .readByOffset _ _ => exact hgive (bracket_otpMap _) h
  | .update .apb _ _ _ | .update .ahb _ _ _ => exact hupdate h
  | .readRandomNumber _ => exact hgive (bracket_otpMap _) h
  | .hardware s => exact hgive (r := { d with hw := s }) rfl h
  | .fullyFlowTest =>
    obtain ⟨r, hr, rfl⟩ := Option.map_eq_some_iff.1 h
    have hmap := fullyFlowTest_otpMap cfg hr
    refine ⟨fun hkeep => ?_, hmap.2⟩
    rw [hmap.1 hkeep]
    exact Option.some_ne_none _

end

end OtpHw

/-! ## The memory of `Otp.Update` -/

structure OtpStore where
  mem : OtpBank → Bytes.Mem
  permission : OtpBank → Nat → Nat
  mask : OtpBank → Nat → Nat
  power : List Bool

namespace OtpStore

def turnOn (f : OtpBank → Nat → Nat) (b : OtpBank) (location value : Nat) : OtpBank → Nat → Nat :=
  Function.update f b (Function.update (f b) location (f b location ||| value))

/-- A word keeps what is written to it. The factory test has not been done, and every part of it succeeds. -/
def otpHw : OtpHw OtpStore where
  active s := ({ s with power := s.power.tail }, s.power.headD true)
  readPermission b location s := (s, s.permission b location)
  readMask b location s := (s, s.mask b location)
  writePermission b location value s := { s with permission := turnOn s.permission b location value }
  writeMask b location value s := { s with mask := turnOn s.mask b location value }
  readOtp b location s := (s, (otpReadOtp location (s.mem b)).2)
  writeOtp b location value s := { s with mem := Function.update s.mem b (otpWriteOtp location value (s.mem b)) }
  readRandomNumber s := (s, 0)
  readTmlck s := (s, 0)
  readShfwen s := (s, 0xF)
  readShfren s := (s, 0xF)
  factory _ s := some (s, 0)
  past _ _ := ⟨0, 0⟩

variable {s : OtpStore} {b : OtpBank} {fuel : Nat} {buf : Bytes.Mem} {location start size : Nat}

theorem readOtp_eq : otpHw.readOtp b location s = (s, (otpReadOtp location (s.mem b)).2) := rfl

theorem writeOtp_eq (value : Bytes.Mem) : otpHw.writeOtp b location value s =
    { s with mem := Function.update s.mem b (otpWriteOtp location value (s.mem b)) } := rfl

theorem checkPass_eq :
    checkPass (otpHw.readOtp b) fuel buf location start size s =
      (s, (checkPass otpReadOtp fuel buf location start size (s.mem b)).2) := by
  induction fuel generalizing buf location start size with
  | zero => rfl
  | succ fuel ih =>
    unfold checkPass
    by_cases hz : size = 0
    · rw [if_pos hz, if_pos hz]
    rw [if_neg hz, if_neg hz]
    simp only [readOtp_eq, otpReadOtp_fst, ih]
    rw [apply_ite Prod.snd, apply_ite (Prod.mk s)]

theorem writePass_eq : writePass (otpHw.readOtp b) (otpHw.writeOtp b) fuel buf location start size s =
      ({ s with mem :=
          Function.update s.mem b (writePass otpReadOtp otpWriteOtp fuel buf location start size (s.mem b)).1 },
        (writePass otpReadOtp otpWriteOtp fuel buf location start size (s.mem b)).2) := by
  induction fuel generalizing s buf location start size with
  | zero => simp only [writePass, Function.update_eq_self]
  | succ fuel ih =>
    unfold writePass
    by_cases hz : size = 0
    · simp only [if_pos hz, Function.update_eq_self]
    rw [if_neg hz, if_neg hz]
    simp only [readOtp_eq, writeOtp_eq, otpReadOtp_fst, Function.update_self]
    split
    · rename_i hne
      simp only [hne, if_true]
    · rename_i heq
      simp only [heq, Bool.false_eq_true, if_false, ih, Function.update_self, Function.update_idem]

section
variable {cfg : OtpCfg} {item : Nat} {it : OtpItem}

def ofSys (s : OtpSys) (power : List Bool) : OtpDrv OtpStore := ⟨s.otpMap, s.mem, s.permission, s.mask, power⟩

theorem otpActive_eq (s : OtpSys) (b : OtpBank) (on : Bool) (power : List Bool) :
    ∃ power', otpHw.otpActive (ofSys s (on :: power)) b = (ofSys (s.active b on).1 power', (s.active b on).2) ∧
      ((s.active b on).2 = true → power' = power) := by
  by_cases hmap : s.otpMap = none
  · refine ⟨power, ?_, fun _ => rfl⟩
    rw [OtpHw.otpActive_free hmap]
    unfold OtpSys.active
    rw [if_pos hmap]
    cases on <;> rfl
  · refine ⟨on :: power, ?_, fun hon => ?_⟩
    · rw [OtpHw.otpActive_taken hmap, OtpSys.active_off fun h => hmap h.1]
    · rw [OtpSys.active_off fun h => hmap h.1] at hon
      cases hon

theorem otpReadPermission_eq (s : OtpSys) (on : Bool) (power : List Bool) (hit : (cfg.table b)[item]? = some it) :
    ∃ power', otpHw.otpReadPermission cfg (ofSys s (on :: power)) b item =
        (ofSys (s.readPermission b it on).1 power', (s.readPermission b it on).2) ∧
      ((s.readPermission b it on).2 ≠ none → power' = power) := by
  obtain ⟨power', he, hpower⟩ := otpActive_eq s b on power
  have hitem : otpHw.mapItem cfg b item = it := by
    unfold OtpHw.mapItem
    rw [hit]
    rfl
  unfold OtpHw.otpReadPermission OtpHw.bracket OtpSys.readPermission
  simp only [he, hitem]
  by_cases hon : (s.active b on).2 = true
  · simp only [hon, if_true]
    exact ⟨power', rfl, fun _ => hpower hon⟩
  · simp only [hon]
    exact ⟨power', rfl, fun h => absurd rfl h⟩

theorem otpUpdate_eq (cfg : OtpCfg) (s : OtpSys) (b : OtpBank) (item : Nat) (buf : Bytes.Mem) (size : Nat)
    (on on' : Bool) :
    ∃ power, otpHw.otpUpdate cfg (ofSys s [on, on']) b item buf size =
      (ofSys (Bk7258.otpUpdate cfg s b item buf size on on').1 power,
        (Bk7258.otpUpdate cfg s b item buf size on on').2) := by
  unfold OtpHw.otpUpdate Bk7258.otpUpdate OtpHw.updateBegin
  cases hit : (cfg.table b)[item]? with
  | none => exact ⟨_, rfl⟩
  | some it =>
    obtain ⟨power, he, hpower⟩ := otpReadPermission_eq s on [on'] hit
    simp only [he]
    by_cases hperm : (s.readPermission b it on).2 = some cfg.readWrite
    case neg =>
      simp only [ne_eq, hperm, not_false_eq_true, if_true]
      exact ⟨power, rfl⟩
    obtain rfl : power = [on'] := hpower (hperm ▸ Option.some_ne_none _)
    obtain ⟨power, he, -⟩ := otpActive_eq (s.readPermission b it on).1 b on' []
    simp only [ne_eq, hperm, not_true_eq_false, if_false, he]
    generalize (s.readPermission b it on).1.active b on' = a
    by_cases hon : a.2 = true
    case neg =>
      simp only [hon, Bool.not_false, if_true]
      exact ⟨power, rfl⟩
    simp only [hon, Bool.not_true, Bool.false_eq_true, if_false]
    by_cases hsize : size > it.allocatedSize
    · simp only [hsize, if_true]
      exact ⟨power, rfl⟩
    simp only [hsize, if_false, checkPass_eq, ofSys]
    by_cases hleft : (checkPass otpReadOtp size buf (it.offset / 4) (it.offset % 4) size (a.1.mem b)).2 > 0
    · simp only [hleft, if_true]
      exact ⟨power, rfl⟩
    -- the first pass has found nothing, so that every word will be read back as it is written
    have hw := (checkPass_item ..).1 (Nat.eq_zero_of_not_pos hleft)
    simp only [hleft, if_false, writePass_eq, writePass_item hw, if_true]
    exact ⟨power, rfl⟩

theorem not_keepsMap {d : OtpDrv OtpStore} (c : OtpCall OtpStore) : ¬otpHw.KeepsMap cfg d c := by
  intro h
  cases c with
  | update b item buf size =>
    obtain ⟨it, s, hs, hback⟩ := h
    rcases OtpHw.updateBegin_cases otpHw cfg d b item buf size with ⟨r, hr, -⟩ | ⟨it', s₀, s', hs', -, hcheck⟩
    · rw [hr] at hs
      cases hs
    · rw [hs'] at hs
      cases hs
      rw [checkPass_eq, Prod.mk.injEq] at hcheck
      obtain ⟨rfl, hcheck⟩ := hcheck
      rw [writePass_eq, writePass_item ((checkPass_item ..).1 hcheck)] at hback
      cases hback
  | fullyFlowTest => exact absurd (show (0 : Nat) = 0xF from h.2) (by decide)
  | _ => exact h

end

end OtpStore

/-! ## Runs of the driver -/

theorem otp_map_released {σ : Type} (hw : OtpHw σ) (cfg : OtpCfg) {d t : OtpDrv σ} (hmap : d.otpMap = none)
    (hrun : Run (hw.step cfg) (fun t c => ¬hw.KeepsMap cfg t c) d t) :
    t.otpMap = none ∧ (∀ b, (hw.otpActive t b).2 = (hw.active t.hw).2) ∧
      ∀ c u, hw.step cfg t c = some u → (u.otpMap = none ↔ ¬hw.KeepsMap cfg t c) := by
  have ht : t.otpMap = none := hrun.invariant (I := fun t => t.otpMap = none) hmap
    fun t u c _ ih hok hs => ((OtpHw.step_otpMap hs).2 hok).trans ih
  refine ⟨ht, fun b => by rw [OtpHw.otpActive_free ht], fun c u hs => ?_⟩
  obtain ⟨hkept, hgiven⟩ := OtpHw.step_otpMap hs
  exact ⟨fun hu hkeep => hkept hkeep hu, fun hkeep => (hgiven hkeep).trans ht⟩

theorem otp_map_released_after_failure :
    let cfg : OtpCfg := ⟨fun _ => [⟨4, 0⟩, ⟨4, 4⟩], 0⟩
    let d := OtpStore.ofSys ⟨none, fun _ _ => 0, fun _ _ => 0, fun _ _ => 0⟩ [true, true, false]
    ∃ t, Run (OtpStore.otpHw.step cfg) (fun t c => ¬OtpStore.otpHw.KeepsMap cfg t c) d t ∧ t.hw.mem .apb 3 = 7 ∧
      t.hw.power = [] ∧ t.otpMap = none ∧ (OtpStore.otpHw.otpActive t .ahb).2 = true := by
  intro cfg d
  have hrun : Run (OtpStore.otpHw.step cfg) (fun t c => ¬OtpStore.otpHw.KeepsMap cfg t c) d _ :=
    .tail (l := .read .apb 1 4) (.tail (l := .update .apb 0 (fun _ => 7) 4) .refl (OtpStore.not_keepsMap _) rfl)
      (OtpStore.not_keepsMap _) rfl
  obtain ⟨hmap, hactive, -⟩ := otp_map_released OtpStore.otpHw cfg rfl hrun
  exact ⟨_, hrun, by decide +kernel, by decide +kernel, hmap, (hactive .ahb).trans (by decide +kernel)⟩

def OtpHw.unwritable : OtpHw Unit where
  active _ := ((), true)
  readPermission _ _ _ := ((), 0)
  readMask _ _ _ := ((), 0)
  writePermission _ _ _ _ := ()
  writeMask _ _ _ _ := ()
  readOtp _ _ _ := ((), fun _ => 0)
  writeOtp _ _ _ _ := ()
  readRandomNumber _ := ((), 0)
  readTmlck _ := ((), 0xF)
  readShfwen _ := ((), 0xF)
  readShfren _ := ((), 0xF)
  factory _ _ := some ((), 0)
  past _ _ := ⟨0, 0⟩

/-- After the update of item 0 has failed, item 1 of the other memory cannot be read any more. -/
theorem otp_update_keeps_map :
    let cfg : OtpCfg := ⟨fun _ => [⟨4, 0⟩, ⟨4, 4⟩], 0⟩
    let d := (OtpHw.unwritable.bkOtpApbUpdate cfg ⟨none, ()⟩ 0 (fun _ => 1) 1).1
    (OtpHw.unwritable.bkOtpApbUpdate cfg ⟨none, ()⟩ 0 (fun _ => 1) 1).2 = .updateNotEqual ∧ d.otpMap = some .apb ∧
      (OtpHw.unwritable.bkOtpAhbRead cfg ⟨none, ()⟩ 1 2).2 = .ok [0, 0] ∧
      (OtpHw.unwritable.bkOtpAhbRead cfg d 1 2).2 = .error .noReadPermission ∧
      (OtpHw.unwritable.bkOtpAhbReadPermission cfg d 1).2 = none ∧
      (OtpHw.unwritable.bkOtpFullyFlowTest ⟨none, ()⟩).map (fun r => (r.1.otpMap, r.2)) = some (some .apb, 0) :=
  ⟨rfl, rfl, rfl, rfl, rfl, rfl⟩

end Bk7258

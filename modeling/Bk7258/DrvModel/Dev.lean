import Bk7258.Lib.Lts

/-!
# The legacy driver model: registering, opening and closing a device

`drv_dev_tbl` holds for each device a state, a use count and the driver's callbacks. `ddev_open` counts up also when
there is no device, and `ddev_close` counts down whatever the state is and closes the device when the count comes to 0.
-/

namespace Bk7258
open Function

open Lts

-- `DD_STATE_BREAK` and `DD_STATE_SUCCESS` are set nowhere
inductive DdState
  | nodevice
  | closed
  | opened
deriving DecidableEq

structure DdOperations where
  opOpen : Option (BitVec 32 → BitVec 32)
  opClose : Bool

structure DrvDev where
  useCnt : BitVec 32
  state : DdState
  op : Option DdOperations

abbrev drvSuccess : BitVec 32 := 0
abbrev drvFailure : BitVec 32 := -5
abbrev ddHandleUnvalid : BitVec 32 := -1
abbrev ddHandleMagicWord : BitVec 32 := 0xA5A50000

/-- `DD_MAX_DEV`, the low half of `DD_DEV_TYPE_END`, is a parameter: the device types depend on the configuration. -/
def ddevGetIdFromHandle (maxDev : BitVec 16) (handle : BitVec 32) : Option Nat :=
  let magic := handle &&& 0xFFFF0000#32
  let idx := handle &&& 0x0000FFFF#32
  if magic ≠ ddHandleMagicWord ∨ idx ≥ ddHandleMagicWord + maxDev.setWidth 32 then none else some idx.toNat

def ddevMakeHandle (maxDev : BitVec 16) (idx : Nat) : BitVec 32 :=
  if idx ≥ maxDev.toNat then ddHandleUnvalid else BitVec.ofNat 32 idx + ddHandleMagicWord

def DrvDev.opened (handle : BitVec 32) (d : DrvDev) (opFlag : BitVec 32) : (BitVec 32 × BitVec 32) × DrvDev :=
  match d.state with
  | .opened => ((handle, drvFailure), { d with useCnt := d.useCnt + 1 })
  | .closed =>
    let status := match d.op.bind DdOperations.opOpen with
      | some cb => cb opFlag
      | none => drvFailure
    ((handle, status), { d with state := .opened, useCnt := 0 + 1 })
  -- counted all the same
  | .nodevice => ((ddHandleUnvalid, drvFailure), { d with useCnt := d.useCnt + 1 })

def ddevOpen (maxDev : BitVec 16) (tbl : Nat → DrvDev) (dev status opFlag : BitVec 32) :
    (BitVec 32 × BitVec 32) × (Nat → DrvDev) :=
  match ddevGetIdFromHandle maxDev dev with
  | none => ((drvFailure, status), tbl)
  | some idx =>
    let ret := (tbl idx).opened (ddevMakeHandle maxDev idx) opFlag
    (ret.1, update tbl idx ret.2)

def DrvDev.closed (d : DrvDev) : Bool × DrvDev :=
  -- the state is not asked
  if d.useCnt - 1 = 0 then ((d.op.map DdOperations.opClose).getD false,
    { d with useCnt := d.useCnt - 1, state := .closed })
  else (false, { d with useCnt := d.useCnt - 1 })

def ddevClose (maxDev : BitVec 16) (tbl : Nat → DrvDev) (handle : BitVec 32) : (BitVec 32 × Bool) × (Nat → DrvDev) :=
  match ddevGetIdFromHandle maxDev handle with
  | none => ((drvFailure, false), tbl)
  | some idx => ((drvSuccess, (tbl idx).closed.1), update tbl idx (tbl idx).closed.2)

def ddevRegisterDev (maxDev : BitVec 16) (tbl : Nat → DrvDev) (handle : BitVec 32) (optr : Option DdOperations) :
    BitVec 32 × (Nat → DrvDev) :=
  match optr with
  | none => (drvFailure, tbl)
  | some op =>
    match ddevGetIdFromHandle maxDev handle with
    | none => (drvFailure, tbl)
    | some idx =>
      if (tbl idx).state = .nodevice then
        (drvSuccess, update tbl idx { tbl idx with op := some op, state := .closed })
      else (drvFailure, tbl)

def ddevUnregisterDev (maxDev : BitVec 16) (tbl : Nat → DrvDev) (handle : BitVec 32) : BitVec 32 × (Nat → DrvDev) :=
  match ddevGetIdFromHandle maxDev handle with
  | none => (drvSuccess, tbl)
  | some idx => (drvSuccess, update tbl idx { tbl idx with op := none, state := .nodevice })

/-! ### Runs of calls on the devices of the table -/

inductive DdCall
  | register (optr : Option DdOperations)
  | unregister
  | opens (status opFlag : BitVec 32)
  | close

structure DdSys where
  tbl : Nat → DrvDev
  registered : Nat → Bool
  pending : Nat → Nat

namespace DdSys

def powerUp : DdSys where
  tbl := fun _ => { useCnt := 0, state := .nodevice, op := none }
  registered := fun _ => false
  pending := fun _ => 0

/-- A call on device `idx` by its handle. A registration and its end leave no open pending, an open counts for a
registered device only. -/
def step (maxDev : BitVec 16) (s : DdSys) : Nat × DdCall → Option DdSys
  | (idx, .register optr) =>
    let ret := ddevRegisterDev maxDev s.tbl (ddevMakeHandle maxDev idx) optr
    if ret.1 = drvSuccess then
      some { tbl := ret.2, registered := update s.registered idx true, pending := update s.pending idx 0 }
    else some { s with tbl := ret.2 }
  | (idx, .unregister) =>
    some { tbl := (ddevUnregisterDev maxDev s.tbl (ddevMakeHandle maxDev idx)).2
           registered := update s.registered idx false, pending := update s.pending idx 0 }
  | (idx, .opens status opFlag) =>
    some { s with tbl := (ddevOpen maxDev s.tbl (ddevMakeHandle maxDev idx) status opFlag).2
                  pending := update s.pending idx (if s.registered idx then s.pending idx + 1 else s.pending idx) }
  | (idx, .close) =>
    some { s with tbl := (ddevClose maxDev s.tbl (ddevMakeHandle maxDev idx)).2
                  pending := update s.pending idx (s.pending idx - 1) }

/-- A close that brings the count to 0 finds the device open, and the count of an open device does not wrap. -/
def Matched (maxDev : BitVec 16) (s : DdSys) : Nat × DdCall → Prop
  | (idx, .close) => idx < maxDev.toNat ∧ ((s.tbl idx).useCnt = 1 → (s.tbl idx).state = .opened)
  | (idx, .opens _ _) => idx < maxDev.toNat ∧ ((s.tbl idx).state = .opened → (s.tbl idx).useCnt ≠ -1)
  | (idx, _) => idx < maxDev.toNat

instance (maxDev : BitVec 16) (s : DdSys) : (l : Nat × DdCall) → Decidable (s.Matched maxDev l)
  | (_, .close) => inferInstanceAs (Decidable (_ ∧ _))
  | (_, .opens _ _) => inferInstanceAs (Decidable (_ ∧ _))
  | (_, .register _) => inferInstanceAs (Decidable (_ < _))
  | (_, .unregister) => inferInstanceAs (Decidable (_ < _))

end DdSys

/-! ### Handles -/

section
variable {maxDev : BitVec 16} {idx : Nat} (h : idx < maxDev.toNat)
include h

theorem testBit_idx {i : Nat} (hi : 16 ≤ i) : idx.testBit i = false := by
  refine Nat.testBit_lt_two_pow ?_
  calc idx < 2 ^ 16 := Nat.lt_trans h maxDev.isLt
    _ ≤ 2 ^ i := Nat.pow_le_pow_right (by decide) hi

omit h in
theorem magicWord_low : ∀ i < 16, ddHandleMagicWord.getLsbD i = false := by decide

theorem makeHandle_eq_or : ddevMakeHandle maxDev idx = BitVec.ofNat 32 idx ||| ddHandleMagicWord := by
  unfold ddevMakeHandle
  rw [if_neg (Nat.not_le.2 h)]
  refine BitVec.add_eq_or_of_and_eq_zero _ _ (BitVec.eq_of_getLsbD_eq fun i hi => ?_)
  rw [BitVec.getLsbD_and, BitVec.getLsbD_ofNat]
  by_cases h16 : i < 16
  · rw [magicWord_low i h16]
    simp
  · rw [testBit_idx h (Nat.not_lt.1 h16)]
    simp

theorem getId_makeHandle : ddevGetIdFromHandle maxDev (ddevMakeHandle maxDev idx) = some idx := by
  have hmax := maxDev.isLt
  have hmask : ∀ i < 32, (0xFFFF0000#32).getLsbD i = decide (16 ≤ i) := by decide
  have hmagic : ddevMakeHandle maxDev idx &&& 0xFFFF0000#32 = ddHandleMagicWord := by
    refine BitVec.eq_of_getLsbD_eq fun i hi => ?_
    rw [makeHandle_eq_or h, BitVec.getLsbD_and, BitVec.getLsbD_or, BitVec.getLsbD_ofNat, hmask i hi]
    by_cases h16 : i < 16
    · rw [magicWord_low i h16, decide_eq_false (Nat.not_le.2 h16), Bool.and_false]
    · rw [testBit_idx h (Nat.not_lt.1 h16), decide_eq_true (Nat.not_lt.1 h16)]
      simp
  have hid : ddevMakeHandle maxDev idx &&& 0x0000FFFF#32 = BitVec.ofNat 32 idx := by
    refine BitVec.eq_of_toNat_eq ?_
    unfold ddevMakeHandle
    rw [if_neg (Nat.not_le.2 h), BitVec.toNat_and, BitVec.toNat_add, BitVec.toNat_ofNat]
    have hand := Nat.and_two_pow_sub_one_eq_mod ((idx % 2 ^ 32 + ddHandleMagicWord.toNat) % 2 ^ 32) 16
    have hword : ddHandleMagicWord.toNat = 0xA5A50000 := rfl
    have h16 : (0x0000FFFF#32).toNat = 2 ^ 16 - 1 := rfl
    rw [h16, hand, hword]
    omega
  -- the bound has the magic word in it, so no index reaches it
  have hlt : ¬BitVec.ofNat 32 idx ≥ ddHandleMagicWord + maxDev.setWidth 32 := by
    have hword : ddHandleMagicWord.toNat = 0xA5A50000 := rfl
    rw [ge_iff_le, BitVec.le_def, BitVec.toNat_add, BitVec.toNat_setWidth, BitVec.toNat_ofNat, hword]
    omega
  unfold ddevGetIdFromHandle
  simp only [hmagic, hid, ne_eq, not_true_eq_false, false_or, if_neg hlt, BitVec.toNat_ofNat]
  rw [Nat.mod_eq_of_lt (by omega)]

end

/-! ### One device -/

namespace DdSys

variable {maxDev : BitVec 16} {s t : DdSys}

/-- What is kept of one device: the state says whether it is registered and open, and the count of an open device is the
number of its pending opens. -/
structure DevInv (d : DrvDev) (registered : Bool) (pending : Nat) : Prop where
  nodevice : d.state = .nodevice ↔ registered = false
  opened : d.state = .opened ↔ 0 < pending
  count : d.state = .opened → d.useCnt.toNat = pending

variable {d : DrvDev} {r : Bool} {n : Nat}

theorem DevInv.registered (h : DevInv d r n) (hopen : d.state = .opened) : r = true := by
  rcases Bool.eq_false_or_eq_true r with hr | hr
  · exact hr
  · rw [h.nodevice.2 hr] at hopen
    cases hopen

theorem devInv_open (handle opFlag : BitVec 32) (h : DevInv d r n) (hwrap : d.state = .opened → d.useCnt ≠ -1) :
    DevInv (d.opened handle opFlag).2 r (if r then n + 1 else n) := by
  unfold DrvDev.opened
  cases hd : d.state with
  | nodevice =>
    have hr : r = false := h.nodevice.1 hd
    have hn : ¬0 < n := mt h.opened.2 (by rw [hd]; simp)
    exact ⟨by simp [hr], by simp [hr, Nat.eq_zero_of_not_pos hn], nofun⟩
  | closed =>
    have hr : r = true := by
      rw [← Bool.not_eq_false, ← h.nodevice, hd]
      simp
    have hn : ¬0 < n := mt h.opened.2 (by rw [hd]; simp)
    refine ⟨by simp [hr], by simp [hr], fun _ => ?_⟩
    rw [if_pos hr, Nat.eq_zero_of_not_pos hn]
    rfl
  | opened =>
    have hr : r = true := h.registered hd
    have hcnt := h.count hd
    have hne := hwrap hd
    refine ⟨by simp [hr], by simp [hr], fun _ => ?_⟩
    have hlt : d.useCnt.toNat + 1 < 2 ^ 32 := by
      have hmax := d.useCnt.isLt
      have hval : (-1 : BitVec 32).toNat = 2 ^ 32 - 1 := by decide
      have hneq : d.useCnt.toNat ≠ (-1 : BitVec 32).toNat := fun he => hne (BitVec.eq_of_toNat_eq he)
      omega
    show (d.useCnt + 1).toNat = _
    rw [BitVec.toNat_add, if_pos hr, ← hcnt]
    exact Nat.mod_eq_of_lt hlt

theorem devInv_close (h : DevInv d r n) (hlast : d.useCnt = 1 → d.state = .opened) :
    DevInv d.closed.2 r (n - 1) ∧ (d.closed.1 → r = true ∧ n = 1) := by
  have hzero : d.useCnt - 1 = 0 ↔ d.useCnt = 1 := by
    constructor
    · intro h0
      bv_omega
    · intro h1
      rw [h1]
      rfl
  unfold DrvDev.closed
  by_cases hu : d.useCnt = 1
  · -- the last open is matched: the device was open and is closed now
    have hopen := hlast hu
    have hr := h.registered hopen
    have hn : n = 1 := by
      rw [← h.count hopen, hu]
      rfl
    rw [if_pos (hzero.2 hu)]
    exact ⟨⟨by simp [hr], by simp [hn], nofun⟩, fun _ => ⟨hr, hn⟩⟩
  · rw [if_neg (mt hzero.1 hu)]
    refine ⟨⟨h.nodevice, ?_, fun ho => ?_⟩, fun hran => absurd hran Bool.false_ne_true⟩
    · show d.state = .opened ↔ _
      rw [h.opened]
      constructor
      · intro hpos
        have hcnt := h.count (h.opened.2 hpos)
        have hne : d.useCnt.toNat ≠ 1 := fun he => hu (BitVec.eq_of_toNat_eq he)
        omega
      · omega
    · have hcnt := h.count ho
      have hpos := h.opened.1 ho
      show (d.useCnt - 1).toNat = n - 1
      bv_omega

/-! ### Every device of the table -/

def Inv (s : DdSys) : Prop := ∀ idx, DevInv (s.tbl idx) (s.registered idx) (s.pending idx)

theorem inv_powerUp : Inv powerUp := fun _ => ⟨by simp [powerUp], by simp [powerUp], nofun⟩

theorem Inv.update (h : Inv s) (idx : Nat) (hd : DevInv d r n) :
    Inv { tbl := update s.tbl idx d, registered := update s.registered idx r, pending := update s.pending idx n } := by
  intro j
  by_cases hj : j = idx
  · subst hj
    simpa using hd
  · simpa [hj] using h j

theorem inv_step {l : Nat × DdCall} (h : Inv s) (hok : s.Matched maxDev l) (hs : step maxDev s l = some t) : Inv t := by
  obtain ⟨idx, c⟩ := l
  cases c with
  | register optr =>
    have hid := getId_makeHandle (show idx < maxDev.toNat from hok)
    rcases optr with _ | op
    · cases hs
      exact h
    · simp only [step, ddevRegisterDev, hid] at hs
      by_cases hn : (s.tbl idx).state = .nodevice
      · simp only [if_pos hn, if_true, Option.some.injEq] at hs
        exact hs ▸ h.update idx ⟨by simp, by simp, nofun⟩
      · simp only [if_neg hn] at hs
        cases hs
        exact h
  | unregister =>
    have hid := getId_makeHandle (show idx < maxDev.toNat from hok)
    simp only [step, ddevUnregisterDev, hid, Option.some.injEq] at hs
    exact hs ▸ h.update idx ⟨by simp, by simp, nofun⟩
  | opens status opFlag =>
    have hid := getId_makeHandle hok.1
    simp only [step, ddevOpen, hid, Option.some.injEq] at hs
    have hd := h.update idx (devInv_open (ddevMakeHandle maxDev idx) opFlag (h idx) hok.2)
    rw [update_eq_self] at hd
    exact hs ▸ hd
  | close =>
    have hid := getId_makeHandle hok.1
    simp only [step, ddevClose, hid, Option.some.injEq] at hs
    have hd := h.update idx (devInv_close (h idx) hok.2).1
    rw [update_eq_self] at hd
    exact hs ▸ hd

theorem run_inv (h : Run (step maxDev) (Matched maxDev) powerUp s) : Inv s :=
  h.invariant inv_powerUp fun _ _ _ _ hI hok hs => inv_step hI hok hs

end DdSys

/-- If each close that brings a count to 0 finds its device open: an unregistered device can be registered, and the
close callback runs for the close that matches the last open. -/
theorem ddev_matched_closes (maxDev : BitVec 16) {s : DdSys}
    (hrun : Run (DdSys.step maxDev) (DdSys.Matched maxDev) DdSys.powerUp s) {idx : Nat} (hidx : idx < maxDev.toNat) :
    ((s.tbl idx).state = .nodevice ↔ s.registered idx = false) ∧
    (s.registered idx = false →
      ∀ op, (ddevRegisterDev maxDev s.tbl (ddevMakeHandle maxDev idx) (some op)).1 = drvSuccess) ∧
    (s.Matched maxDev (idx, .close) → (ddevClose maxDev s.tbl (ddevMakeHandle maxDev idx)).1.2 = true →
      (s.tbl idx).state = .opened ∧ s.pending idx = 1) := by
  have h := DdSys.run_inv hrun idx
  have hid := getId_makeHandle hidx
  refine ⟨h.nodevice, ?_, ?_⟩
  · intro hreg op
    simp only [ddevRegisterDev, hid, if_pos (h.nodevice.2 hreg)]
  · intro hok hran
    simp only [ddevClose, hid] at hran
    obtain ⟨-, hn⟩ := (DdSys.devInv_close h hok.2).2 hran
    exact ⟨h.opened.2 (by omega), hn⟩

-- opened twice and closed once: the next close is the one that runs the callback
theorem ddev_matched_closes_run : ∃ s, Run (DdSys.step 4) (DdSys.Matched 4) DdSys.powerUp s ∧
    s.Matched 4 (2, .close) ∧ (ddevClose 4 s.tbl (ddevMakeHandle 4 2)).1.2 = true ∧ s.pending 2 = 1 := by
  refine Run.of_exec_imp (p := fun s => s.Matched 4 (2, .close) ∧ (ddevClose 4 s.tbl (ddevMakeHandle 4 2)).1.2 = true)
    [(2, .register (some ⟨none, true⟩)), (2, .opens 0 0), (2, .opens 0 0), (2, .close)] (by decide) ?_
  rintro s hrun ⟨hok, hran⟩
  exact ⟨hok, hran, ((ddev_matched_closes 4 hrun (by decide)).2.2 hok hran).2⟩

/-- An open before the registration leaves a count that a close brings to 0: the device cannot be registered, or the
close callback of a device that was never open runs. -/
theorem ddev_open_before_register :
    (∃ s, Run (DdSys.step 4) (fun _ l => l.1 < 4) DdSys.powerUp s ∧ s.registered 2 = false ∧
      (s.tbl 2).state = .closed ∧
      (ddevRegisterDev 4 s.tbl (ddevMakeHandle 4 2) (some ⟨none, true⟩)).1 = drvFailure) ∧
    ∃ s, Run (DdSys.step 4) (fun _ l => l.1 < 4) DdSys.powerUp s ∧ (s.tbl 2).state = .closed ∧ s.pending 2 = 0 ∧
      (ddevClose 4 s.tbl (ddevMakeHandle 4 2)).1.2 = true :=
  ⟨Run.of_exec [(2, .opens 0 0), (2, .close)] (by decide),
    Run.of_exec [(2, .opens 0 0), (2, .register (some ⟨none, true⟩))] (by decide)⟩

end Bk7258

import Bk7258.Lib.Bytes

/-!
# Updating an OTP item

`bk_otp_apb_update` and `bk_otp_ahb_update` are the same function for the two OTP memories. A first pass over the words
compares the buffer with what is there, as a bit that is 1 cannot become 0 again; a second pass writes them, each with
its other bytes as they were read. A word is its four bytes here, the first one lowest. The table of the items and
`OTP_READ_WRITE` are arbitrary.
-/

namespace Bk7258

/-- The memory behind the APB bus and the one behind the AHB bus; `otp_map_1` and `otp_map_2` -/
inductive OtpBank
  | apb
  | ahb
deriving DecidableEq, Repr

inductive OtpErr
  | ok
  | fail
  | indexWrong
  | noWritePermission
  | addrOutOfRange
  | updateNotEqual
deriving DecidableEq, Repr

structure OtpItem where
  allocatedSize : Nat
  offset : Nat
deriving DecidableEq, Repr

structure OtpCfg where
  table : OtpBank → List OtpItem
  readWrite : Nat

/-- `otp_map`, the memories, and the permission and the mask of every word -/
structure OtpSys where
  otpMap : Option OtpBank
  mem : OtpBank → Bytes.Mem
  permission : OtpBank → Nat → Nat
  mask : OtpBank → Nat → Nat

namespace OtpSys
variable (s : OtpSys) (b : OtpBank)

/-- `OTP_ACTIVE` with `switch_map`; `on` is whether `otp_active` returns 0. The second value is false when the caller
returns -1. -/
def active (on : Bool) : OtpSys × Bool :=
  if s.otpMap = none then
    if on then ({ s with otpMap := some b }, true) else ({ s with otpMap := none }, false)
  else (s, false)

def sleep : OtpSys := { s with otpMap := none }

/-- `bk_otp_apb_read_permission`, `bk_otp_ahb_read_permission`; `none` is -1. -/
def readPermission (item : OtpItem) (on : Bool) : OtpSys × Option Nat :=
  let r := s.active b on
  if r.2 then
    let location := item.offset / 4
    (r.1.sleep, some (max (r.1.permission b location) (r.1.mask b location)))
  else (r.1, none)

end OtpSys

def otpReadOtp (location : Nat) (mem : Bytes.Mem) : Bytes.Mem × Bytes.Mem := (mem, fun i => mem (4 * location + i))

def otpWriteOtp (location : Nat) (value mem : Bytes.Mem) : Bytes.Mem := fun x =>
  if 4 * location ≤ x ∧ x < 4 * location + 4 then mem x ||| value (x - 4 * location) else mem x

def wordCnt (start size : Nat) : Nat := if size ≥ 4 - start then 4 - start else size

/-- `cmp_result` is not 0: a bit of the word would have to go from 1 to 0. -/
def cmpResult (buf value : Bytes.Mem) (start cmpCnt : Nat) : Bool :=
  (List.range cmpCnt).any fun i => ~~~(buf i) &&& value (start + i) ≠ 0

/-- `check_value != value` -/
def wordNe (checkValue value : Bytes.Mem) : Bool := (List.range 4).any fun i => checkValue i ≠ value i

section
variable {σ : Type} (readOtp : Nat → σ → σ × Bytes.Mem) (writeOtp : Nat → Bytes.Mem → σ → σ)

/-- The first pass, over what `otp_read_otp` reads; what is left of `size` when it ends. Every word takes at least one
byte. -/
def checkPass : (fuel : Nat) → (buf : Bytes.Mem) → (location start size : Nat) → σ → σ × Nat
  | 0, _, _, _, size, s => (s, size)
  | fuel + 1, buf, location, start, size, s =>
    if size = 0 then (s, 0)
    else
      let value := readOtp location s
      let cmpCnt := wordCnt start size
      if cmpResult buf value.2 start cmpCnt then (value.1, size)
      else checkPass fuel (Bytes.drop buf cmpCnt) (location + 1) 0 (size - cmpCnt) value.1

def writePass : (fuel : Nat) → (buf : Bytes.Mem) → (location start size : Nat) → σ → σ × Bool
  | 0, _, _, _, _, s => (s, true)
  | fuel + 1, buf, location, start, size, s =>
    if size = 0 then (s, true)
    else
      let cpyCnt := wordCnt start size
      let old := readOtp location s
      let value := Bytes.put start cpyCnt buf old.2
      let checkValue := readOtp location (writeOtp location value old.1)
      if wordNe checkValue.2 value then (checkValue.1, false)
      else writePass fuel (Bytes.drop buf cpyCnt) (location + 1) 0 (size - cpyCnt) checkValue.1

end

section
variable (cfg : OtpCfg) (s : OtpSys) (b : OtpBank) (item : Nat) (buf : Bytes.Mem) (size : Nat) (on on' : Bool)

/-- The update of an item of `b`; `on` and `on'` are the results of `otp_active` in the check of the permission and in
the update itself. -/
def otpUpdate : OtpSys × OtpErr :=
  match (cfg.table b)[item]? with
  | none => (s, .indexWrong)
  | some it =>
    let r := s.readPermission b it on
    if r.2 ≠ some cfg.readWrite then (r.1, .noWritePermission)
    else
      let a := r.1.active b on'
      if !a.2 then (a.1, .fail)
      else if size > it.allocatedSize then (a.1.sleep, .addrOutOfRange)
      else if (checkPass otpReadOtp size buf (it.offset / 4) (it.offset % 4) size (a.1.mem b)).2 > 0 then
        (a.1.sleep, .updateNotEqual)
      else
        let w := writePass otpReadOtp otpWriteOtp size buf (it.offset / 4) (it.offset % 4) size (a.1.mem b)
        let s := { a.1 with mem := Function.update a.1.mem b w.1 }
        -- `otp_map` is left as it is when a word is read back differently
        if w.2 then (s.sleep, .ok) else (s, .updateNotEqual)

def bkOtpApbUpdate : OtpSys × OtpErr := otpUpdate cfg s .apb item buf size on on'

def bkOtpAhbUpdate : OtpSys × OtpErr := otpUpdate cfg s .ahb item buf size on on'

end

/-! ## The two passes -/

section
variable {mem buf : Bytes.Mem} {location start size : Nat}

theorem wordCnt_eq (start size : Nat) : wordCnt start size = min (4 - start) size := by
  unfold wordCnt
  split <;> omega

def Writable (mem buf : Bytes.Mem) (a n : Nat) : Prop := ∀ i < n, ~~~(buf i) &&& mem (a + i) = 0

theorem writable_add {a n k : Nat} :
    Writable mem buf a (n + k) ↔ Writable mem buf a n ∧ Writable mem (Bytes.drop buf n) (a + n) k := by
  constructor
  · intro h
    refine ⟨fun i hi => h i (by omega), fun i hi => ?_⟩
    rw [Nat.add_assoc]
    exact h (n + i) (by omega)
  · rintro ⟨h₁, h₂⟩ i hi
    by_cases hn : i < n
    · exact h₁ i hn
    · have := h₂ (i - n) (by omega)
      rwa [Bytes.drop, Nat.add_assoc, Nat.add_sub_cancel' (Nat.not_lt.1 hn)] at this

theorem otpReadOtp_fst : (otpReadOtp location mem).1 = mem := rfl

theorem otpReadOtp_snd (i : Nat) : (otpReadOtp location mem).2 i = mem (4 * location + i) := rfl

theorem cmpResult_iff (n : Nat) :
    cmpResult buf (otpReadOtp location mem).2 start n = true ↔ ¬Writable mem buf (4 * location + start) n := by
  simp only [cmpResult, List.any_eq_true, decide_eq_true_eq, List.mem_range]
  simp [otpReadOtp_snd, Writable, Nat.add_assoc]

theorem word_split (location : Nat) (hstart : start < 4) (hz : size ≠ 0) :
    ∃ k < size, size = wordCnt start size + k ∧ start + wordCnt start size ≤ 4 ∧
      (k = 0 ∨ 4 * (location + 1) + 0 = 4 * location + start + wordCnt start size) := by
  have hcnt := wordCnt_eq start size
  exact ⟨size - wordCnt start size, by omega, by omega, by omega, by omega⟩

theorem writable_zero (a : Nat) : Writable mem buf a 0 := fun i hi => absurd hi (Nat.not_lt_zero i)

theorem checkPass_eq_zero {fuel : Nat} (hstart : start < 4) (hfuel : size ≤ fuel) :
    (checkPass otpReadOtp fuel buf location start size mem).2 = 0 ↔ Writable mem buf (4 * location + start) size := by
  induction fuel generalizing buf location start size with
  | zero =>
    obtain rfl := Nat.le_zero.1 hfuel
    exact iff_of_true rfl (writable_zero _)
  | succ fuel ih =>
    rw [checkPass]
    by_cases hz : size = 0
    · rw [if_pos hz, hz]
      exact iff_of_true rfl (writable_zero _)
    obtain ⟨k, hk, hsize, -, hnext⟩ := word_split location hstart hz
    have hsub : size - wordCnt start size = k := by omega
    have hsplit : Writable mem buf (4 * location + start) size ↔
        Writable mem buf (4 * location + start) (wordCnt start size) ∧
          Writable mem (Bytes.drop buf (wordCnt start size)) (4 * location + start + wordCnt start size) k := by
      rw [← writable_add, ← hsize]
    rw [if_neg hz, hsplit]
    simp only [hsub, otpReadOtp_fst]
    by_cases hc : Writable mem buf (4 * location + start) (wordCnt start size)
    · rw [if_neg (mt (cmpResult_iff _).1 (not_not_intro hc)), ih (by decide) (by omega), and_iff_right hc]
      rcases hnext with rfl | hnext
      · exact iff_of_true (writable_zero _) (writable_zero _)
      · rw [hnext]
    · rw [if_pos ((cmpResult_iff _).2 hc)]
      exact iff_of_false hz fun h => hc h.1

theorem or_eq_of_and_eq_zero {x y : UInt8} (h : ~~~y &&& x = 0) : x ||| y = y := by
  have hb : ~~~y.toBitVec &&& x.toBitVec = 0#8 := congrArg UInt8.toBitVec h
  apply UInt8.toBitVec_inj.1
  rw [UInt8.toBitVec_or]
  ext i hi
  have hbit := congrArg (fun z => z.getLsbD i) hb
  simp only [BitVec.getLsbD_and, BitVec.getLsbD_not, BitVec.getLsbD_zero] at hbit
  rw [BitVec.getElem_or, ← BitVec.getLsbD_eq_getElem, ← BitVec.getLsbD_eq_getElem]
  cases hy : y.toBitVec.getLsbD i with
  | true => exact Bool.or_true _
  | false =>
    rw [hy, decide_eq_true hi] at hbit
    rw [Bool.or_false]
    exact hbit

theorem otpWriteOtp_word {n : Nat} (hn : start + n ≤ 4) (hw : Writable mem buf (4 * location + start) n) :
    otpWriteOtp location (Bytes.put start n buf (otpReadOtp location mem).2) mem =
      Bytes.put (4 * location + start) n buf mem := by
  funext x
  unfold otpWriteOtp
  by_cases hx : 4 * location ≤ x ∧ x < 4 * location + 4
  · rw [if_pos hx]
    by_cases hin : 4 * location + start ≤ x ∧ x < 4 * location + start + n
    · rw [Bytes.put_of_mem hin, Bytes.put_of_mem (by omega)]
      have hi := hw (x - (4 * location + start)) (by omega)
      rw [Nat.add_sub_cancel' hin.1] at hi
      rw [Nat.sub_sub]
      exact or_eq_of_and_eq_zero hi
    · rw [Bytes.put_of_notMem hin, Bytes.put_of_notMem (by omega), otpReadOtp_snd, Nat.add_sub_cancel' hx.1,
        UInt8.or_self]
  · rw [if_neg hx, Bytes.put_of_notMem (by omega)]

theorem otpReadOtp_word {n : Nat} (i : Nat) :
    (otpReadOtp location (Bytes.put (4 * location + start) n buf mem)).2 i =
      Bytes.put start n buf (otpReadOtp location mem).2 i := by
  unfold Bytes.put
  simp only [otpReadOtp_snd]
  by_cases h : start ≤ i ∧ i < start + n
  · rw [if_pos h, if_pos (by omega)]
    congr 1
    omega
  · rw [if_neg h, if_neg (by omega)]

theorem writePass_eq {fuel : Nat} (hstart : start < 4) (hfuel : size ≤ fuel)
    (hw : Writable mem buf (4 * location + start) size) :
    writePass otpReadOtp otpWriteOtp fuel buf location start size mem =
      (Bytes.put (4 * location + start) size buf mem, true) := by
  induction fuel generalizing mem buf location start size with
  | zero =>
    rw [Nat.le_zero.1 hfuel, Bytes.put_zero]
    rfl
  | succ fuel ih =>
    rw [writePass]
    by_cases hz : size = 0
    · rw [if_pos hz, hz, Bytes.put_zero]
    obtain ⟨k, hk, hsize, hword, hnext⟩ := word_split location hstart hz
    have hsub : size - wordCnt start size = k := by omega
    have hput : Bytes.put (4 * location + start) size buf mem =
        Bytes.put (4 * location + start) (wordCnt start size + k) buf mem := by rw [← hsize]
    rw [hsize, writable_add] at hw
    -- no bit had to go from 1 to 0, so the word is read back as it was written
    have hback : ¬wordNe (otpReadOtp location (Bytes.put (4 * location + start) (wordCnt start size) buf mem)).2
        (Bytes.put start (wordCnt start size) buf (otpReadOtp location mem).2) = true := by
      simp [wordNe, otpReadOtp_word]
    rw [if_neg hz]
    simp only [hsub, otpReadOtp_fst, otpWriteOtp_word hword hw.1]
    rw [if_neg hback, hput]
    rcases hnext with rfl | hnext
    · rw [ih (by decide) (by omega) (writable_zero _), Bytes.put_zero, Nat.add_zero]
    · rw [ih (by decide) (by omega), hnext, Bytes.put_drop]
      rw [hnext]
      -- the first word is not looked at again
      intro i hi
      rw [Bytes.put_of_notMem (by omega)]
      exact hw.2 i hi

theorem checkPass_item (mem buf : Bytes.Mem) (offset size : Nat) :
    (checkPass otpReadOtp size buf (offset / 4) (offset % 4) size mem).2 = 0 ↔ Writable mem buf offset size := by
  rw [checkPass_eq_zero (Nat.mod_lt offset (by decide)) (Nat.le_refl size), Nat.div_add_mod]

theorem writePass_item {offset : Nat} (hw : Writable mem buf offset size) :
    writePass otpReadOtp otpWriteOtp size buf (offset / 4) (offset % 4) size mem =
      (Bytes.put offset size buf mem, true) := by
  rw [← Nat.div_add_mod offset 4] at hw
  rw [writePass_eq (Nat.mod_lt offset (by decide)) (Nat.le_refl size) hw, Nat.div_add_mod]

end

/-! ## Updates -/

/-- The checks before the write pass -/
def Accepted (cfg : OtpCfg) (s : OtpSys) (b : OtpBank) (it : OtpItem) (buf : Bytes.Mem) (size : Nat)
    (on on' : Bool) : Prop :=
  s.otpMap = none ∧ on = true ∧ on' = true ∧
    max (s.permission b (it.offset / 4)) (s.mask b (it.offset / 4)) = cfg.readWrite ∧
    size ≤ it.allocatedSize ∧ Writable (s.mem b) buf it.offset size

structure UpdateOutcome (cfg : OtpCfg) (s : OtpSys) (b : OtpBank) (item : Nat) (buf : Bytes.Mem) (size : Nat)
    (on on' : Bool)
    (r : OtpSys × OtpErr) : Prop where
  ok_iff : r.2 = .ok ↔ ∃ it, (cfg.table b)[item]? = some it ∧ Accepted cfg s b it buf size on on'
  written : ∀ it, (cfg.table b)[item]? = some it → r.2 = .ok →
    r.1.mem = Function.update s.mem b (Bytes.put it.offset size buf (s.mem b))
  kept : r.2 ≠ .ok → r.1.mem = s.mem

namespace OtpSys
variable {s : OtpSys} {b : OtpBank} {on : Bool}

theorem active_on (hmap : s.otpMap = none) : s.active b true = ({ s with otpMap := some b }, true) := by
  unfold active
  rw [if_pos hmap]
  rfl

theorem active_off (hoff : ¬(s.otpMap = none ∧ on = true)) : s.active b on = (s, false) := by
  unfold active
  by_cases hmap : s.otpMap = none
  · rw [if_pos hmap, if_neg fun hon => hoff ⟨hmap, hon⟩, ← hmap]
  · rw [if_neg hmap]

theorem readPermission_on (it : OtpItem) (hmap : s.otpMap = none) :
    s.readPermission b it true = (s, some (max (s.permission b (it.offset / 4)) (s.mask b (it.offset / 4)))) := by
  unfold readPermission
  simp only [active_on hmap, sleep, if_true]
  rw [← hmap]

theorem readPermission_off (it : OtpItem) (hoff : ¬(s.otpMap = none ∧ on = true)) :
    s.readPermission b it on = (s, none) := by
  unfold readPermission
  rw [active_off hoff]
  rfl

end OtpSys

section
variable {cfg : OtpCfg} {s : OtpSys} {b : OtpBank} {item : Nat} {buf : Bytes.Mem} {size : Nat} {on on' : Bool}

theorem UpdateOutcome.refused {r : OtpSys × OtpErr} (herr : r.2 ≠ .ok) (hmem : r.1.mem = s.mem)
    (hno : ∀ it, (cfg.table b)[item]? = some it → ¬Accepted cfg s b it buf size on on') :
    UpdateOutcome cfg s b item buf size on on' r :=
  ⟨iff_of_false herr fun ⟨it, hit, h⟩ => hno it hit h, fun _ _ hok => absurd hok herr, fun _ => hmem⟩

theorem otpUpdate_outcome : UpdateOutcome cfg s b item buf size on on' (otpUpdate cfg s b item buf size on on') := by
  unfold otpUpdate
  cases hit : (cfg.table b)[item]? with
  | none => exact .refused OtpErr.noConfusion rfl fun it h => by rw [hit] at h; cases h
  | some it =>
    -- a check that fails refuses the item of the table, the only one there is
    have hrefuse {r : OtpSys × OtpErr} (herr : r.2 ≠ .ok) (hmem : r.1.mem = s.mem)
        (hno : ¬Accepted cfg s b it buf size on on') : UpdateOutcome cfg s b item buf size on on' r := by
      refine .refused herr hmem fun it' hit' => ?_
      rw [hit] at hit'
      cases hit'
      exact hno
    by_cases hfree : s.otpMap = none ∧ on = true
    case neg =>
      simp only [OtpSys.readPermission_off it hfree]
      exact hrefuse OtpErr.noConfusion rfl fun h => hfree ⟨h.1, h.2.1⟩
    obtain ⟨hmap, rfl⟩ := hfree
    simp only [OtpSys.readPermission_on it hmap]
    by_cases hmax : max (s.permission b (it.offset / 4)) (s.mask b (it.offset / 4)) = cfg.readWrite
    case neg =>
      rw [if_pos fun h => hmax (Option.some.inj h)]
      exact hrefuse OtpErr.noConfusion rfl fun h => hmax h.2.2.2.1
    rw [if_neg (not_not_intro (congrArg some hmax))]
    by_cases hon : s.otpMap = none ∧ on' = true
    case neg =>
      rw [OtpSys.active_off hon]
      exact hrefuse OtpErr.noConfusion rfl fun h => hon ⟨h.1, h.2.2.1⟩
    obtain ⟨-, rfl⟩ := hon
    simp only [OtpSys.active_on hmap, Bool.not_true, Bool.false_eq_true, if_false]
    by_cases hsize : size ≤ it.allocatedSize
    case neg =>
      rw [if_pos (Nat.not_le.1 hsize)]
      exact hrefuse OtpErr.noConfusion rfl fun h => hsize h.2.2.2.2.1
    rw [if_neg (Nat.not_lt.2 hsize)]
    by_cases hw : Writable (s.mem b) buf it.offset size
    case neg =>
      rw [if_pos (Nat.pos_of_ne_zero (mt (checkPass_item ..).1 hw))]
      exact hrefuse OtpErr.noConfusion rfl fun h => hw h.2.2.2.2.2
    rw [if_neg (Nat.not_lt.2 (Nat.le_of_eq ((checkPass_item ..).2 hw))), writePass_item hw]
    refine ⟨iff_of_true rfl ⟨it, hit, hmap, rfl, rfl, hmax, hsize, hw⟩, fun it' hit' _ => ?_, fun h => absurd rfl h⟩
    rw [hit] at hit'
    cases hit'
    rfl

end

theorem otp_update_exact (cfg : OtpCfg) (s : OtpSys) (item : Nat) (buf : Bytes.Mem) (size : Nat) (on on' : Bool) :
    UpdateOutcome cfg s .apb item buf size on on' (bkOtpApbUpdate cfg s item buf size on on') ∧
    UpdateOutcome cfg s .ahb item buf size on on' (bkOtpAhbUpdate cfg s item buf size on on') :=
  ⟨otpUpdate_outcome, otpUpdate_outcome⟩

-- six bytes over three words, the first of them the last byte of its word
example :
    let s : OtpSys := ⟨none, fun _ x => if x < 3 then 7 else 1, fun _ _ => 0, fun _ _ => 0⟩
    let r := bkOtpAhbUpdate ⟨fun _ => [⟨6, 3⟩], 0⟩ s 0 (fun i => 2 * UInt8.ofNat i + 1) 6 true true
    r.2 = .ok ∧ (List.range 10).map (r.1.mem .ahb) = [7, 7, 7, 1, 3, 5, 7, 9, 11, 1] := by
  decide

end Bk7258

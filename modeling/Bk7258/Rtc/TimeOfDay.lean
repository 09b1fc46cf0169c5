import Mathlib.Algebra.Group.Int.Defs
import Bk7258.Rtc.Counter

/-!
# The time of day

`bk_rtc_settimeofday` keeps the difference between the time it is given and the time since boot, and
`bk_rtc_gettimeofday` adds the time since boot to it, modulo `2 ^ 64`. The conversion of ticks is exact as long as `10 ^
6` times the ticks fit in 64 bits, for each of the three ways it is done. What can still wrap is the sum.
-/

namespace Bk7258

/-- The conversion of a number to the type of `tv_sec`, which the C library defines. A number fits when it is its own
conversion. -/
abbrev TimeT := Int → Int

def timeTInt64 : TimeT := fun x => x.bmod (2 ^ 64)

structure TimeVal where
  tvSec : Int
  tvUsec : Int
deriving DecidableEq, Repr

def TimeVal.us (tv : TimeVal) : Int := tv.tvSec * 1000000 + tv.tvUsec

structure RtcClock where
  bootTimeUs : Int64 := 0
  clockFreq : UInt32 := 32000
  timeBaseUs : UInt64 := 0
  timeBaseTick : UInt64 := 0

def rtcTickToUs (clockFreq : UInt32) (rtcTick : UInt64) : UInt64 :=
  if clockFreq = 32768 then (rtcTick * 125 * 125) >>> 9
  else if clockFreq = 32000 then (rtcTick * 125) >>> 2
  else if clockFreq ≠ 0 then rtcTick * 1000 * 1000 / clockFreq.toUInt64
  else -1

def timeOfUs (timeT : TimeT) (uCurTimeUs : UInt64) : TimeVal :=
  ⟨timeT (uCurTimeUs / 1000000).toNat, (uCurTimeUs % 1000000).toNat⟩

namespace RtcClock

def bkAonRtcGetUs (s : RtcClock) (timeTick : UInt64) : UInt64 :=
  s.timeBaseUs + rtcTickToUs s.clockFreq (timeTick - s.timeBaseTick)

/-- `bk_rtc_gettimeofday` when the counter reads `timeTick`; `tv` says whether the pointer is not null. -/
def bkRtcGettimeofday (timeT : TimeT) (s : RtcClock) (tv : Bool) (timeTick : UInt64) : Option TimeVal :=
  if tv then
    let uCurTimeUs := s.bootTimeUs.toUInt64 + s.bkAonRtcGetUs timeTick
    some (timeOfUs timeT uCurTimeUs)
  else none

def bkRtcSettimeofday (s : RtcClock) (tv : Option TimeVal) (timeTick : UInt64) : RtcClock :=
  match tv with
  | some tv =>
    let setTimeUs := UInt64.ofInt tv.tvSec * 1000000 + UInt64.ofInt tv.tvUsec
    { s with bootTimeUs := (setTimeUs - s.bkAonRtcGetUs timeTick).toInt64 }
  | none => s

end RtcClock

/-! ### Ticks -/

def ticksToUs (clockFreq : UInt32) (ticks : Nat) : Nat := ticks * 1000000 / clockFreq.toNat

theorem ticksToUs_mono (clockFreq : UInt32) {a b : Nat} (h : a ≤ b) : ticksToUs clockFreq a ≤ ticksToUs clockFreq b :=
  Nat.div_le_div_right (Nat.mul_le_mul_right _ h)

theorem toNat_rtcTickToUs {clockFreq : UInt32} {rtcTick : UInt64} (hfreq : clockFreq ≠ 0) (h : rtcTick.toNat < 2 ^ 44) :
    (rtcTickToUs clockFreq rtcTick).toNat = ticksToUs clockFreq rtcTick.toNat := by
  unfold rtcTickToUs ticksToUs
  split
  · -- 125 * 125 / 2 ^ 9 = 10 ^ 6 / 32768
    rename_i hext
    have hshift : UInt64.toNat 9 % 64 = 9 := by decide
    have h125 : UInt64.toNat 125 = 125 := by decide
    have hfreq' : UInt32.toNat 32768 = 32768 := by decide
    rw [hext, hfreq']
    simp only [UInt64.toNat_shiftRight, UInt64.toNat_mul, Nat.shiftRight_eq_div_pow, hshift, h125]
    omega
  split
  · -- 125 / 2 ^ 2 = 10 ^ 6 / 32000
    rename_i hdef
    have hshift : UInt64.toNat 2 % 64 = 2 := by decide
    have h125 : UInt64.toNat 125 = 125 := by decide
    have hfreq' : UInt32.toNat 32000 = 32000 := by decide
    rw [hdef, hfreq']
    simp only [UInt64.toNat_shiftRight, UInt64.toNat_mul, Nat.shiftRight_eq_div_pow, hshift, h125]
    omega
  · have h1000 : UInt64.toNat 1000 = 1000 := by decide
    have hmul : (rtcTick * 1000 * 1000).toNat = rtcTick.toNat * 1000000 := by
      rw [UInt64.toNat_mul, UInt64.toNat_mul, h1000]
      omega
    rw [UInt64.toNat_div, hmul, UInt32.toNat_toUInt64]

/-- Whatever the frequency is: with 0 the conversion is a constant. -/
theorem rtcTickToUs_sub (clockFreq : UInt32) {a b : UInt64} (hab : a.toNat ≤ b.toNat) (hb : b.toNat < 2 ^ 44) :
    (rtcTickToUs clockFreq b).toNat + ticksToUs clockFreq a.toNat =
      (rtcTickToUs clockFreq a).toNat + ticksToUs clockFreq b.toNat := by
  by_cases hfreq : clockFreq = 0
  · subst hfreq
    have hconst : ∀ t, rtcTickToUs 0 t = -1 := fun _ => rfl
    have hzero : ∀ n, ticksToUs 0 n = 0 := fun n => Nat.div_zero _
    rw [hconst, hconst, hzero, hzero]
  · rw [toNat_rtcTickToUs hfreq hb, toNat_rtcTickToUs hfreq (by omega), Nat.add_comm]

theorem ticksToUs_lt {clockFreq : UInt32} {ticks : Nat} (hfreq : clockFreq ≠ 1) (h : ticks < 2 ^ 44) :
    ticksToUs clockFreq ticks < 2 ^ 43 * 1000000 := by
  unfold ticksToUs
  have hne : clockFreq.toNat ≠ 1 := fun h1 => hfreq (UInt32.toNat_inj.1 h1)
  by_cases h0 : clockFreq.toNat = 0
  · rw [h0, Nat.div_zero]
    decide
  · have hle : ticks * 1000000 / clockFreq.toNat ≤ ticks * 1000000 / 2 := Nat.div_le_div_left (by omega) (by decide)
    omega

/-! ### Setting and getting -/

/-- The time when the counter reads `t2`, of which `tv` was the time at `t1` -/
def timeAt (s : RtcClock) (tv : TimeVal) (t1 t2 : UInt64) : Int :=
  tv.us + (ticksToUs s.clockFreq (t2.toNat - s.timeBaseTick.toNat) - ticksToUs s.clockFreq
    (t1.toNat - s.timeBaseTick.toNat))

theorem timeOfUs_us (timeT : TimeT) {us : UInt64} (hfits : timeT (us.toNat / 1000000) = us.toNat / 1000000) :
    0 ≤ (timeOfUs timeT us).tvUsec ∧ (timeOfUs timeT us).tvUsec < 1000000 ∧ (timeOfUs timeT us).us = us.toNat := by
  have h6 : UInt64.toNat 1000000 = 1000000 := by decide
  unfold TimeVal.us timeOfUs
  dsimp only
  rw [UInt64.toNat_div, UInt64.toNat_mod, h6, Int.natCast_ediv]
  change 0 ≤ _ ∧ _ ∧ timeT (us.toNat / 1000000) * 1000000 + _ = _
  rw [hfits]
  omega

theorem toNat_ofInt {x : Int} (h0 : 0 ≤ x) (h : x < 2 ^ 64) : ((UInt64.ofInt x).toNat : Int) = x := by
  have hmod : (UInt64.ofInt x).toNat = (x % 2 ^ 64).toNat % 2 ^ 64 := UInt64.toNat_ofNat'
  omega

section
variable {s : RtcClock} {tv : TimeVal} {t1 t2 : UInt64}

theorem timeAt_lt (hticks : t2.toNat - s.timeBaseTick.toNat < 2 ^ 44) (hsec : tv.tvSec < 2 ^ 40)
    (husec : tv.tvUsec < 1000000) (hfreq : s.clockFreq ≠ 1) : timeAt s tv t1 t2 < 2 ^ 64 := by
  have hus := ticksToUs_lt hfreq hticks
  unfold timeAt TimeVal.us
  omega

theorem setTimeUs_eq (hsec : 0 ≤ tv.tvSec ∧ tv.tvSec < 2 ^ 40) (husec : 0 ≤ tv.tvUsec ∧ tv.tvUsec < 1000000) :
    ((UInt64.ofInt tv.tvSec * 1000000 + UInt64.ofInt tv.tvUsec).toNat : Int) = tv.us := by
  have h6 : UInt64.toNat 1000000 = 1000000 := by decide
  have hs := toNat_ofInt hsec.1 (by omega)
  have hu := toNat_ofInt husec.1 (by omega)
  rw [UInt64.toNat_add, UInt64.toNat_mul, h6]
  unfold TimeVal.us
  omega

theorem toNat_sub_add (set base : UInt64) {us1 us2 : UInt64} {n : Nat} (hn : set.toNat + n < 2 ^ 64)
    (h : us2.toNat = us1.toNat + n) :
    (set - (base + us1) + (base + us2)).toNat = set.toNat + n := by
  have hset := set.toNat_lt
  rw [UInt64.toNat_add, UInt64.toNat_sub, UInt64.toNat_add, UInt64.toNat_add]
  omega

theorem bkAonRtcGetUs_bootTimeUs (s : RtcClock) (bootTimeUs : Int64) (timeTick : UInt64) :
    ({ s with bootTimeUs } : RtcClock).bkAonRtcGetUs timeTick = s.bkAonRtcGetUs timeTick := rfl

theorem bkRtcGettimeofday_settimeofday (timeT : TimeT) (s : RtcClock) (tv : TimeVal) (t1 t2 : UInt64) :
    (s.bkRtcSettimeofday (some tv) t1).bkRtcGettimeofday timeT true t2 =
      some (timeOfUs timeT ((s.bkRtcSettimeofday (some tv) t1).bootTimeUs.toUInt64 + s.bkAonRtcGetUs t2)) := by
  -- only the difference is set; the time since boot is what it was
  have hus : (s.bkRtcSettimeofday (some tv) t1).bkAonRtcGetUs t2 = s.bkAonRtcGetUs t2 := bkAonRtcGetUs_bootTimeUs s _ t2
  rw [RtcClock.bkRtcGettimeofday, if_pos rfl, hus]

theorem curTimeUs_eq (hbase : s.timeBaseTick ≤ t1) (hle : t1 ≤ t2) (hticks : t2.toNat - s.timeBaseTick.toNat < 2 ^ 44)
    (hsec : 0 ≤ tv.tvSec ∧ tv.tvSec < 2 ^ 40) (husec : 0 ≤ tv.tvUsec ∧ tv.tvUsec < 1000000)
    (hlt : timeAt s tv t1 t2 < 2 ^ 64) :
    (((s.bkRtcSettimeofday (some tv) t1).bootTimeUs.toUInt64 + s.bkAonRtcGetUs t2).toNat : Int) =
      timeAt s tv t1 t2 := by
  have hd1 : (t1 - s.timeBaseTick).toNat = t1.toNat - s.timeBaseTick.toNat := UInt64.toNat_sub_of_le _ _ hbase
  have hd2 : (t2 - s.timeBaseTick).toNat = t2.toNat - s.timeBaseTick.toNat :=
    UInt64.toNat_sub_of_le _ _ (UInt64.le_trans hbase hle)
  have hd12 : t1.toNat - s.timeBaseTick.toNat ≤ t2.toNat - s.timeBaseTick.toNat := Nat.sub_le_sub_right hle _
  have hmono := ticksToUs_mono s.clockFreq hd12
  have hus : (rtcTickToUs s.clockFreq (t2 - s.timeBaseTick)).toNat =
    (rtcTickToUs s.clockFreq (t1 - s.timeBaseTick)).toNat +
      (ticksToUs s.clockFreq (t2.toNat - s.timeBaseTick.toNat) - ticksToUs s.clockFreq
        (t1.toNat - s.timeBaseTick.toNat)) := by
    have hsub := rtcTickToUs_sub s.clockFreq (a := t1 - s.timeBaseTick) (b := t2 - s.timeBaseTick) (by omega) (by omega)
    rw [hd1, hd2] at hsub
    omega
  have hset := setTimeUs_eq hsec husec
  unfold timeAt at hlt ⊢
  have hsum := toNat_sub_add (UInt64.ofInt tv.tvSec * 1000000 + UInt64.ofInt tv.tvUsec) s.timeBaseUs (by omega) hus
  change ((UInt64.ofInt tv.tvSec * 1000000 + UInt64.ofInt tv.tvUsec -
    (s.timeBaseUs + rtcTickToUs s.clockFreq (t1 - s.timeBaseTick)) +
    (s.timeBaseUs + rtcTickToUs s.clockFreq (t2 - s.timeBaseTick))).toNat : Int) = _
  rw [hsum]
  omega

end

theorem time_of_day_set (timeT : TimeT) {s : RtcClock} {tv : TimeVal} {t1 t2 : UInt64} (hbase : s.timeBaseTick ≤ t1)
    (hle : t1 ≤ t2) (hticks : t2.toNat - s.timeBaseTick.toNat < 2 ^ 44) (hsec : 0 ≤ tv.tvSec ∧ tv.tvSec < 2 ^ 40)
    (husec : 0 ≤ tv.tvUsec ∧ tv.tvUsec < 1000000)
    (hfits : timeT (timeAt s tv t1 t2 / 1000000) = timeAt s tv t1 t2 / 1000000)
    (hfreq : s.clockFreq ≠ 1 ∨ timeAt s tv t1 t2 < 2 ^ 64) :
    ∃ tv', (s.bkRtcSettimeofday (some tv) t1).bkRtcGettimeofday timeT true t2 = some tv' ∧
      0 ≤ tv'.tvUsec ∧ tv'.tvUsec < 1000000 ∧ tv'.us = timeAt s tv t1 t2 := by
  have hlt : timeAt s tv t1 t2 < 2 ^ 64 := by
    rcases hfreq with hfreq | hlt
    · exact timeAt_lt hticks hsec.2 husec.2 hfreq
    · exact hlt
  have hcur := curTimeUs_eq hbase hle hticks hsec husec hlt
  obtain ⟨hnonneg, husec', hus⟩ := timeOfUs_us timeT (by rw [hcur]; exact hfits)
  exact ⟨_, bkRtcGettimeofday_settimeofday timeT s tv t1 t2, hnonneg, husec', hus.trans hcur⟩

theorem time_of_day_set_back :
    (({ clockFreq := 32768 } : RtcClock).bkRtcSettimeofday (some ⟨1, 0⟩) 98304).bootTimeUs = -2000000 ∧
      ∃ tv', (({ clockFreq := 32768 } : RtcClock).bkRtcSettimeofday (some ⟨1, 0⟩) 98304).bkRtcGettimeofday
        timeTInt64 true
        163840 = some tv' ∧ 0 ≤ tv'.tvUsec ∧ tv'.tvUsec < 1000000 ∧ tv'.us = 3000000 := by
  have hat : timeAt { clockFreq := 32768 } ⟨1, 0⟩ 98304 163840 = 3000000 := by decide +kernel
  rw [← hat]
  exact ⟨by decide +kernel, time_of_day_set timeTInt64 (by decide) (by decide) (by decide +kernel)
    (by decide) (by decide)
    (by rw [hat]; decide +kernel) (.inl (by decide))⟩

/-- At 1 Hz the microseconds since boot and the time that was set do not fit in 64 bits together. -/
theorem time_of_day_wraps :
    timeTInt64 (timeAt { clockFreq := 1 } ⟨0xFFFFFFFFFF, 0⟩ 0 0xFFFFFFFFFFF / 1000000) =
        timeAt { clockFreq := 1 } ⟨0xFFFFFFFFFF, 0⟩ 0 0xFFFFFFFFFFF / 1000000 ∧
      ∃ tv', (({ clockFreq := 1 } : RtcClock).bkRtcSettimeofday (some ⟨0xFFFFFFFFFF, 0⟩) 0).bkRtcGettimeofday
        timeTInt64 true
        0xFFFFFFFFFFF = some tv' ∧ tv'.us ≠ timeAt { clockFreq := 1 } ⟨0xFFFFFFFFFF, 0⟩ 0 0xFFFFFFFFFFF := by
  refine ⟨by decide +kernel, _, rfl, ?_⟩
  decide +kernel

end Bk7258

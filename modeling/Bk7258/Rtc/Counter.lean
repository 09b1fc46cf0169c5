import Mathlib.Algebra.Group.Nat.Defs
import Mathlib.Order.Monotone.Basic

/-!
# The counter of the AON RTC

The counter has 64 bits and is read as two words of 32 while it runs. `aon_rtc_counter_get_tick` reads both words twice
and starts again until the two readings agree.
-/

namespace Bk7258

/-- The ticks there have been at each register read since a call began. The counter never goes back, and it may move on
by any amount between two reads. -/
structure RtcCounter where
  ticks : Nat → Nat
  mono : Monotone ticks

namespace RtcCounter

def value (c : RtcCounter) (k : Nat) : UInt64 := UInt64.ofNat (c.ticks k)

def low (c : RtcCounter) (k : Nat) : UInt32 := (c.value k).toUInt32

def high (c : RtcCounter) (k : Nat) : UInt32 := (c.value k >>> 32).toUInt32

end RtcCounter

def joinWords (valHi val : UInt32) : UInt64 := (valHi.toUInt64 <<< 32) + val.toUInt64

/-- The loop of `aon_rtc_counter_get_tick` when the next read is the `k`-th: the result and the number of reads made.
`none` when `fuel` rounds are not enough. -/
def getTickLoop (c : RtcCounter) : Nat → Nat → Option (UInt64 × Nat)
  | 0, _ => none
  | fuel + 1, k =>
    let val := c.low k
    let valHi := c.high (k + 1)
    -- the high word is not read a second time when the low words differ
    if c.low (k + 2) ≠ val then getTickLoop c fuel (k + 3)
    else if c.high (k + 3) ≠ valHi then getTickLoop c fuel (k + 4)
    else some (joinWords valHi val, k + 4)

def aonRtcCounterGetTick (c : RtcCounter) (fuel : Nat) : Option (UInt64 × Nat) := getTickLoop c fuel 0

/-! ### Words -/

theorem joinWords_split (v : UInt64) : joinWords (v >>> 32).toUInt32 v.toUInt32 = v := by
  have hv := UInt64.toNat_lt v
  have hshift : UInt64.toNat 32 % 64 = 32 := by decide
  apply UInt64.toNat_inj.1
  simp only [joinWords, UInt64.toNat_add, UInt64.toNat_shiftLeft, UInt32.toNat_toUInt64, UInt64.toNat_toUInt32,
    UInt64.toNat_shiftRight, Nat.shiftLeft_eq, Nat.shiftRight_eq_div_pow, hshift]
  omega

namespace RtcCounter

variable {c : RtcCounter} {k l m fuel n : Nat} {v : UInt64}

theorem toNat_low (c : RtcCounter) (k : Nat) : (c.low k).toNat = c.ticks k % 2 ^ 32 := by
  simp only [low, value, UInt64.toNat_toUInt32, UInt64.toNat_ofNat']
  omega

theorem ticks_eq_of_low_eq (hkl : k ≤ l) (hlow : c.low l = c.low k) (hlt : c.ticks l < c.ticks k + 2 ^ 32) :
    c.ticks l = c.ticks k := by
  have hle := c.mono hkl
  have hmod := congrArg UInt32.toNat hlow
  rw [toNat_low, toNat_low] at hmod
  omega

theorem value_eq (h : c.ticks k = c.ticks l) : c.value k = c.value l := by rw [value, value, h]

theorem value_eq_of_still (hkl : k ≤ l) (hlm : l ≤ m) (h : c.ticks k = c.ticks m) : c.value l = c.value k := by
  have hl := c.mono hkl
  have hm := c.mono hlm
  exact value_eq (by omega)

/-! ### The loop -/

theorem getTickLoop_succ (c : RtcCounter) (fuel k : Nat) : getTickLoop c (fuel + 1) k =
    if c.low (k + 2) ≠ c.low k then getTickLoop c fuel (k + 3)
    else if c.high (k + 3) ≠ c.high (k + 1) then getTickLoop c fuel (k + 4)
    else some (joinWords (c.high (k + 1)) (c.low k), k + 4) := rfl

theorem getTickLoop_eq_some : ∀ {fuel k : Nat}, getTickLoop c fuel k = some (v, n) →
    ∃ j, k ≤ j ∧ n = j + 4 ∧ c.low (j + 2) = c.low j ∧ v = joinWords (c.high (j + 1)) (c.low j)
  | 0, _, h => absurd h (Option.some_ne_none _).symm
  | fuel + 1, k, h => by
    rw [getTickLoop_succ] at h
    split at h
    · obtain ⟨j, hj, hrest⟩ := getTickLoop_eq_some h
      exact ⟨j, by omega, hrest⟩
    rename_i hlow
    split at h
    · obtain ⟨j, hj, hrest⟩ := getTickLoop_eq_some h
      exact ⟨j, by omega, hrest⟩
    · cases h
      exact ⟨k, le_rfl, rfl, not_not.1 hlow, rfl⟩

theorem getTickLoop_had (h : getTickLoop c fuel k = some (v, n)) (hlast : c.ticks (n - 1) < c.ticks (n - 4) + 2 ^ 32) :
    ∃ j, k ≤ j ∧ j < n ∧ c.value j = v := by
  obtain ⟨j, hkj, rfl, hlow, rfl⟩ := getTickLoop_eq_some h
  have hlt : c.ticks (j + 2) < c.ticks j + 2 ^ 32 := lt_of_le_of_lt (c.mono (by omega)) hlast
  have hstill := ticks_eq_of_low_eq (by omega) hlow hlt
  -- the high word was read between the two low words
  have hmid : c.value (j + 1) = c.value j := value_eq_of_still (by omega) (by omega) hstill.symm
  refine ⟨j, hkj, by omega, ?_⟩
  rw [high, hmid]
  exact (joinWords_split (c.value j)).symm

theorem getTickLoop_returns (hstill : c.ticks m = c.ticks (m + 6)) : ∀ (fuel k : Nat), k ≤ m + 3 → m + 4 ≤ fuel + k →
    ∃ v n, n ≤ m + 7 ∧ getTickLoop c fuel k = some (v, n)
  | 0, k, hk, hfuel => absurd hfuel (by omega)
  | fuel + 1, k, hk, hfuel => by
    rw [getTickLoop_succ]
    by_cases hkm : k < m
    · split
      · exact getTickLoop_returns hstill fuel (k + 3) (by omega) (by omega)
      split
      · exact getTickLoop_returns hstill fuel (k + 4) (by omega) (by omega)
      · exact ⟨_, _, by omega, rfl⟩
    · have hval : ∀ j, k ≤ j → j ≤ k + 3 → c.value j = c.value m := fun j hj hj' =>
        value_eq_of_still (by omega) (by omega) hstill
      have hlow : ¬c.low (k + 2) ≠ c.low k := by
        rw [low, low, hval (k + 2) (by omega) (by omega), hval k (by omega) (by omega)]
        exact not_not.2 rfl
      have hhigh : ¬c.high (k + 3) ≠ c.high (k + 1) := by
        rw [high, high, hval (k + 3) (by omega) (by omega), hval (k + 1) (by omega) (by omega)]
        exact not_not.2 rfl
      rw [if_neg hlow, if_neg hhigh]
      exact ⟨_, _, by omega, rfl⟩

end RtcCounter

/-- When less than `2 ^ 32` ticks pass during its last four reads, a call returns a value the counter had during it; it
ends when the counter stands still for seven reads. -/
theorem rtc_counter_had (c : RtcCounter) :
    (∀ fuel v n, aonRtcCounterGetTick c fuel = some (v, n) → c.ticks (n - 1) < c.ticks (n - 4) + 2 ^ 32 →
      ∃ k < n, c.value k = v) ∧
    ∀ m, c.ticks m = c.ticks (m + 6) → ∃ v n, n ≤ m + 7 ∧ aonRtcCounterGetTick c (m + 4) = some (v, n) := by
  refine ⟨?_, fun m hm => RtcCounter.getTickLoop_returns hm (m + 4) 0 (by omega) le_rfl⟩
  intro fuel v n h hlast
  obtain ⟨k, -, hk, hv⟩ := RtcCounter.getTickLoop_had h hlast
  exact ⟨k, hk, hv⟩

def carryCounter : RtcCounter where
  ticks k := if k = 0 then 2 ^ 32 - 1 else 2 ^ 32
  mono := by
    intro a b hab
    dsimp only
    split <;> split <;> omega

theorem rtc_counter_had_carry :
    aonRtcCounterGetTick carryCounter 2 = some (0x100000000, 7) ∧ ∃ k < 7, carryCounter.value k = 0x100000000 := by
  have hrun : aonRtcCounterGetTick carryCounter 2 = some (0x100000000, 7) := by decide +kernel
  exact ⟨hrun, (rtc_counter_had carryCounter).1 2 _ _ hrun (by decide)⟩

end Bk7258

import Mathlib.Algebra.Ring.Nat
import Mathlib.Tactic.SplitIfs

/-!
# The delay timer and the elapsed time

`NiosII_Processor_TIMER_DELAY_32bit` counts down freely and reloads one value
below its largest word, so its period is `2 ^ 32 - 1` and not a power of two.
`GetTimeElapsed_us` subtracts two of its readings and divides by a number of
ticks that is meant to be a microsecond.
-/

namespace DDSFunctionGen.Firmware

/-- `TIMER_DELAY_32BIT_FREQ`, in ticks per second -/
def timerFrequency : Nat := 100000000

/-- `2500000000ULL / _TIMER_FREQUENCY`, meant to be the ticks of a microsecond -/
def ticksPerMicrosecond : BitVec 64 := 2500000000 / BitVec.ofNat 64 timerFrequency

/-- `_TIMER_MAX_VALUE` -/
def timerMaxValue : BitVec 32 := 0xFFFFFFFF

/-- `counter_load_value`: the period registers are never written. -/
def counterLoadValue : BitVec 32 := 0xFFFFFFFE

/-- The counter of the timer, at its value after reset. -/
structure DelayTimer where
  internalCounter : BitVec 32 := counterLoadValue
  loaded : internalCounter ≤ counterLoadValue := by decide

namespace DelayTimer

/-- The number of ticks after which the counter repeats. -/
def period : Nat := 2 ^ 32 - 1

theorem internalCounter_lt (timer : DelayTimer) : timer.internalCounter.toNat < period := by
  have loaded := BitVec.le_def.mp timer.loaded
  have value : counterLoadValue.toNat = 2 ^ 32 - 2 := rfl
  unfold period
  omega

/-- `internal_counter` after one clock of the running timer. -/
def nextCounter (internalCounter : BitVec 32) : BitVec 32 :=
  if internalCounter = 0 then counterLoadValue else internalCounter - 1

theorem toNat_nextCounter (timer : DelayTimer) :
    (nextCounter timer.internalCounter).toNat =
      if timer.internalCounter.toNat = 0 then period - 1 else timer.internalCounter.toNat - 1 := by
  have bound := timer.internalCounter_lt
  rw [nextCounter]
  by_cases zero : timer.internalCounter = 0
  · rw [if_pos zero, zero]
    rfl
  · have positive : timer.internalCounter.toNat ≠ 0 :=
      fun value => zero (BitVec.eq_of_toNat_eq value)
    have one : (1 : BitVec 32).toNat = 1 := rfl
    unfold period at bound
    rw [if_neg zero, if_neg positive, BitVec.toNat_sub, one]
    omega

/-- One clock of the timer. -/
def tick (timer : DelayTimer) : DelayTimer where
  internalCounter := nextCounter timer.internalCounter
  loaded := by
    have bound := timer.internalCounter_lt
    rw [BitVec.le_def, toNat_nextCounter]
    have value : counterLoadValue.toNat = 2 ^ 32 - 2 := rfl
    unfold period at *
    split_ifs
    · omega
    · omega

/-- The timer a number of ticks later. -/
def after (timer : DelayTimer) : Nat → DelayTimer
  | 0 => timer
  | ticks + 1 => (timer.after ticks).tick

theorem after_add (timer : DelayTimer) (first second : Nat) :
    timer.after (first + second) = (timer.after first).after second := by
  induction second with
  | zero => rfl
  | succ second inductionHypothesis =>
      rw [← Nat.add_assoc, after, inductionHypothesis, after]

/-- Counting down and the ticks gone by make up the start, period by period. -/
theorem internalCounter_after (timer : DelayTimer) (ticks : Nat) :
    ((timer.after ticks).internalCounter.toNat + ticks) % period =
      timer.internalCounter.toNat := by
  induction ticks with
  | zero => exact Nat.mod_eq_of_lt timer.internalCounter_lt
  | succ ticks inductionHypothesis =>
      rw [after, tick, toNat_nextCounter]
      unfold period at *
      split_ifs
      · omega
      · omega

/-- `readTimer_us`: the two halves of a snapshot of the counter. -/
def readTimerUs (timer : DelayTimer) : BitVec 32 :=
  let snapshot := timer.internalCounter
  (snapshot.extractLsb' 16 16).setWidth 32 <<< 16 ||| (snapshot.extractLsb' 0 16).setWidth 32

theorem readTimerUs_eq (timer : DelayTimer) : timer.readTimerUs = timer.internalCounter := by
  unfold readTimerUs
  ext bit below
  by_cases low : bit < 16
  · simp [low, BitVec.getLsbD_eq_getElem below]
  · have high : bit - 16 < 16 := by omega
    simp [low, high, Nat.add_sub_cancel' (Nat.not_lt.mp low), BitVec.getLsbD_eq_getElem below]

end DelayTimer

/-- `elapsedClockCycles` of `GetTimeElapsed_us`. -/
def elapsedClockCycles (startTime timerSnap : BitVec 32) : BitVec 32 :=
  if timerSnap < startTime then startTime - timerSnap
  else (timerMaxValue - timerSnap) + startTime

/-- `GetTimeElapsed_us`, with the reading it takes; the division is one of 64 bits. -/
def getTimeElapsedUs (startTime timerSnap : BitVec 32) : BitVec 32 :=
  ((elapsedClockCycles startTime timerSnap).setWidth 64 / ticksPerMicrosecond).setWidth 32

namespace DelayTimer

/-- The subtraction is right across the reload; no ticks at all are taken for
a whole period. -/
theorem toNat_elapsedClockCycles (timer : DelayTimer) {ticks : Nat} (within : ticks < period) :
    (elapsedClockCycles timer.readTimerUs (timer.after ticks).readTimerUs).toNat =
      if ticks = 0 then period else ticks := by
  have counted := timer.internalCounter_after ticks
  have bound := timer.internalCounter_lt
  have boundAfter := (timer.after ticks).internalCounter_lt
  have largest : timerMaxValue.toNat = 2 ^ 32 - 1 := rfl
  rw [readTimerUs_eq, readTimerUs_eq, elapsedClockCycles]
  unfold period at *
  simp only [BitVec.lt_def]
  split_ifs with later none none
  · omega
  · rw [BitVec.toNat_sub]
    omega
  · rw [BitVec.toNat_add, BitVec.toNat_sub, largest]
    omega
  · rw [BitVec.toNat_add, BitVec.toNat_sub, largest]
    omega

theorem toNat_getTimeElapsedUs (timer : DelayTimer) {ticks : Nat} (within : ticks < period) :
    (getTimeElapsedUs timer.readTimerUs (timer.after ticks).readTimerUs).toNat =
      (if ticks = 0 then period else ticks) / 25 := by
  have divisor : ticksPerMicrosecond.toNat = 25 := rfl
  rw [getTimeElapsedUs, BitVec.toNat_setWidth, BitVec.toNat_udiv, BitVec.toNat_setWidth,
    toNat_elapsedClockCycles timer within, divisor]
  unfold period at *
  split_ifs
  · rfl
  · omega

/-- The elapsed time is right only while it is less than a quarter of a
microsecond, but not for two readings at the same tick: the divisor is a quarter
of the ticks of a microsecond. -/
theorem getTimeElapsedUs_exact_iff (timer : DelayTimer) {ticks : Nat}
    (within : ticks < 2 ^ 32 - 1) :
    (getTimeElapsedUs timer.readTimerUs (timer.after ticks).readTimerUs).toNat =
        ticks * 1000000 / timerFrequency ↔
      1 ≤ ticks ∧ ticks < 25 := by
  rw [toNat_getTimeElapsedUs timer within]
  unfold period timerFrequency
  split_ifs
  · omega
  · omega

/-- Twenty-four ticks after a reading of five, across the reload. -/
theorem getTimeElapsedUs_exact_across_reload :
    (getTimeElapsedUs (readTimerUs { internalCounter := 5 })
        ((after { internalCounter := 5 } 24).readTimerUs)).toNat =
      24 * 1000000 / timerFrequency :=
  (getTimeElapsedUs_exact_iff { internalCounter := 5 } (by decide)).mpr (by decide)

/-- One microsecond reads as four, and no time at all as almost three minutes. -/
theorem getTimeElapsedUs_differs :
    (getTimeElapsedUs (readTimerUs { internalCounter := 1000 })
        ((after { internalCounter := 1000 } 100).readTimerUs)).toNat = 4 ∧
      100 * 1000000 / timerFrequency = 1 ∧
      (getTimeElapsedUs (readTimerUs { internalCounter := 1000 })
        ((after { internalCounter := 1000 } 0).readTimerUs)).toNat = 171798691 ∧
      0 * 1000000 / timerFrequency = 0 :=
  ⟨toNat_getTimeElapsedUs _ (by decide), rfl, toNat_getTimeElapsedUs _ (by decide), rfl⟩

end DelayTimer
end DDSFunctionGen.Firmware

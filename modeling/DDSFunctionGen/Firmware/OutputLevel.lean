import Mathlib.Analysis.SpecialFunctions.Log.Base
import Mathlib.Analysis.SpecialFunctions.Pow.NNReal

/-!
# The output level programmed for an amplitude setting

`ComputeAmplitude` turns an amplitude in millivolts into dBm over 50 Ohm and
from there into the duty of a 12-bit PWM. C floats are read as real numbers, so
the conversion to `uint16_t` is partial: C leaves it undefined when the
truncated value is not representable.
-/

namespace DDSFunctionGen.Firmware.OutputLevel

/-- `_MIN_AMPLITUDE`, in millivolts. -/
def minAmplitude : ℝ := 70

/-- `_MAX_AMPLITUDE`, in millivolts. -/
def maxAmplitude : ℝ := 8500

/-- The amplitudes the user interface accepts. -/
def Accepted (amplitude : ℝ) : Prop := minAmplitude ≤ amplitude ∧ amplitude ≤ maxAmplitude

/-- The voltage `ComputeAmplitude` assumes at the load. -/
noncomputable def voltage (amplitude : ℝ) (impedance50Ohm : Bool) : ℝ :=
  if impedance50Ohm then amplitude / 1000 else amplitude / 1000 / 2

/-- The level of a voltage over 50 Ohm in dBm. -/
noncomputable def dBm (voltage : ℝ) : ℝ := 20 * Real.logb 10 (voltage / √0.05)

/-- The number `ComputeAmplitude` converts to `uint16_t`. -/
noncomputable def amplitudeLevel (amplitude : ℝ) (impedance50Ohm : Bool) : ℝ :=
  (dBm (voltage amplitude impedance50Ohm) + 14.06) * 85

open Classical in
/-- C's conversion to `uint16_t`: truncation toward zero, undefined outside the
type's range. -/
noncomputable def toUint16 (value : ℝ) : Option Nat :=
  if -1 < value ∧ value < 65536 then some ⌊value⌋₊ else none

/-- `ComputeAmplitude`. -/
noncomputable def computeAmplitude (amplitude : ℝ) (impedance50Ohm : Bool) : Option Nat :=
  toUint16 (amplitudeLevel amplitude impedance50Ohm)

/-- The duty that reaches `pwm_DDS0_Amplitude` through its 12-bit wire. -/
noncomputable def pwmDuty (amplitude : ℝ) (impedance50Ohm : Bool) : Option (BitVec 12) :=
  (computeAmplitude amplitude impedance50Ohm).map (BitVec.ofNat 12)

/-- The converted number lies in the PWM's range. -/
def LevelInRange (amplitude : ℝ) (impedance50Ohm : Bool) : Prop :=
  0 ≤ amplitudeLevel amplitude impedance50Ohm ∧ amplitudeLevel amplitude impedance50Ohm ≤ 4095

/-- Two settings are in range, reach the PWM untruncated, and keep their order. -/
structure LevelsOrdered (low high : ℝ) (impedance50Ohm : Bool) : Prop where
  lowInRange : LevelInRange low impedance50Ohm
  highInRange : LevelInRange high impedance50Ohm
  duties : ∃ lowDuty highDuty,
    pwmDuty low impedance50Ohm = some lowDuty ∧ pwmDuty high impedance50Ohm = some highDuty ∧
      lowDuty.toNat = ⌊amplitudeLevel low impedance50Ohm⌋₊ ∧
      highDuty.toNat = ⌊amplitudeLevel high impedance50Ohm⌋₊ ∧ lowDuty ≤ highDuty

/-- The amplitude below which the high-impedance level is negative, about
88.6 mV. -/
noncomputable def openLoadMinimum : ℝ := 2000 * √0.05 * 10 ^ (-0.703 : ℝ)

theorem Accepted.pos {amplitude : ℝ} (accepted : Accepted amplitude) : 0 < amplitude := by
  have lower := accepted.1
  unfold minAmplitude at lower
  linarith

theorem voltage_pos {amplitude : ℝ} (positive : 0 < amplitude) (impedance50Ohm : Bool) :
    0 < voltage amplitude impedance50Ohm := by
  unfold voltage
  split <;> positivity

theorem voltage_mono {low high : ℝ} (ordered : low ≤ high) (impedance50Ohm : Bool) :
    voltage low impedance50Ohm ≤ voltage high impedance50Ohm := by
  unfold voltage
  split <;> linarith

/-- The square root disappears when the level is read as a power ratio. -/
theorem dBm_eq_power {voltage : ℝ} : dBm voltage = 10 * Real.logb 10 (voltage ^ 2 / 0.05) := by
  have square : voltage ^ 2 / 0.05 = (voltage / √0.05) ^ 2 := by
    rw [div_pow, Real.sq_sqrt (by norm_num)]
  rw [square, Real.logb_pow, dBm]
  push_cast
  ring

/-- The level grows with the amplitude. -/
theorem amplitudeLevel_mono {low high : ℝ} (positive : 0 < low) (ordered : low ≤ high)
    (impedance50Ohm : Bool) :
    amplitudeLevel low impedance50Ohm ≤ amplitudeLevel high impedance50Ohm := by
  have lowPositive := voltage_pos positive impedance50Ohm
  have voltages := voltage_mono ordered impedance50Ohm
  have levels : Real.logb 10 (voltage low impedance50Ohm / √0.05) ≤
      Real.logb 10 (voltage high impedance50Ohm / √0.05) :=
    Real.logb_le_logb_of_le (by norm_num) (by positivity) (by gcongr)
  unfold amplitudeLevel dBm
  linarith

/-- An upper bound on a decimal logarithm from an integer power. -/
theorem mul_logb_le {value : ℝ} (positive : 0 < value) (root : ℕ) (exponent : ℤ)
    (bound : value ^ root ≤ (10 : ℝ) ^ exponent) : root * Real.logb 10 value ≤ exponent := by
  have logs := Real.logb_le_logb_of_le (b := 10) (by norm_num) (pow_pos positive root) bound
  rwa [Real.logb_pow, ← Real.rpow_intCast, Real.logb_rpow (by norm_num) (by norm_num)] at logs

/-- A lower bound on a decimal logarithm from an integer power. -/
theorem le_mul_logb {value : ℝ} (root : ℕ) (exponent : ℤ)
    (bound : (10 : ℝ) ^ exponent ≤ value ^ root) : exponent ≤ root * Real.logb 10 value := by
  have logs := Real.logb_le_logb_of_le (b := 10) (by norm_num) (by positivity) bound
  rwa [Real.logb_pow, ← Real.rpow_intCast, Real.logb_rpow (by norm_num) (by norm_num)] at logs

/-- The largest setting stays below full scale, whatever the load. -/
theorem amplitudeLevel_le {amplitude : ℝ} (accepted : Accepted amplitude)
    (impedance50Ohm : Bool) : amplitudeLevel amplitude impedance50Ohm ≤ 4095 := by
  have positive := voltage_pos accepted.pos impedance50Ohm
  have upper : voltage amplitude impedance50Ohm ≤ 8.5 := by
    have amplitudeUpper := accepted.2
    have amplitudePositive := accepted.pos
    unfold maxAmplitude at amplitudeUpper
    unfold voltage
    split <;> linarith
  have power : voltage amplitude impedance50Ohm ^ 2 / 0.05 ≤ 1445 := by
    rw [div_le_iff₀ (by norm_num)]
    nlinarith
  have logs : ((4 : ℕ) : ℝ) * Real.logb 10 (voltage amplitude impedance50Ohm ^ 2 / 0.05) ≤
      ((13 : ℤ) : ℝ) := by
    refine mul_logb_le (by positivity) 4 13 (le_trans (pow_le_pow_left₀ (by positivity) power 4) ?_)
    norm_num
  push_cast at logs
  rw [amplitudeLevel, dBm_eq_power]
  linarith

/-- Into 50 Ohm the smallest setting already has a positive level. -/
theorem amplitudeLevel_nonneg_of_50Ohm {amplitude : ℝ} (accepted : Accepted amplitude) :
    0 ≤ amplitudeLevel amplitude true := by
  have lower : 0.07 ≤ voltage amplitude true := by
    have amplitudeLower := accepted.1
    unfold minAmplitude at amplitudeLower
    simp only [voltage, if_true]
    linarith
  have power : 0.098 ≤ voltage amplitude true ^ 2 / 0.05 := by
    rw [le_div_iff₀ (by norm_num)]
    nlinarith
  have logs : ((-5 : ℤ) : ℝ) ≤
      ((4 : ℕ) : ℝ) * Real.logb 10 (voltage amplitude true ^ 2 / 0.05) := by
    refine le_mul_logb 4 (-5) (le_trans ?_ (pow_le_pow_left₀ (by norm_num) power 4))
    norm_num
  push_cast at logs
  rw [amplitudeLevel, dBm_eq_power]
  linarith

/-- Into a high impedance the level is non-negative exactly from
`openLoadMinimum` on. -/
theorem amplitudeLevel_nonneg_iff_of_1MOhm {amplitude : ℝ} (positive : 0 < amplitude) :
    0 ≤ amplitudeLevel amplitude false ↔ openLoadMinimum ≤ amplitude := by
  have root : 0 < √(0.05 : ℝ) := Real.sqrt_pos.mpr (by norm_num)
  have ratioPositive : 0 < voltage amplitude false / √0.05 :=
    div_pos (voltage_pos positive false) root
  calc 0 ≤ amplitudeLevel amplitude false
      ↔ -0.703 ≤ Real.logb 10 (voltage amplitude false / √0.05) := by
        unfold amplitudeLevel dBm
        constructor <;> intro <;> linarith
    _ ↔ (10 : ℝ) ^ (-0.703 : ℝ) ≤ voltage amplitude false / √0.05 :=
        Real.le_logb_iff_rpow_le (by norm_num) ratioPositive
    _ ↔ (10 : ℝ) ^ (-0.703 : ℝ) * √0.05 ≤ amplitude / 1000 / 2 := by
        rw [le_div_iff₀ root]
        rfl
    _ ↔ openLoadMinimum ≤ amplitude := by
        unfold openLoadMinimum
        constructor <;> intro <;> linarith

/-- Where the code meets the range: always into 50 Ohm, and from
`openLoadMinimum` on into a high impedance. -/
theorem levelInRange_iff {amplitude : ℝ} (accepted : Accepted amplitude)
    (impedance50Ohm : Bool) :
    LevelInRange amplitude impedance50Ohm ↔
      impedance50Ohm = true ∨ openLoadMinimum ≤ amplitude := by
  have upper := amplitudeLevel_le accepted impedance50Ohm
  cases impedance50Ohm with
  | true => simp [LevelInRange, upper, amplitudeLevel_nonneg_of_50Ohm accepted]
  | false =>
      simp [LevelInRange, upper, amplitudeLevel_nonneg_iff_of_1MOhm accepted.pos]

/-- A level in range passes both conversions untruncated. -/
theorem pwmDuty_of_inRange {amplitude : ℝ} {impedance50Ohm : Bool}
    (inRange : LevelInRange amplitude impedance50Ohm) :
    ∃ duty, pwmDuty amplitude impedance50Ohm = some duty ∧
      duty.toNat = ⌊amplitudeLevel amplitude impedance50Ohm⌋₊ := by
  obtain ⟨lower, upper⟩ := inRange
  have defined : -1 < amplitudeLevel amplitude impedance50Ohm ∧
      amplitudeLevel amplitude impedance50Ohm < 65536 := by constructor <;> linarith
  have small : ⌊amplitudeLevel amplitude impedance50Ohm⌋₊ < 2 ^ 12 := by
    rw [Nat.floor_lt lower]
    push_cast
    linarith
  refine ⟨BitVec.ofNat 12 ⌊amplitudeLevel amplitude impedance50Ohm⌋₊, ?_, ?_⟩
  · rw [pwmDuty, computeAmplitude, toUint16, if_pos defined]
    rfl
  · rw [BitVec.toNat_ofNat, Nat.mod_eq_of_lt small]

/-- Two accepted settings are both in range, and their duties ordered, exactly
when the load is 50 Ohm or the smaller one reaches `openLoadMinimum`. -/
theorem amplitude_levels_ordered_iff (low high : ℝ) (impedance50Ohm : Bool)
    (lowAccepted : Accepted low) (highAccepted : Accepted high) (ordered : low ≤ high) :
    LevelsOrdered low high impedance50Ohm ↔
      impedance50Ohm = true ∨ openLoadMinimum ≤ low := by
  constructor
  · intro levels
    exact (levelInRange_iff lowAccepted impedance50Ohm).mp levels.lowInRange
  · intro condition
    have lowInRange := (levelInRange_iff lowAccepted impedance50Ohm).mpr condition
    have highInRange := (levelInRange_iff highAccepted impedance50Ohm).mpr
      (condition.imp_right fun reached => le_trans reached ordered)
    obtain ⟨lowDuty, lowEq, lowValue⟩ := pwmDuty_of_inRange lowInRange
    obtain ⟨highDuty, highEq, highValue⟩ := pwmDuty_of_inRange highInRange
    refine ⟨lowInRange, highInRange, lowDuty, highDuty, lowEq, highEq, lowValue, highValue, ?_⟩
    rw [BitVec.le_def, lowValue, highValue]
    exact Nat.floor_mono (amplitudeLevel_mono lowAccepted.pos ordered impedance50Ohm)

/-- 500 mV and 1 V into 50 Ohm keep their order. -/
theorem amplitude_levels_ordered_at_defaults :
    LevelsOrdered 500 1000 true ↔ true = true ∨ openLoadMinimum ≤ 500 :=
  amplitude_levels_ordered_iff 500 1000 true
    (by norm_num [Accepted, minAmplitude, maxAmplitude])
    (by norm_num [Accepted, minAmplitude, maxAmplitude]) (by norm_num)

/-- The smallest accepted amplitude has a level below `-1` into a high
impedance, so its conversion is undefined. -/
theorem minimum_amplitude_level_negative :
    Accepted 70 ∧ amplitudeLevel 70 false < 0 ∧ computeAmplitude 70 false = none := by
  have logs : ((2 : ℕ) : ℝ) * Real.logb 10 (voltage 70 false ^ 2 / 0.05) ≤ ((-3 : ℤ) : ℝ) := by
    refine mul_logb_le ?_ 2 (-3) ?_ <;> norm_num [voltage]
  have level : amplitudeLevel 70 false ≤ -1 := by
    push_cast at logs
    rw [amplitudeLevel, dBm_eq_power]
    linarith
  refine ⟨by norm_num [Accepted, minAmplitude, maxAmplitude], by linarith, ?_⟩
  rw [computeAmplitude, toUint16, if_neg]
  intro defined
  linarith [defined.1]

end DDSFunctionGen.Firmware.OutputLevel

import DDSFunctionGen.Fpga.FrequencyModulator
import DDSFunctionGen.Menu.SweepCompute
import Mathlib.Tactic.Linarith
import Mathlib.Tactic.Ring

/-!
# A sweep in the modulator

A sweep is a frequency modulation around the middle of its range. The firmware
converts the middle and the deviation to phase steps, rounding each down, and the
modulator combines them. C floats are read as exact rationals here.
-/

namespace DDSFunctionGen.Firmware

open DDSFunctionGen.Fpga DDSFunctionGen.Menu

/-- `ComputePhaseStep`, with the phase step of 1 Hz as a factor. -/
def computePhaseStep {F : Type} [CFloat F] (factor : F) (editableValue : EditableValue F) :
    BitVec 32 :=
  BitVec.ofInt 32 (CFloat.toInt (editableValue.floatValue * factor))

/-- The phase step that the modulator makes of a sweep at a sample. -/
def sweptPhaseStep {F : Type} [CFloat F] (factor : F) (sweep : SweepVariables F)
    (dds : DDSVariables F) (sample : FixedPoint) : BitVec 32 :=
  let swept := MenuState.sweptVariables sweep dds
  FMModulator.modulatedPhaseStep (computePhaseStep factor swept.frequency)
    (computePhaseStep factor swept.fmFrequencyDeviation) sample

/-- The phase step of a frequency, where it fits a signed word. -/
theorem toInt_computePhaseStep {factor : ℚ} {editableValue : EditableValue ℚ}
    (nonneg : 0 ≤ editableValue.floatValue * factor)
    (fits : editableValue.floatValue * factor < 2 ^ 31) :
    (computePhaseStep factor editableValue).toInt = ⌊editableValue.floatValue * factor⌋ := by
  have lower : 0 ≤ ⌊editableValue.floatValue * factor⌋ := Int.floor_nonneg.mpr nonneg
  have upper : ⌊editableValue.floatValue * factor⌋ < 2 ^ 31 := by
    rw [Int.floor_lt]
    exact_mod_cast fits
  rw [computePhaseStep, toInt_eq_floor nonneg, BitVec.toInt_ofInt]
  exact Arithmetic.bmod_of_fits (by unfold Arithmetic.Fits; omega)

/-- The middle and the deviation of a sweep, as phase steps, stay between the
steps of its end points. -/
theorem steps_between (start deviation : ℚ) :
    ⌊start⌋ ≤ ⌊start + deviation⌋ - ⌊deviation⌋ ∧
      ⌊start + deviation⌋ + ⌊deviation⌋ ≤ ⌊start + deviation + deviation⌋ := by
  have below := Int.le_floor_add start deviation
  have above := Int.le_floor_add (start + deviation) deviation
  omega

section Swept

variable (factor : ℚ) (sweep : SweepVariables ℚ) (dds : DDSVariables ℚ)

/-- The deviation of a sweep, in phase steps. -/
def sweptDeviation : ℚ :=
  (MenuState.sweptVariables sweep dds).fmFrequencyDeviation.floatValue * factor

theorem sweptDeviation_eq :
    sweptDeviation factor sweep dds =
      (sweep.stopFrequency.floatValue - sweep.startFrequency.floatValue) / 2 * factor := by
  have half : (MenuState.sweptVariables sweep dds).fmFrequencyDeviation.floatValue =
      (sweep.stopFrequency.floatValue - sweep.startFrequency.floatValue) / (2 : ℤ) := rfl
  rw [sweptDeviation, half]
  norm_cast

/-- The middle of a sweep is a deviation above its start. -/
theorem swept_middle :
    (MenuState.sweptVariables sweep dds).frequency.floatValue * factor =
      sweep.startFrequency.floatValue * factor + sweptDeviation factor sweep dds := by
  rw [sweptDeviation, ← add_mul]
  rfl

/-- The end of a sweep is a deviation above its middle. -/
theorem swept_end :
    sweep.startFrequency.floatValue * factor + sweptDeviation factor sweep dds +
      sweptDeviation factor sweep dds = sweep.stopFrequency.floatValue * factor := by
  rw [sweptDeviation_eq]
  ring

variable {factor sweep}

/-- A rising sweep has no negative deviation. -/
theorem sweptDeviation_nonneg (positive : 0 < factor)
    (rises : sweep.startFrequency.floatValue ≤ sweep.stopFrequency.floatValue) :
    0 ≤ sweptDeviation factor sweep dds := by
  rw [sweptDeviation_eq]
  exact mul_nonneg (by linarith) positive.le

/-- The phase step of the middle, where the whole sweep fits a signed word. -/
theorem toInt_middleStep (deviation : 0 ≤ sweptDeviation factor sweep dds)
    (first : 0 ≤ sweep.startFrequency.floatValue * factor)
    (last : sweep.stopFrequency.floatValue * factor < 2 ^ 31) :
    (computePhaseStep factor (MenuState.sweptVariables sweep dds).frequency).toInt =
      ⌊sweep.startFrequency.floatValue * factor + sweptDeviation factor sweep dds⌋ := by
  have center := swept_middle factor sweep dds
  have stop := swept_end factor sweep dds
  rw [toInt_computePhaseStep, center]
  · rw [center]
    linarith
  · rw [center]
    linarith

/-- The phase step of the deviation, where the whole sweep fits a signed word. -/
theorem toInt_deviationStep (deviation : 0 ≤ sweptDeviation factor sweep dds)
    (first : 0 ≤ sweep.startFrequency.floatValue * factor)
    (last : sweep.stopFrequency.floatValue * factor < 2 ^ 31) :
    (computePhaseStep factor (MenuState.sweptVariables sweep dds).fmFrequencyDeviation).toInt =
      ⌊sweptDeviation factor sweep dds⌋ := by
  have stop := swept_end factor sweep dds
  apply toInt_computePhaseStep
  · exact deviation
  · change sweptDeviation factor sweep dds < 2 ^ 31
    linarith

end Swept

/-- The modulator keeps a sweep between the phase steps of its start and stop
frequencies, without wrapping. -/
theorem sweep_stays_between {factor : ℚ} {sweep : SweepVariables ℚ} (dds : DDSVariables ℚ)
    (sample : FixedPoint) (positive : 0 < factor) (small : factor * 20000000 < 2 ^ 31)
    (starts : 0 ≤ sweep.startFrequency.floatValue)
    (rises : sweep.startFrequency.floatValue ≤ sweep.stopFrequency.floatValue)
    (stops : sweep.stopFrequency.floatValue ≤ 20000000) :
    let swept := MenuState.sweptVariables sweep dds
    let step := (sweptPhaseStep factor sweep dds sample).toNat
    (step : Int) = FMModulator.exactPhaseStep ⌊swept.frequency.floatValue * factor⌋
        ⌊swept.fmFrequencyDeviation.floatValue * factor⌋ sample.toInt ∧
      ⌊sweep.startFrequency.floatValue * factor⌋ ≤ step ∧
      step ≤ ⌊sweep.stopFrequency.floatValue * factor⌋ := by
  intro swept step
  have deviation := sweptDeviation_nonneg dds positive rises
  have first : 0 ≤ sweep.startFrequency.floatValue * factor := mul_nonneg starts positive.le
  have last : sweep.stopFrequency.floatValue * factor < 2 ^ 31 := by
    have ordered := mul_le_mul_of_nonneg_right stops positive.le
    linarith
  have centerStep : (computePhaseStep factor swept.frequency).toInt = _ :=
    toInt_middleStep dds deviation first last
  have deviationStep : (computePhaseStep factor swept.fmFrequencyDeviation).toInt = _ :=
    toInt_deviationStep dds deviation first last
  have between := steps_between (sweep.startFrequency.floatValue * factor)
    (sweptDeviation factor sweep dds)
  rw [swept_end factor sweep dds, ← centerStep, ← deviationStep] at between
  have lowest : 0 ≤ ⌊sweep.startFrequency.floatValue * factor⌋ := Int.floor_nonneg.mpr first
  have highest : ⌊sweep.stopFrequency.floatValue * factor⌋ < 2 ^ 31 := by
    rw [Int.floor_lt]
    exact_mod_cast last
  have deviationNonneg : 0 ≤ (computePhaseStep factor swept.fmFrequencyDeviation).toInt := by
    rw [deviationStep]
    exact Int.floor_nonneg.mpr deviation
  have lower : (computePhaseStep factor swept.fmFrequencyDeviation).toInt ≤
      (computePhaseStep factor swept.frequency).toInt := by omega
  have upper : (computePhaseStep factor swept.frequency).toInt +
      (computePhaseStep factor swept.fmFrequencyDeviation).toInt < 2 ^ 31 := by omega
  have modulated := FMModulator.modulatedPhaseStep_bounds sample deviationNonneg lower upper
  have isCenter : ⌊swept.frequency.floatValue * factor⌋ =
      (computePhaseStep factor swept.frequency).toInt := by
    rw [centerStep, ← swept_middle factor sweep dds]
  have isDeviation : ⌊swept.fmFrequencyDeviation.floatValue * factor⌋ =
      (computePhaseStep factor swept.fmFrequencyDeviation).toInt := deviationStep.symm
  rw [isCenter, isDeviation]
  have same : (step : Int) = _ := modulated.1
  refine ⟨same, ?_, ?_⟩
  · rw [same]
    omega
  · rw [same]
    omega

/-- The default sweep, from 1 kHz to 10 kHz, at the factor of a clock of 200 MHz and
the lowest sample. -/
theorem sweep_stays_between_default :
    let swept := MenuState.sweptVariables (sweepDefaults : SweepVariables ℚ) ddsDefaults
    let factor : ℚ := 4294967296 / 200000000
    let step := (sweptPhaseStep factor sweepDefaults ddsDefaults (BitVec.intMin 16)).toNat
    (step : Int) = FMModulator.exactPhaseStep ⌊swept.frequency.floatValue * factor⌋
        ⌊swept.fmFrequencyDeviation.floatValue * factor⌋ (BitVec.intMin 16).toInt ∧
      ⌊(1000 : ℚ) * factor⌋ ≤ step ∧ step ≤ ⌊(10000 : ℚ) * factor⌋ :=
  sweep_stays_between ddsDefaults (BitVec.intMin 16) (by norm_num) (by norm_num)
    (by decide +kernel) (by decide +kernel) (by decide +kernel)

end DDSFunctionGen.Firmware

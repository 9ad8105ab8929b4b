import DDSFunctionGen.Fpga.Modulator

/-!
# Frequency modulation

`DDS_FM_Modulator` shifts the phase step of the carrier by the deviation, scaled
by the modulation signal. The product is evaluated in 64-bit signed arithmetic
and assigned to a wire of 32 bits.
-/

namespace DDSFunctionGen.Fpga

open DDSFunctionGen.Arithmetic AMModulator

namespace FMModulator

/-- The wire `frequencyDelta`. -/
def frequencyDelta (modulationDeviationPhase : BitVec 32) (modulationAmplitude : FixedPoint) :
    BitVec 32 :=
  ((modulationDeviationPhase.signExtend 64 * modulationAmplitude.signExtend 64).sdiv
    fixedPointConstant).setWidth 32

/-- The output `o_ModulatedPhaseStep`; the modulation signal is the word the
modulator's own wave generator reads from the FM lookup RAM. -/
def modulatedPhaseStep (modulationCenterPhaseStep modulationDeviationPhase : BitVec 32)
    (ramData : FixedPoint) : BitVec 32 :=
  modulationCenterPhaseStep + frequencyDelta modulationDeviationPhase (WaveGenerator.wave ramData)

/-- The same shift computed in unbounded integers. -/
def exactPhaseStep (center deviation modulation : Int) : Int :=
  center + (deviation * modulation).tdiv 32768

theorem toInt_extended_phase (word : BitVec 32) : (word.signExtend 64).toInt = word.toInt :=
  BitVec.toInt_signExtend_of_le (by decide)

/-- The product of a phase word and a sample fits the 64-bit context. -/
theorem fits_phase_product (deviation : BitVec 32) (modulation : FixedPoint) :
    Fits 64 (deviation.toInt * modulation.toInt) := by
  have deviationRange := fits_toInt deviation
  have modulationRange := sample_range modulation
  unfold Fits at deviationRange
  refine fits_of_natAbs_le (2 ^ 31 * 32768) ?_ (by decide)
  rw [Int.natAbs_mul]
  exact Nat.mul_le_mul (by omega) (by omega)

/-- The delta is at most the deviation, either way. -/
theorem delta_bounds {deviation : Int} (nonneg : 0 ≤ deviation) (modulation : FixedPoint) :
    -deviation ≤ (deviation * modulation.toInt).tdiv 32768 ∧
      (deviation * modulation.toInt).tdiv 32768 ≤ deviation := by
  have range := sample_range modulation
  have bound : ((deviation * modulation.toInt).tdiv 32768).natAbs ≤ deviation.natAbs :=
    natAbs_tdiv_mul_le (by decide) (by omega)
  omega

/-- The wire does not wrap for a non-negative deviation. -/
theorem frequencyDelta_exact {deviation : BitVec 32} (nonneg : 0 ≤ deviation.toInt)
    (modulation : FixedPoint) :
    (frequencyDelta deviation modulation).toInt =
      (deviation.toInt * modulation.toInt).tdiv 32768 := by
  have bounds := delta_bounds nonneg modulation
  have range := fits_toInt deviation
  unfold Fits at range
  have product : (deviation.signExtend 64 * modulation.signExtend 64).toInt =
      deviation.toInt * modulation.toInt := by
    rw [toInt_mul_of_fits, toInt_extended_phase, toInt_extended]
    rw [toInt_extended_phase, toInt_extended]
    exact fits_phase_product deviation modulation
  rw [frequencyDelta, toInt_scaled (by decide), product, bmod_of_fits]
  unfold Fits
  omega

/-- Where the centre plus and minus the deviation is a positive phase step, the
output is the exact one and lies between the two. -/
theorem modulatedPhaseStep_bounds {center deviation : BitVec 32} (ramData : FixedPoint)
    (nonneg : 0 ≤ deviation.toInt) (lower : deviation.toInt ≤ center.toInt)
    (upper : center.toInt + deviation.toInt < 2 ^ 31) :
    ((modulatedPhaseStep center deviation ramData).toNat : Int) =
        exactPhaseStep center.toInt deviation.toInt ramData.toInt ∧
      center.toInt - deviation.toInt ≤ exactPhaseStep center.toInt deviation.toInt ramData.toInt ∧
      exactPhaseStep center.toInt deviation.toInt ramData.toInt ≤
        center.toInt + deviation.toInt := by
  have delta := frequencyDelta_exact nonneg (WaveGenerator.wave ramData)
  have bounds := delta_bounds nonneg (WaveGenerator.wave ramData)
  have sum : (modulatedPhaseStep center deviation ramData).toInt =
      exactPhaseStep center.toInt deviation.toInt ramData.toInt := by
    rw [modulatedPhaseStep, toInt_add_of_fits, delta]
    · rfl
    · rw [delta]
      unfold Fits
      omega
  have exact : exactPhaseStep center.toInt deviation.toInt ramData.toInt =
      center.toInt + (deviation.toInt * (WaveGenerator.wave ramData).toInt).tdiv 32768 := rfl
  refine ⟨?_, by omega, by omega⟩
  rw [← sum]
  rw [BitVec.toInt_eq_toNat_cond] at sum ⊢
  split_ifs at sum ⊢ with small
  · rfl
  · omega

end FMModulator
end DDSFunctionGen.Fpga

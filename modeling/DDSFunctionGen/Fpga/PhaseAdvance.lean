import DDSFunctionGen.Arithmetic.Accumulator
import DDSFunctionGen.Fpga.FrequencyModulator

/-!
# The carrier phase under frequency modulation

`DDS_Core` feeds the output of `DDS_FM_Modulator` to the phase register of the
carrier. The truncating division makes the shift an odd function of the sample,
so modulation whose samples cancel leaves the carrier where it would have been.
-/

namespace DDSFunctionGen.Fpga

open DDSFunctionGen.Arithmetic AMModulator

namespace FMModulator

/-- No intermediate value of the modulator leaves its word, and the output is the
exact phase step reduced to the width of its port. -/
structure StepsExactly (center deviation : BitVec 32) (modulation : FixedPoint) : Prop where
  product : Fits 64 (deviation.toInt * modulation.toInt)
  quotient : Fits 64 ((deviation.toInt * modulation.toInt).tdiv 32768)
  delta : (frequencyDelta deviation modulation).toInt =
    (deviation.toInt * modulation.toInt).tdiv 32768
  bounded : ((deviation.toInt * modulation.toInt).tdiv 32768).natAbs ≤ deviation.toNat
  output : ((modulatedPhaseStep center deviation modulation).toNat : Int) =
    (center.toNat + (deviation.toInt * modulation.toInt).tdiv 32768) % 2 ^ 32

/-- The output is congruent to the centre plus the exact shift. -/
theorem modulatedPhaseStep_modEq {deviation : BitVec 32} (nonneg : 0 ≤ deviation.toInt)
    (center : BitVec 32) (modulation : FixedPoint) :
    ((modulatedPhaseStep center deviation modulation).toNat : Int) ≡
      center.toNat + (deviation.toInt * modulation.toInt).tdiv 32768 [ZMOD 2 ^ 32] := by
  refine toNat_add_modEq (Int.ModEq.refl _) ?_
  have reading := toNat_modEq_toInt (frequencyDelta deviation (WaveGenerator.wave modulation))
  rwa [frequencyDelta_exact nonneg] at reading

/-- The modulator steps exactly at every non-negative deviation. -/
theorem stepsExactly {deviation : BitVec 32} (nonneg : 0 ≤ deviation.toInt)
    (center : BitVec 32) (modulation : FixedPoint) :
    StepsExactly center deviation modulation := by
  have bounds := delta_bounds nonneg modulation
  have range := fits_toInt deviation
  have unsigned : deviation.toInt = deviation.toNat := by
    rw [BitVec.toInt_eq_toNat_cond] at nonneg ⊢
    split_ifs at nonneg ⊢
    · rfl
    · omega
  unfold Fits at range
  refine ⟨fits_phase_product deviation modulation, ?_, frequencyDelta_exact nonneg modulation,
    by omega, ?_⟩
  · unfold Fits
    omega
  · have reading := modulatedPhaseStep_modEq nonneg center modulation
    rw [← reading, Int.emod_eq_of_lt (by omega)]
    exact_mod_cast (modulatedPhaseStep center deviation modulation).isLt

/-- The phase register of the carrier after the clock edges at which the
modulator reads the given samples, reset held low. -/
def carrierPhase (center deviation : BitVec 32) (samples : List FixedPoint)
    (phaseRegister : BitVec 32) : BitVec 32 :=
  samples.foldl
    (fun phaseRegister sample =>
      PhaseReg.clock false phaseRegister (modulatedPhaseStep center deviation sample))
    phaseRegister

/-- The register accumulates the modulated steps. -/
theorem carrierPhase_eq_accumulate (center deviation : BitVec 32) (samples : List FixedPoint)
    (phaseRegister : BitVec 32) :
    carrierPhase center deviation samples phaseRegister =
      accumulate phaseRegister (samples.map (modulatedPhaseStep center deviation)) := by
  rw [accumulate, List.foldl_map]
  rfl

/-- The register advances by the centre at every sample and by the sum of the
exact shifts. -/
theorem carrierPhase_modEq {deviation : BitVec 32} (nonneg : 0 ≤ deviation.toInt)
    (center : BitVec 32) (samples : List FixedPoint) (phaseRegister : BitVec 32) :
    ((carrierPhase center deviation samples phaseRegister).toNat : Int) ≡
      phaseRegister.toNat + (samples.length * center.toNat +
        ((samples.map BitVec.toInt).map fun sample =>
          (deviation.toInt * sample).tdiv 32768).sum) [ZMOD 2 ^ 32] := by
  have advanced := accumulate_modEq (modulatedPhaseStep center deviation)
    (fun sample => center.toNat + (deviation.toInt * sample.toInt).tdiv 32768)
    (modulatedPhaseStep_modEq nonneg center) samples phaseRegister
  rw [← carrierPhase_eq_accumulate, List.sum_map_add] at advanced
  simpa [List.map_map, Function.comp_def] using advanced

/-- Truncating division makes the shift an odd function of the sample. -/
theorem shift_odd (deviation sample : Int) :
    (deviation * -sample).tdiv 32768 = -(deviation * sample).tdiv 32768 := by
  rw [Int.mul_neg, Int.neg_tdiv]

/-- Every step is exact, and samples that cancel add no drift to the carrier. -/
theorem carrier_keeps_center_frequency (center deviation : BitVec 32)
    (nonneg : 0 ≤ deviation.toInt) :
    (∀ modulation, StepsExactly center deviation modulation) ∧
      ∀ samples : List FixedPoint, Balanced (samples.map BitVec.toInt) →
        ∀ phaseRegister : BitVec 32,
          (carrierPhase center deviation samples phaseRegister).toNat =
            (phaseRegister.toNat + samples.length * center.toNat) % 2 ^ 32 := by
  refine ⟨stepsExactly nonneg center, fun samples balanced phaseRegister => ?_⟩
  have advanced := carrierPhase_modEq nonneg center samples phaseRegister
  rw [balanced.sum_odd (shift_odd deviation.toInt), Int.add_zero] at advanced
  have inside := (carrierPhase center deviation samples phaseRegister).isLt
  have counted : (carrierPhase center deviation samples phaseRegister).toNat ≡
      phaseRegister.toNat + samples.length * center.toNat [MOD 2 ^ 32] := by
    rw [← Int.natCast_modEq_iff]
    exact_mod_cast advanced
  rw [← counted, Nat.mod_eq_of_lt inside]

/-- Three samples around a centre of one step per clock. -/
theorem carrier_keeps_center_frequency_three_samples :
    (∀ modulation, StepsExactly 1 1000 modulation) ∧
      (carrierPhase 1 1000 [-16384, 0, 16384] 0).toNat =
        ((0 : BitVec 32).toNat + 3 * (1 : BitVec 32).toNat) % 2 ^ 32 :=
  ⟨(carrier_keeps_center_frequency 1 1000 (by decide)).1,
    (carrier_keeps_center_frequency 1 1000 (by decide)).2 [-16384, 0, 16384] (by decide) 0⟩

end FMModulator
end DDSFunctionGen.Fpga

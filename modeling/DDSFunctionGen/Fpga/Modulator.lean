import DDSFunctionGen.Arithmetic.SignedWord
import DDSFunctionGen.Fpga.WaveGenerator

/-!
# Amplitude modulation

`DDS_AM_Modulator` scales the carrier by `1 - I + I * m`. Every expression is
evaluated in 64-bit signed arithmetic; only the assignments to the 16-bit wires
truncate. The wire `ModIndexOpposite` cannot hold `1.0`, which is what a zero
index asks of it.
-/

namespace DDSFunctionGen.Fpga

open DDSFunctionGen.Arithmetic

namespace AMModulator

/-- The wire `ModIndexOpposite`. -/
def modIndexOpposite (modulationIndex : FixedPoint) : FixedPoint :=
  (fixedPointConstant - modulationIndex.signExtend 64).setWidth 16

/-- The wire `ScaledModulation`. -/
def scaledModulation (modulationIndex modulationAmplitude : FixedPoint) : FixedPoint :=
  ((modulationIndex.signExtend 64 * modulationAmplitude.signExtend 64).sdiv
    fixedPointConstant).setWidth 16

/-- The output `o_AMOut`; the modulation signal is the word the modulator's own
wave generator reads from the AM lookup RAM. -/
def amOut (modulationIndex carrier ramData : FixedPoint) : FixedPoint :=
  let modulationAmplitude := WaveGenerator.wave ramData
  ((((modIndexOpposite modulationIndex).signExtend 64 +
      (scaledModulation modulationIndex modulationAmplitude).signExtend 64) *
    carrier.signExtend 64).sdiv fixedPointConstant).setWidth 16

/-- The same modulation computed in unbounded integers. -/
def exactAmOut (modulationIndex modulation carrier : Int) : Int :=
  (((32768 - modulationIndex) + (modulationIndex * modulation).tdiv 32768) * carrier).tdiv 32768

/-- Neither wire wraps and the output is the exact modulation. -/
structure ModulatesExactly (modulationIndex modulation carrier : FixedPoint) : Prop where
  opposite : (modIndexOpposite modulationIndex).toInt = 32768 - modulationIndex.toInt
  scaled : (scaledModulation modulationIndex modulation).toInt =
    (modulationIndex.toInt * modulation.toInt).tdiv 32768
  output : (amOut modulationIndex carrier modulation).toInt =
    exactAmOut modulationIndex.toInt modulation.toInt carrier.toInt

@[simp] theorem toInt_fixedPointConstant : fixedPointConstant.toInt = 32768 := by decide

/-- Sign extension to the 64-bit context keeps the value of a wire. -/
theorem toInt_extended (word : FixedPoint) : (word.signExtend 64).toInt = word.toInt :=
  BitVec.toInt_signExtend_of_le (by decide)

/-- The range of a 16-bit wire, in literals. -/
theorem sample_range (word : FixedPoint) : -32768 ≤ word.toInt ∧ word.toInt < 32768 := by
  have fits := fits_toInt word
  unfold Fits at fits
  omega

/-- A scaled product, assigned to a wire, is reduced to the width of the wire. -/
theorem toInt_scaled {width : Nat} (narrower : width ≤ 64) (product : BitVec 64) :
    ((product.sdiv fixedPointConstant).setWidth width).toInt =
      (product.toInt.tdiv 32768).bmod (2 ^ width) := by
  have range := fits_toInt product
  have small : (product.toInt.tdiv 32768).natAbs ≤ 2 ^ 48 := by
    unfold Fits at range
    rw [Int.natAbs_tdiv]
    change product.toInt.natAbs / 32768 ≤ 2 ^ 48
    omega
  rw [toInt_setWidth_of_le narrower, toInt_sdiv_of_fits, toInt_fixedPointConstant]
  rw [toInt_fixedPointConstant]
  exact fits_of_natAbs_le _ small (by decide)

/-- `ModIndexOpposite` holds `32768 - I` reduced to 16 bits. -/
theorem modIndexOpposite_toInt (modulationIndex : FixedPoint) :
    (modIndexOpposite modulationIndex).toInt =
      (32768 - modulationIndex.toInt).bmod (2 ^ 16) := by
  have range := sample_range modulationIndex
  rw [modIndexOpposite, toInt_setWidth_of_le (by decide), toInt_sub_of_fits,
    toInt_fixedPointConstant, toInt_extended]
  rw [toInt_fixedPointConstant, toInt_extended]
  unfold Fits
  omega

/-- A positive index fits its opposite into the wire. -/
theorem modIndexOpposite_of_pos {modulationIndex : FixedPoint}
    (positive : 0 < modulationIndex.toInt) :
    (modIndexOpposite modulationIndex).toInt = 32768 - modulationIndex.toInt := by
  have range := sample_range modulationIndex
  rw [modIndexOpposite_toInt, bmod_of_fits]
  unfold Fits
  omega

/-- A zero index wraps the wire from `1.0` to `-1.0`. -/
theorem modIndexOpposite_zero : (modIndexOpposite 0).toInt = -32768 := by decide

/-- The scaled modulation never exceeds the index in magnitude. -/
theorem natAbs_scaled_le (modulationIndex modulation : FixedPoint) :
    ((modulationIndex.toInt * modulation.toInt).tdiv 32768).natAbs ≤
      modulationIndex.toInt.natAbs := by
  have range := sample_range modulation
  exact natAbs_tdiv_mul_le (by decide) (by omega)

/-- The product of two values of 16-bit magnitude fits the 64-bit context. -/
theorem fits_product {left right : Int} (leftBound : left.natAbs ≤ 65536)
    (rightBound : right.natAbs ≤ 32768) : Fits 64 (left * right) := by
  refine fits_of_natAbs_le (65536 * 32768) ?_ (by decide)
  rw [Int.natAbs_mul]
  exact Nat.mul_le_mul leftBound rightBound

/-- `ScaledModulation` never wraps for a non-negative index. -/
theorem scaledModulation_exact {modulationIndex modulation : FixedPoint}
    (nonneg : 0 ≤ modulationIndex.toInt) :
    (scaledModulation modulationIndex modulation).toInt =
      (modulationIndex.toInt * modulation.toInt).tdiv 32768 := by
  have indexRange := sample_range modulationIndex
  have modulationRange := sample_range modulation
  have bound := natAbs_scaled_le modulationIndex modulation
  have product : (modulationIndex.signExtend 64 * modulation.signExtend 64).toInt =
      modulationIndex.toInt * modulation.toInt := by
    rw [toInt_mul_of_fits, toInt_extended, toInt_extended]
    rw [toInt_extended, toInt_extended]
    exact fits_product (by omega) (by omega)
  rw [scaledModulation, toInt_scaled (by decide), product, bmod_of_fits]
  unfold Fits
  omega

/-- The output is the product of the two wires' sum with the carrier, scaled
back and reduced to 16 bits. -/
theorem amOut_toInt (modulationIndex carrier modulation : FixedPoint) :
    (amOut modulationIndex carrier modulation).toInt =
      ((((modIndexOpposite modulationIndex).toInt +
        (scaledModulation modulationIndex modulation).toInt) * carrier.toInt).tdiv
          32768).bmod (2 ^ 16) := by
  have oppositeRange := sample_range (modIndexOpposite modulationIndex)
  have scaledRange := sample_range (scaledModulation modulationIndex modulation)
  have carrierRange := sample_range carrier
  set opposite := modIndexOpposite modulationIndex
  set scaled := scaledModulation modulationIndex modulation
  have total : (opposite.signExtend 64 + scaled.signExtend 64).toInt =
      opposite.toInt + scaled.toInt := by
    rw [toInt_add_of_fits, toInt_extended, toInt_extended]
    rw [toInt_extended, toInt_extended]
    unfold Fits
    omega
  have product : ((opposite.signExtend 64 + scaled.signExtend 64) *
      carrier.signExtend 64).toInt = (opposite.toInt + scaled.toInt) * carrier.toInt := by
    rw [toInt_mul_of_fits, total, toInt_extended]
    rw [total, toInt_extended]
    exact fits_product (by omega) (by omega)
  change ((((opposite.signExtend 64 + scaled.signExtend 64) *
    carrier.signExtend 64).sdiv fixedPointConstant).setWidth 16).toInt = _
  rw [toInt_scaled (by decide), product]

/-- A positive index keeps the gain strictly inside the wire's range, so the
output is exact. -/
theorem amOut_of_pos {modulationIndex : FixedPoint} (carrier modulation : FixedPoint)
    (positive : 0 < modulationIndex.toInt) :
    (amOut modulationIndex carrier modulation).toInt =
      exactAmOut modulationIndex.toInt modulation.toInt carrier.toInt := by
  have nonneg : 0 ≤ modulationIndex.toInt := Int.le_of_lt positive
  have indexRange := sample_range modulationIndex
  have carrierRange := sample_range carrier
  have lower := natAbs_scaled_le modulationIndex modulation
  have strict : (modulationIndex.toInt * modulation.toInt).tdiv 32768 < modulationIndex.toInt :=
    tdiv_mul_lt (by decide) positive (sample_range modulation).2
  rw [amOut_toInt, modIndexOpposite_of_pos positive, scaledModulation_exact nonneg, bmod_of_fits]
  · rfl
  · refine fits_of_natAbs_le 32767 ?_ (by decide)
    refine Nat.le_trans (natAbs_tdiv_mul_le (by decide) ?_) ?_
    · omega
    · omega

/-- With a zero index the exact modulation is the carrier itself. -/
theorem exactAmOut_zero (modulation carrier : Int) : exactAmOut 0 modulation carrier = carrier := by
  simp [exactAmOut]

/-- With a zero index the wrapped wire negates the carrier. -/
theorem amOut_zero (carrier modulation : FixedPoint) :
    (amOut 0 carrier modulation).toInt = (-carrier.toInt).bmod (2 ^ 16) := by
  rw [amOut_toInt, modIndexOpposite_zero, scaledModulation_exact (by decide)]
  simp

/-- The modulator is exact at every index but zero, where `ModIndexOpposite`
wraps: there the carrier comes out negated, which shows unless the carrier is
one of the two words equal to their own negation. -/
theorem amModulator_exact_iff (modulationIndex modulation carrier : FixedPoint)
    (nonneg : 0 ≤ modulationIndex.toInt) :
    (ModulatesExactly modulationIndex modulation carrier ↔ modulationIndex ≠ 0) ∧
      ((amOut modulationIndex carrier modulation).toInt =
          exactAmOut modulationIndex.toInt modulation.toInt carrier.toInt ↔
        modulationIndex ≠ 0 ∨ carrier = 0 ∨ carrier = BitVec.intMin 16) := by
  by_cases zero : modulationIndex = 0
  · subst zero
    constructor
    · refine ⟨fun exact => absurd exact.opposite ?_, fun nonzero => absurd rfl nonzero⟩
      rw [modIndexOpposite_zero]
      decide
    · have range := sample_range carrier
      have least : (BitVec.intMin 16).toInt = -32768 := by decide
      rw [amOut_zero, show (0 : FixedPoint).toInt = 0 from rfl, exactAmOut_zero,
        ← BitVec.toInt_inj, ← BitVec.toInt_inj, least, show (0 : FixedPoint).toInt = 0 from rfl]
      simp only [ne_eq, not_true_eq_false, false_or, Int.bmod_def]
      omega
  · have positive : 0 < modulationIndex.toInt := by
      refine lt_of_le_of_ne nonneg fun isZero => zero ?_
      exact BitVec.eq_of_toInt_eq isZero.symm
    have output := amOut_of_pos carrier modulation positive
    exact ⟨⟨fun _ => zero, fun _ => ⟨modIndexOpposite_of_pos positive,
      scaledModulation_exact nonneg, output⟩⟩, ⟨fun _ => .inl zero, fun _ => output⟩⟩

/-- Full-scale modulation of a full-scale carrier at 100% depth is exact. -/
theorem amModulator_exact_iff_full_depth :
    (ModulatesExactly 16384 (BitVec.intMin 16) 32767 ↔ (16384 : FixedPoint) ≠ 0) ∧
      ((amOut 16384 32767 (BitVec.intMin 16)).toInt =
          exactAmOut 16384 (-32768) 32767 ↔
        (16384 : FixedPoint) ≠ 0 ∨ (32767 : FixedPoint) = 0 ∨
          (32767 : FixedPoint) = BitVec.intMin 16) :=
  amModulator_exact_iff 16384 (BitVec.intMin 16) 32767 (by decide)

/-- With modulation off, a carrier sample of `12345` comes out as `-12345`. -/
theorem amModulator_inverts_carrier_at_zero :
    ¬ ∀ modulationIndex modulation carrier : FixedPoint, 0 ≤ modulationIndex.toInt →
      (amOut modulationIndex carrier modulation).toInt =
        exactAmOut modulationIndex.toInt modulation.toInt carrier.toInt := by
  intro always
  have output : (amOut 0 12345 0).toInt = -12345 := by decide
  have wanted : exactAmOut 0 0 12345 = 12345 := by decide
  have claimed := always 0 0 12345 (by decide)
  rw [output] at claimed
  exact absurd (claimed.trans wanted) (by decide)

end AMModulator
end DDSFunctionGen.Fpga

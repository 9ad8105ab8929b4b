import DDSFunctionGen.Arithmetic.Accumulator
import DDSFunctionGen.Fpga.Modulator

/-!
# The output code

`DDS_Core` truncates the modulated amplitude to the width of the converter and
moves it to offset binary. `AmplitudeDevider` is an unsigned constant, so the
signed amplitude is zero-extended to 64 bits and the division is unsigned: a
negative amplitude is off by `2 ^ width` until the assignment to the output
port drops the carry.
-/

namespace DDSFunctionGen.Fpga

open DDSFunctionGen.Arithmetic

namespace Core

/-- The shift count of `AmplitudeDevider`, evaluated with signed parameters. -/
def deviderShift (fixedPointExp outAmplitudeWidth : Nat) : Nat :=
  ((fixedPointExp : Int) - outAmplitudeWidth + 1).toNat

/-- `AmplitudeDevider`. -/
def amplitudeDevider (fixedPointExp outAmplitudeWidth : Nat) : BitVec 64 :=
  1#64 <<< deviderShift fixedPointExp outAmplitudeWidth

/-- The output `o_DDS_out`. -/
def ddsOut (fixedPointExp outAmplitudeWidth : Nat) (amplitude : BitVec (fixedPointExp + 1)) :
    BitVec outAmplitudeWidth :=
  (amplitude.setWidth 64 / amplitudeDevider fixedPointExp outAmplitudeWidth +
    1#64 <<< (outAmplitudeWidth - 1)).setWidth outAmplitudeWidth

/-- Offset binary in unbounded integers. -/
def offsetBinary (fixedPointExp outAmplitudeWidth : Nat) (amplitude : Int) : Int :=
  amplitude / 2 ^ (fixedPointExp + 1 - outAmplitudeWidth) + 2 ^ (outAmplitudeWidth - 1)

variable {exp width : Nat}

/-- A shifted one within the 64-bit context. -/
theorem toNat_one_shiftLeft {count : Nat} (small : count < 64) :
    (1#64 <<< count).toNat = 2 ^ count := by
  have fits : 2 ^ count < 2 ^ 64 := Nat.pow_lt_pow_right (by decide) small
  rw [BitVec.toNat_shiftLeft, Nat.shiftLeft_eq]
  simpa using Nat.mod_eq_of_lt fits

theorem amplitudeDevider_toNat (narrow : width ≤ exp + 1) (positive : 1 ≤ width)
    (word : exp + 1 ≤ 63) : (amplitudeDevider exp width).toNat = 2 ^ (exp + 1 - width) := by
  have shift : deviderShift exp width = exp + 1 - width := by
    unfold deviderShift
    omega
  rw [amplitudeDevider, shift, toNat_one_shiftLeft (by omega)]

/-- The word the output port truncates: the unsigned quotient plus the offset,
with no carry out of 64 bits. -/
theorem ddsOut_toNat (narrow : width ≤ exp + 1) (positive : 1 ≤ width) (word : exp + 1 ≤ 63)
    (amplitude : BitVec (exp + 1)) :
    (ddsOut exp width amplitude).toNat =
      (amplitude.toNat / 2 ^ (exp + 1 - width) + 2 ^ (width - 1)) % 2 ^ width := by
  have inside := amplitude.isLt
  have context : 2 ^ (exp + 1) ≤ 2 ^ 63 := Nat.pow_le_pow_right (by decide) word
  have offset : 2 ^ (width - 1) ≤ 2 ^ 62 := Nat.pow_le_pow_right (by decide) (by omega)
  have quotient : amplitude.toNat / 2 ^ (exp + 1 - width) ≤ amplitude.toNat := Nat.div_le_self _ _
  have extended : amplitude.toNat % 2 ^ 64 = amplitude.toNat := Nat.mod_eq_of_lt (by omega)
  rw [ddsOut, BitVec.toNat_setWidth, BitVec.toNat_add, BitVec.toNat_udiv, BitVec.toNat_setWidth,
    amplitudeDevider_toNat narrow positive word, toNat_one_shiftLeft (by omega), extended]
  congr 1
  exact Nat.mod_eq_of_lt (by omega)

/-- The signed amplitude differs from its zero extension by a multiple of the
full word, which the division turns into a multiple of the output range. -/
theorem toNat_div_modEq (narrow : width ≤ exp + 1) (amplitude : BitVec (exp + 1)) :
    ((amplitude.toNat / 2 ^ (exp + 1 - width) : Nat) : Int) ≡
      amplitude.toInt / 2 ^ (exp + 1 - width) [ZMOD 2 ^ width] := by
  obtain ⟨words, difference⟩ := (toNat_modEq_toInt amplitude).symm.dvd
  have split : (2 : Int) ^ (exp + 1) = 2 ^ (exp + 1 - width) * 2 ^ width := by
    rw [← pow_add]
    congr 1
    omega
  have reading : (amplitude.toNat : Int) =
      amplitude.toInt + 2 ^ (exp + 1 - width) * (2 ^ width * words) := by
    rw [← Int.mul_assoc, ← split, ← difference]
    omega
  have divided : ((amplitude.toNat / 2 ^ (exp + 1 - width) : Nat) : Int) =
      amplitude.toInt / 2 ^ (exp + 1 - width) + 2 ^ width * words := by
    push_cast
    rw [reading, Int.add_mul_ediv_left _ _ (by positivity)]
  rw [divided]
  exact Int.modEq_add_fac_self

/-- A floored amplitude stays in the signed range of the output. -/
theorem offsetBinary_range (narrow : width ≤ exp + 1) (positive : 1 ≤ width)
    (amplitude : BitVec (exp + 1)) :
    0 ≤ offsetBinary exp width amplitude.toInt ∧
      offsetBinary exp width amplitude.toInt < 2 ^ width := by
  have half : (2 : Int) ^ width = 2 * 2 ^ (width - 1) := by
    rw [← pow_succ']
    congr 1
    omega
  have split : (2 : Int) ^ exp = 2 ^ (width - 1) * 2 ^ (exp + 1 - width) := by
    rw [← pow_add]
    congr 1
    omega
  have scale : (0 : Int) < 2 ^ (exp + 1 - width) := by positivity
  have lower := BitVec.le_toInt amplitude
  have upper := BitVec.toInt_lt (x := amplitude)
  simp only [Nat.add_sub_cancel, split] at lower upper
  have atLeast : -2 ^ (width - 1) ≤ amplitude.toInt / 2 ^ (exp + 1 - width) :=
    (Int.le_ediv_iff_mul_le scale).2 (by linarith)
  have below : amplitude.toInt / 2 ^ (exp + 1 - width) < 2 ^ (width - 1) :=
    Int.ediv_lt_of_lt_mul scale upper
  unfold offsetBinary
  constructor <;> linarith

/-- The modular cancellation: the output is offset binary, without a wrap. -/
theorem ddsOut_eq_offsetBinary (narrow : width ≤ exp + 1) (positive : 1 ≤ width)
    (word : exp + 1 ≤ 63) (amplitude : BitVec (exp + 1)) :
    ((ddsOut exp width amplitude).toNat : Int) = offsetBinary exp width amplitude.toInt := by
  obtain ⟨nonneg, small⟩ := offsetBinary_range narrow positive amplitude
  have shifted := (toNat_div_modEq narrow amplitude).add_right (2 ^ (width - 1))
  rw [ddsOut_toNat narrow positive word]
  push_cast at shifted ⊢
  rw [shifted]
  exact Int.emod_eq_of_lt nonneg small

/-- Offset binary keeps the order of amplitudes. -/
theorem offsetBinary_monotone (exp width : Nat) {low high : Int} (ordered : low ≤ high) :
    offsetBinary exp width low ≤ offsetBinary exp width high :=
  Int.add_le_add_right (Int.ediv_le_ediv (by positivity) ordered) _

/-- Amplitude modulation never amplifies, not even at index zero, where the
carrier comes out negated. -/
theorem natAbs_amOut_le {modulationIndex : FixedPoint} (nonneg : 0 ≤ modulationIndex.toInt)
    (carrier modulation : FixedPoint) :
    (AMModulator.amOut modulationIndex carrier modulation).toInt.natAbs ≤
      carrier.toInt.natAbs := by
  have indexRange := AMModulator.sample_range modulationIndex
  have carrierRange := AMModulator.sample_range carrier
  by_cases zero : modulationIndex.toInt = 0
  · have isZero : modulationIndex = 0 := BitVec.eq_of_toInt_eq zero
    rw [isZero, AMModulator.amOut_zero, Int.bmod_def]
    omega
  · have scaled := AMModulator.natAbs_scaled_le modulationIndex modulation
    have positive : 0 < modulationIndex.toInt := by omega
    rw [AMModulator.amOut_of_pos carrier modulation positive, AMModulator.exactAmOut, Int.mul_comm]
    exact natAbs_tdiv_mul_le (by decide) (by omega)

/-- The output is wrap-free offset binary at every width, and with the
instantiated widths a modulated carrier stays between its own codes. -/
theorem ddsOut_offset_binary (exp width : Nat) (positive : 1 ≤ width) (narrow : width ≤ exp + 1)
    (word : exp + 1 ≤ 63) :
    (∀ amplitude : BitVec (exp + 1),
      ((ddsOut exp width amplitude).toNat : Int) =
          amplitude.toInt / 2 ^ (exp - width + 1 : Int).toNat + 2 ^ (width - 1) ∧
        (ddsOut exp width amplitude).toNat < 2 ^ width) ∧
      (∀ lower upper : BitVec (exp + 1), lower.toInt ≤ upper.toInt →
        (ddsOut exp width lower).toNat ≤ (ddsOut exp width upper).toNat) ∧
      ∀ modulationIndex modulation carrier : FixedPoint, 0 ≤ modulationIndex.toInt →
        2048 + (-|carrier.toInt|) / 16 ≤
            ((ddsOut 15 12 (AMModulator.amOut modulationIndex carrier modulation)).toNat : Int) ∧
          ((ddsOut 15 12 (AMModulator.amOut modulationIndex carrier modulation)).toNat : Int) ≤
            2048 + |carrier.toInt| / 16 := by
  have exact := ddsOut_eq_offsetBinary narrow positive word
  refine ⟨fun amplitude => ⟨?_, (ddsOut exp width amplitude).isLt⟩, fun lower upper ordered => ?_,
    fun modulationIndex modulation carrier nonneg => ?_⟩
  · have shift : ((exp : Int) - width + 1).toNat = exp + 1 - width := by omega
    rw [exact, shift]
    rfl
  · have codes := offsetBinary_monotone exp width ordered
    rw [← exact, ← exact] at codes
    exact_mod_cast codes
  · have small := natAbs_amOut_le nonneg carrier modulation
    rw [ddsOut_eq_offsetBinary (by decide) (by decide) (by decide)]
    simp only [offsetBinary, Int.abs_eq_natAbs]
    omega

/-- The instantiated widths. -/
theorem ddsOut_offset_binary_instantiated :
    ((ddsOut 15 12 (-32768)).toNat : Int) = (-32768#16).toInt / 2 ^ (15 - 12 + 1 : Int).toNat +
        2 ^ (12 - 1) ∧
      (ddsOut 15 12 (-32768)).toNat ≤ (ddsOut 15 12 32767).toNat :=
  have result := ddsOut_offset_binary 15 12 (by decide) (by decide) (by decide)
  ⟨(result.1 (-32768)).1, result.2.1 (-32768) 32767 (by decide)⟩

end Core
end DDSFunctionGen.Fpga

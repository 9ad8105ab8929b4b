import Mathlib.Tactic.Linarith

/-!
# Exact integer readings of two's-complement words

A signed word of width `w` computes modulo `2 ^ w`. `Fits` names the range in
which that reduction is invisible, and the `toInt_*_of_fits` rules read each
operation back as the unbounded integer operation. Division truncates toward
zero, so its bounds are stated for `Int.tdiv`.
-/

namespace DDSFunctionGen.Arithmetic

/-- The integers a signed word of width `w` represents. -/
def Fits (w : Nat) (value : Int) : Prop :=
  -(2 ^ w : Nat) ≤ value * 2 ∧ value * 2 < (2 ^ w : Nat)

instance (w : Nat) (value : Int) : Decidable (Fits w value) :=
  inferInstanceAs (Decidable (_ ∧ _))

/-- Reduction modulo `2 ^ w` is the identity on representable integers. -/
theorem bmod_of_fits {w : Nat} {value : Int} (fits : Fits w value) :
    value.bmod (2 ^ w) = value :=
  Int.bmod_eq_of_le_mul_two fits.1 fits.2

/-- Every signed word reads as a representable integer. -/
theorem fits_toInt {w : Nat} (word : BitVec w) : Fits w word.toInt := by
  have lower := BitVec.le_two_mul_toInt (x := word)
  have upper := BitVec.two_mul_toInt_lt (x := word)
  constructor
  · push_cast
    linarith
  · push_cast
    linarith

theorem toInt_add_of_fits {w : Nat} {left right : BitVec w}
    (fits : Fits w (left.toInt + right.toInt)) :
    (left + right).toInt = left.toInt + right.toInt := by
  rw [BitVec.toInt_add, bmod_of_fits fits]

theorem toInt_sub_of_fits {w : Nat} {left right : BitVec w}
    (fits : Fits w (left.toInt - right.toInt)) :
    (left - right).toInt = left.toInt - right.toInt := by
  rw [BitVec.toInt_sub, bmod_of_fits fits]

theorem toInt_mul_of_fits {w : Nat} {left right : BitVec w}
    (fits : Fits w (left.toInt * right.toInt)) :
    (left * right).toInt = left.toInt * right.toInt := by
  rw [BitVec.toInt_mul, bmod_of_fits fits]

theorem toInt_sdiv_of_fits {w : Nat} {left right : BitVec w}
    (fits : Fits w (left.toInt.tdiv right.toInt)) :
    (left.sdiv right).toInt = left.toInt.tdiv right.toInt := by
  rw [BitVec.toInt_sdiv, bmod_of_fits fits]

/-- Assigning a wide word to a narrower signed wire reduces its value modulo
the wire's width. -/
theorem toInt_setWidth_of_le {v w : Nat} (narrower : v ≤ w) (word : BitVec w) :
    (word.setWidth v).toInt = word.toInt.bmod (2 ^ v) := by
  rw [← BitVec.signExtend_eq_setWidth_of_le word narrower,
    BitVec.toInt_signExtend_eq_toInt_bmod_of_le word narrower]

/-- A magnitude bound places an integer in a word's range. -/
theorem fits_of_natAbs_le {w : Nat} (bound : Nat) {value : Int} (magnitude : value.natAbs ≤ bound)
    (small : bound * 2 < 2 ^ w) : Fits w value := by
  constructor <;> omega

/-- Truncating division by a positive scale never enlarges a factor that was
scaled by at most that much. -/
theorem natAbs_tdiv_mul_le {scale factor sample : Int} (scalePositive : 0 < scale)
    (bounded : sample.natAbs ≤ scale.natAbs) :
    ((factor * sample).tdiv scale).natAbs ≤ factor.natAbs := by
  rw [Int.natAbs_tdiv, Int.natAbs_mul]
  calc factor.natAbs * sample.natAbs / scale.natAbs
      ≤ factor.natAbs * scale.natAbs / scale.natAbs :=
        Nat.div_le_div_right (Nat.mul_le_mul_left _ bounded)
    _ = factor.natAbs := Nat.mul_div_cancel _ (by omega)

/-- The quotient is strictly below the factor once the sample stays strictly
below the scale. -/
theorem tdiv_mul_lt {scale factor sample : Int} (scalePositive : 0 < scale)
    (factorPositive : 0 < factor) (upper : sample < scale) :
    (factor * sample).tdiv scale < factor := by
  rcases Int.le_total 0 sample with nonneg | nonpos
  · rw [Int.tdiv_eq_ediv_of_nonneg (Int.mul_nonneg (Int.le_of_lt factorPositive) nonneg)]
    refine Int.ediv_lt_of_lt_mul scalePositive ?_
    exact Int.mul_lt_mul_of_pos_left upper factorPositive
  · have product : 0 ≤ factor * -sample :=
      Int.mul_nonneg (Int.le_of_lt factorPositive) (by omega)
    have quotientNonneg := Int.tdiv_nonneg product (Int.le_of_lt scalePositive)
    rw [Int.mul_neg, Int.neg_tdiv] at quotientNonneg
    omega

end DDSFunctionGen.Arithmetic

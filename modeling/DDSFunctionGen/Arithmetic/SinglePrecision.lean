import Mathlib.Algebra.Order.Floor.Ring
import Mathlib.Algebra.Order.Round
import Mathlib.Data.Int.Log
import Mathlib.Data.Rat.Floor
import Mathlib.Tactic.Linarith
import Mathlib.Tactic.Positivity

/-!
# Rounding to a binary significand

A number is rounded to the nearest multiple of the unit in its last place, ties
to the even one. Exponents are unbounded: what `float` does to numbers that
neither overflow nor are subnormal.
-/

namespace DDSFunctionGen.Arithmetic

/-- The nearest integer, the even one of two. -/
def roundEven (number : ℚ) : ℤ :=
  if 1 < 2 * Int.fract number ∨ 2 * Int.fract number = 1 ∧ ⌊number⌋ % 2 = 1 then ⌊number⌋ + 1
  else ⌊number⌋

/-- The unit in the last of `digits` binary places. -/
def lastPlace (digits : ℕ) (number : ℚ) : ℚ := 2 ^ (Int.log 2 |number| + 1 - digits)

/-- A number rounded to `digits` binary places. -/
def roundTo (digits : ℕ) (number : ℚ) : ℚ :=
  lastPlace digits number * roundEven (number / lastPlace digits number)

/-- The value of an operation in `float`. -/
def single (number : ℚ) : ℚ := roundTo 24 number

/-- The nearest integer is at most a half away. -/
theorem abs_sub_roundEven (number : ℚ) : |number - roundEven number| ≤ 1 / 2 := by
  have parts := Int.floor_add_fract number
  have below := Int.fract_lt_one number
  have above := Int.fract_nonneg number
  unfold roundEven
  split
  · rename_i up
    have half : 1 ≤ 2 * Int.fract number := by
      rcases up with more | tie
      · exact le_of_lt more
      · exact le_of_eq tie.1.symm
    rw [abs_le]
    push_cast
    constructor <;> linarith
  · rename_i down
    have half : 2 * Int.fract number ≤ 1 := not_lt.mp fun more => down (.inl more)
    rw [abs_le]
    constructor <;> linarith

/-- An integer is its own nearest one. -/
theorem roundEven_intCast (number : ℤ) : roundEven number = number := by
  simp [roundEven]

/-- An integer less than a half away is the nearest one. -/
theorem roundEven_eq {number : ℚ} {whole : ℤ} (close : |number - whole| < 1 / 2) :
    roundEven number = whole := by
  have nearest := abs_sub_roundEven number
  have apart : |(roundEven number : ℚ) - whole| < 1 := by
    have triangle := abs_sub_le (roundEven number : ℚ) number whole
    rw [abs_sub_comm (roundEven number : ℚ) number] at triangle
    linarith
  have same : |roundEven number - whole| < 1 := by exact_mod_cast apart
  exact sub_eq_zero.mp (Int.abs_lt_one_iff.mp same)

theorem lastPlace_pos (digits : ℕ) (number : ℚ) : 0 < lastPlace digits number :=
  zpow_pos two_pos _

/-- Rounding is off by at most half a unit in the last place. -/
theorem abs_sub_roundTo (digits : ℕ) (number : ℚ) :
    |number - roundTo digits number| ≤ lastPlace digits number / 2 := by
  have positive := lastPlace_pos digits number
  have scaled := abs_sub_roundEven (number / lastPlace digits number)
  have factored : number - roundTo digits number = lastPlace digits number *
      (number / lastPlace digits number - roundEven (number / lastPlace digits number)) := by
    rw [mul_sub, mul_div_cancel₀ _ (ne_of_gt positive), roundTo]
  rw [factored, abs_mul, abs_of_pos positive]
  calc lastPlace digits number * _ ≤ lastPlace digits number * (1 / 2) := by gcongr
    _ = lastPlace digits number / 2 := by ring

/-- The relative error of rounding. -/
theorem abs_sub_roundTo_le (digits : ℕ) (number : ℚ) :
    |number - roundTo digits number| ≤ |number| / 2 ^ digits := by
  rcases eq_or_ne number 0 with rfl | nonzero
  · simp [roundTo, roundEven]
  · have positive : 0 < |number| := abs_pos.mpr nonzero
    have leading : (2 : ℚ) ^ Int.log 2 |number| ≤ |number| :=
      Int.zpow_log_le_self (by decide) positive
    have unit : lastPlace digits number / 2 = 2 ^ Int.log 2 |number| / 2 ^ digits := by
      rw [lastPlace, zpow_sub₀ two_ne_zero, zpow_add_one₀ two_ne_zero, zpow_natCast]
      ring
    calc |number - roundTo digits number| ≤ lastPlace digits number / 2 :=
          abs_sub_roundTo digits number
      _ = 2 ^ Int.log 2 |number| / 2 ^ digits := unit
      _ ≤ |number| / 2 ^ digits := by gcongr

variable {digits : ℕ} {number : ℚ}

/-- What is not negative is rounded up by at most its relative error. -/
theorem roundTo_le (nonNegative : 0 ≤ number) :
    roundTo digits number ≤ number * (1 + 1 / 2 ^ digits) := by
  have close := (abs_le.mp (abs_sub_roundTo_le digits number)).1
  rw [abs_of_nonneg nonNegative] at close
  have expanded : number * (1 + 1 / 2 ^ digits) = number + number / 2 ^ digits := by ring
  linarith

/-- What is not negative is rounded down by at most its relative error. -/
theorem le_roundTo (nonNegative : 0 ≤ number) :
    number * (1 - 1 / 2 ^ digits) ≤ roundTo digits number := by
  have close := (abs_le.mp (abs_sub_roundTo_le digits number)).2
  rw [abs_of_nonneg nonNegative] at close
  have expanded : number * (1 - 1 / 2 ^ digits) = number - number / 2 ^ digits := by ring
  linarith

theorem roundTo_nonneg (nonNegative : 0 ≤ number) : 0 ≤ roundTo digits number := by
  have kept : (0 : ℚ) ≤ 1 - 1 / 2 ^ digits :=
    sub_nonneg.mpr (div_le_one_of_le₀ (one_le_pow₀ one_le_two) (by positivity))
  exact le_trans (mul_nonneg nonNegative kept) (le_roundTo nonNegative)

/-- A whole number of at most `digits` places is kept. -/
theorem roundTo_natCast {whole : ℕ} (fits : whole < 2 ^ digits) :
    roundTo digits whole = whole := by
  rcases Nat.eq_zero_or_pos whole with rfl | positive
  · simp [roundTo, roundEven]
  · have places : Nat.log 2 whole + 1 ≤ digits := Nat.log_lt_of_lt_pow positive.ne' fits
    have unit : lastPlace digits (whole : ℚ) = (2 ^ (digits - (Nat.log 2 whole + 1)) : ℚ)⁻¹ := by
      rw [lastPlace, Nat.abs_cast, Int.log_natCast, ← zpow_natCast, ← zpow_neg]
      congr 1
      omega
    have scaled : (whole : ℚ) / lastPlace digits (whole : ℚ) =
        ((whole * 2 ^ (digits - (Nat.log 2 whole + 1)) : ℕ) : ℤ) := by
      rw [unit, div_inv_eq_mul]
      push_cast
      rfl
    have unitPositive := lastPlace_pos digits (whole : ℚ)
    rw [roundTo, scaled, roundEven_intCast, ← scaled, mul_div_cancel₀ _ (ne_of_gt unitPositive)]

/-- A whole number is rounded to a multiple of its last place that is closest. -/
theorem roundTo_natCast_eq {whole : ℕ} {multiple : ℤ} (surplus : ℕ)
    (places : Nat.log 2 whole + 1 = digits + surplus)
    (close : |(whole : ℚ) / 2 ^ surplus - multiple| < 1 / 2) :
    roundTo digits whole = 2 ^ surplus * multiple := by
  have unit : lastPlace digits (whole : ℚ) = 2 ^ surplus := by
    rw [lastPlace, Nat.abs_cast, Int.log_natCast, ← zpow_natCast]
    congr 1
    omega
  rw [roundTo, unit, roundEven_eq close]

end DDSFunctionGen.Arithmetic

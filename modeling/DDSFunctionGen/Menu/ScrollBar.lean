import DDSFunctionGen.Arithmetic.SinglePrecision
import DDSFunctionGen.Lcd.Rectangle
import Mathlib.Data.Nat.Cast.Order.Field
import Mathlib.Tactic.FieldSimp
import Mathlib.Tactic.NormNum

/-!
# The scroll bar of the SD page

`drawScrollbar` places a bar inside a frame by the quotient of the highlighted
index and the number of entries, computed in `float`. The bar stays inside its
frame for an index below the number of entries and for no reason else: neither
the quotient nor the rectangle is checked.
-/

namespace DDSFunctionGen.Menu.ScrollBar

open DDSFunctionGen.Arithmetic DDSFunctionGen.Lcd DDSFunctionGen.Pictures

/-- The constants of `drawScrollbar`. -/
def offX : Nat := 2
def offY : Nat := 40
def width : Nat := 5
def height : Nat := 128 - 10 - offY

/-- `((float)height / (float)count) * (float)selected` -/
def slide (selected count : Nat) : ℚ :=
  single (single (single height / single count) * single selected)

/-- `srOffY` -/
def srOffY (selected count : Nat) : Nat := offY + ⌊slide selected count⌋₊

/-- `brHeight` -/
def brHeight (count : Nat) : Nat := height / count + 1

/-- An `unsigned int` passed as an `int`. -/
def asInt (value : Nat) : Int := Int.bmod value (2 ^ 32)

/-- `drawScrollbar` -/
def drawScrollbar (selected count : Nat) (screen : Screen) : Screen :=
  let top := srOffY selected count
  let screen := screen.rectangle (asInt offX) (asInt offY) (asInt (offX + width))
    (asInt (offY + height)) true
  screen.solidRectangle (asInt offX) (asInt top) (asInt (offX + width))
    (asInt (top + brHeight count)) true

theorem asInt_of_lt {value : Nat} (small : value < 2 ^ 31) : asInt value = value :=
  Int.bmod_eq_of_le (by omega) (by omega)

variable {selected count : Nat}

theorem slide_nonneg : 0 ≤ slide selected count := by
  have quotient : 0 ≤ single (single height / single count) :=
    roundTo_nonneg (div_nonneg (roundTo_nonneg (Nat.cast_nonneg _))
      (roundTo_nonneg (Nat.cast_nonneg _)))
  exact roundTo_nonneg (mul_nonneg quotient (roundTo_nonneg (Nat.cast_nonneg _)))

/-- The four roundings are off by less than a hundredth. -/
theorem slide_le (positive : 0 < count) :
    slide selected count ≤ height * (selected / count) * (101 / 100) := by
  have counted : (0 : ℚ) < count := Nat.cast_pos.mpr positive
  have exactHeight : single height = height := roundTo_natCast (by decide)
  have divisor : (count : ℚ) * (1 - 1 / 2 ^ 24) ≤ single count := le_roundTo counted.le
  have below : (0 : ℚ) < count * (1 - 1 / 2 ^ 24) := mul_pos counted (by norm_num)
  have quotient : single (height / single count) ≤
      height / (count * (1 - 1 / 2 ^ 24)) * (1 + 1 / 2 ^ 24) := by
    calc single (height / single count)
        ≤ height / single count * (1 + 1 / 2 ^ 24) :=
          roundTo_le (div_nonneg (Nat.cast_nonneg _) (below.le.trans divisor))
      _ ≤ height / (count * (1 - 1 / 2 ^ 24)) * (1 + 1 / 2 ^ 24) := by gcongr
  have factor : single selected ≤ selected * (1 + 1 / 2 ^ 24) := roundTo_le (Nat.cast_nonneg _)
  have nonNegative : 0 ≤ single selected := roundTo_nonneg (Nat.cast_nonneg _)
  have quotientNonNegative : 0 ≤ single (height / single count) :=
    roundTo_nonneg (div_nonneg (Nat.cast_nonneg _) (below.le.trans divisor))
  rw [slide, exactHeight]
  calc single (single (height / single count) * single selected)
      ≤ single (height / single count) * single selected * (1 + 1 / 2 ^ 24) :=
        roundTo_le (mul_nonneg quotientNonNegative nonNegative)
    _ ≤ height / (count * (1 - 1 / 2 ^ 24)) * (1 + 1 / 2 ^ 24) *
          (selected * (1 + 1 / 2 ^ 24)) * (1 + 1 / 2 ^ 24) := by gcongr
    _ = height * (selected / count) * ((1 + 1 / 2 ^ 24) ^ 3 / (1 - 1 / 2 ^ 24)) := by field_simp
    _ ≤ height * (selected / count) * (101 / 100) :=
        mul_le_mul_of_nonneg_left (by norm_num) (by positivity)

/-- The bar ends inside the frame if its entry is in the listing. -/
theorem bar_inside (inListing : selected < count) :
    srOffY selected count + brHeight count ≤ offY + height + 1 := by
  have positive : 0 < count := Nat.zero_lt_of_lt inListing
  have counted : (0 : ℚ) < count := Nat.cast_pos.mpr positive
  have share : (selected : ℚ) / count ≤ 1 - 1 / count := by
    rw [le_sub_iff_add_le, ← add_div, div_le_one counted]
    exact_mod_cast inListing
  have rows : (height : ℚ) = 78 := by norm_num [height, offY]
  have entry : (0 : ℚ) < 1 / count := by positivity
  have slid : slide selected count ≤ height * (selected / count) * (101 / 100) := slide_le positive
  have reached : (⌊slide selected count⌋₊ : ℚ) ≤ slide selected count := Nat.floor_le slide_nonneg
  have length : ((height / count : ℕ) : ℚ) ≤ height / count := Nat.cast_div_le
  have ends : (⌊slide selected count⌋₊ : ℚ) + (height / count : ℕ) < (height : ℕ) + 1 := by
    rw [div_eq_mul_one_div] at length
    rw [rows] at slid length ⊢
    linarith
  have whole : ⌊slide selected count⌋₊ + height / count < height + 1 := by exact_mod_cast ends
  rw [srOffY, brHeight]
  omega

/-- Inside its frame the bar is drawn on the screen. -/
theorem drawScrollbar_paints (inListing : selected < count) :
    screenView.Paints (drawScrollbar selected count)
      ({point | 2 ≤ point.1 ∧ point.1 < 7 ∧ srOffY selected count ≤ point.2 ∧
          point.2 < srOffY selected count + brHeight count} ∪ border 2 40 7 118)
      (shade true) := by
  have ends := bar_inside inListing
  have starts : offY ≤ srOffY selected count := Nat.le_add_right _ _
  simp only [offY, height] at ends starts
  have frame := rectangle_paints (by decide : (0 : Int) ≤ 2) (by decide : (7 : Int) < 128)
    (by decide : (0 : Int) ≤ 40) (by decide : (118 : Int) < 128) (by decide) (by decide) true
  have bar := solidRectangle_paints (by decide : (0 : Int) ≤ 2) (by decide : (7 : Int) ≤ 128)
    (Int.natCast_nonneg (srOffY selected count))
    (by omega : ((srOffY selected count + brHeight count : Nat) : Int) ≤ 128) true
  have top : asInt (srOffY selected count) = srOffY selected count := asInt_of_lt (by omega)
  have bottom : asInt (srOffY selected count + brHeight count) =
      (srOffY selected count + brHeight count : Nat) := asInt_of_lt (by omega)
  intro screen
  simp only [drawScrollbar, top, bottom]
  exact (frame.andThen bar) screen

/-- A bar that ends below the screen is stored behind the buffer. -/
theorem drawScrollbar_below (reaches : 128 < srOffY selected count + brHeight count)
    (small : srOffY selected count + brHeight count < 2 ^ 31) (screen : Screen) :
    (drawScrollbar selected count screen).Faulted := by
  have top : asInt (srOffY selected count) = srOffY selected count := asInt_of_lt (by omega)
  have bottom : asInt (srOffY selected count + brHeight count) =
      (srOffY selected count + brHeight count : Nat) := asInt_of_lt small
  have length : 0 < brHeight count := Nat.succ_pos _
  simp only [drawScrollbar, top, bottom]
  exact solidRectangle_below (by decide) (by decide) (by omega) (by omega) true _

/-- Where the listing holds `..` only, every entry is as far as the frame is high. -/
theorem srOffY_single_entry (small : height * selected < 2 ^ 24) :
    srOffY selected 1 = offY + height * selected := by
  have whole : ∀ number : Nat, number < 2 ^ 24 → single number = number :=
    fun number fits => roundTo_natCast fits
  have fewer : selected < 2 ^ 24 := by
    simp only [height, offY] at small
    omega
  have slid : slide selected 1 = (height * selected : ℕ) := by
    rw [slide, whole height (by decide), whole 1 (by decide), Nat.cast_one, div_one,
      whole height (by decide), whole selected fewer, ← Nat.cast_mul, whole _ small]
  rw [srOffY, slid, Nat.floor_natCast]

/-- With `..` only, the bar of any other entry is stored behind the buffer. -/
theorem drawScrollbar_single_entry (positive : 0 < selected)
    (small : height * selected < 2 ^ 24) (screen : Screen) :
    (drawScrollbar selected 1 screen).Faulted := by
  have top := srOffY_single_entry small
  simp only [offY, height] at top small
  have length : brHeight 1 = 79 := rfl
  refine drawScrollbar_below ?_ ?_ screen
  · omega
  · omega

end DDSFunctionGen.Menu.ScrollBar

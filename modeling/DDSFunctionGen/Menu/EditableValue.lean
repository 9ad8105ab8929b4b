import Mathlib.Data.Rat.Floor

/-!
# Editable values

The menu edits floating-point values within declared bounds. The arithmetic of
`float` is a parameter, `CFloat`; exact rationals are one instance of it.
-/

namespace DDSFunctionGen.Menu

/-- The operations the menu uses on `float`: `toInt` is the conversion to `int`,
which truncates. -/
class CFloat (F : Type) extends Add F, Sub F, Mul F, Div F, LE F, LT F where
  ofInt : Int → F
  toInt : F → Int
  floorf : F → F
  pow10f : F → F
  decidableLE : DecidableRel ((· ≤ ·) : F → F → Prop)
  decidableLT : DecidableRel ((· < ·) : F → F → Prop)

instance CFloat.instDecidableLE {F : Type} [CFloat F] (left right : F) : Decidable (left ≤ right) :=
  CFloat.decidableLE left right

instance CFloat.instDecidableLT {F : Type} [CFloat F] (left right : F) : Decidable (left < right) :=
  CFloat.decidableLT left right

/-- Exact arithmetic; `pow10f` is exact at integers. -/
instance : CFloat ℚ where
  ofInt value := value
  toInt value := value.num.tdiv value.den
  floorf value := value.floor
  pow10f value := 10 ^ value.floor
  decidableLE := inferInstance
  decidableLT := inferInstance

/-- Truncation rounds a number that is not negative down. -/
theorem toInt_eq_floor {value : ℚ} (nonneg : 0 ≤ value) : CFloat.toInt value = ⌊value⌋ := by
  rw [Rat.floor_def']
  exact Int.tdiv_eq_ediv_of_nonneg (Rat.num_nonneg.mpr nonneg)

/-- `e_MeasuringUnit` -/
inductive MeasuringUnit where
  | amplitudeMilliVolt
  | amplitudeVolt
  | frequencyHz
  | frequencyKHz
  | frequencyMHz
  | percentage
deriving DecidableEq, Repr

/-- `s_AvMeasuringUnits`: the announced count and the tables. A name is `none`
where the table holds a null pointer. -/
structure AvMeasuringUnits (F : Type) where
  measuringUnitsCount : Nat
  measuringUnitsEnums : List MeasuringUnit
  measuringUnitsNames : List (Option String)
  measuringUnitsMultipliers : List F

/-- `s_EditableValue` -/
structure EditableValue (F : Type) where
  name : String
  floatValue : F
  maxValue : F
  minValue : F
  availableMeasuringUnits : AvMeasuringUnits F
  currentMeasuringUnit : MeasuringUnit

/-- `s_StringArray`. -/
structure StringArray where
  selected : Int
  count : Nat
  array : List String
deriving DecidableEq, Repr

variable {F : Type} [CFloat F]

/-- `AddToEditableValue` -/
def addToEditableValue (editableValue : EditableValue F) (value : F) : EditableValue F :=
  let newValue := editableValue.floatValue + value
  if newValue ≤ editableValue.maxValue ∧ editableValue.minValue ≤ newValue then
    { editableValue with floatValue := newValue }
  else editableValue

/-- The string-array branch of `menu_AddToMenuElement`. -/
def addToStringArray (stringArray : StringArray) (value : F) : StringArray :=
  let newSelectedIndex := stringArray.selected + CFloat.toInt value
  if newSelectedIndex < stringArray.count ∧ 0 ≤ newSelectedIndex then
    { stringArray with selected := newSelectedIndex }
  else stringArray

/-- The loop of `GetNumDigitsI`; `fuel` passes suffice for numbers of `fuel + 1`
digits. -/
def numDigitsLoop (numDigits num : Int) : Nat → Int
  | 0 => numDigits
  | fuel + 1 => if 10 ≤ num then numDigitsLoop (numDigits + 1) (num / 10) fuel else numDigits

/-- `GetNumDigitsI`, for an `int` of 32 bits. -/
def getNumDigitsI (num : Int) : Int := numDigitsLoop 1 (if num < 0 then -num else num) 10

/-- The loop of `GetNumDecimals`. -/
def numDecimalsLoop (count : Int) (f : F) : Nat → Int
  | 0 => count
  | fuel + 1 =>
      if CFloat.ofInt 0 < f - CFloat.floorf f then
        numDecimalsLoop (count + 1) (f * CFloat.ofInt 10) fuel
      else count

/-- `GetNumDecimals`: a count from 3 on is returned as 3, so three passes of the
loop decide it. -/
def getNumDecimals (f : F) : Int := numDecimalsLoop 0 f 3

end DDSFunctionGen.Menu

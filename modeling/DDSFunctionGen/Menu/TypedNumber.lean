import DDSFunctionGen.Menu.TypingScreen
import Mathlib.Data.List.Induction
import Mathlib.Data.Nat.Digits.Defs
import Mathlib.Tactic.FieldSimp
import Mathlib.Tactic.Ring

/-!
# The number typed

`menu_ProcessKeypadPress` parses a number one key a call: digits, points, more
digits, unit keys and `#`. Over exact rationals the committed value is that
number in the selected unit.
-/

namespace DDSFunctionGen.Menu

/-! ## Numbers as keys -/

/-- The number a digit string reads as, its most significant digit first. -/
def digitsValue (digits : List (Fin 10)) : Nat :=
  Nat.ofDigits 10 (digits.map Fin.val).reverse

@[simp] theorem digitsValue_nil : digitsValue [] = 0 := rfl

/-- One more digit. -/
theorem digitsValue_concat (digits : List (Fin 10)) (digit : Fin 10) :
    digitsValue (digits ++ [digit]) = digitsValue digits * 10 + digit := by
  rw [digitsValue, List.map_append, List.reverse_append]
  simp only [List.map_cons, List.map_nil, List.reverse_singleton, List.singleton_append,
    Nat.ofDigits_cons]
  rw [digitsValue, Nat.mul_comm, Nat.add_comm]

/-- A decimal number as it is typed: digits, any number of points, and digits
only behind a point. -/
structure TypedNumber where
  integer : List (Fin 10)
  points : Nat
  fraction : List (Fin 10)
  pointed : fraction ≠ [] → 0 < points

/-- The key of a digit. -/
def digitKey (digit : Fin 10) : UInt8 := UInt8.ofNat digit

/-- The keys A to D. -/
def unitKey (index : Fin 4) : UInt8 := UInt8.ofNat (0x0A + index)

namespace TypedNumber

/-- The keys pressed. -/
def keys (number : TypedNumber) : List UInt8 :=
  number.integer.map digitKey ++
    (List.replicate number.points 0x11 ++ number.fraction.map digitKey)

/-- The number meant. -/
def value (number : TypedNumber) : ℚ :=
  digitsValue number.integer + digitsValue number.fraction / 10 ^ number.fraction.length

end TypedNumber

/-- The index of the last unit key below the announced count, 0 if there is none. -/
def selectedUnit (count : Nat) (units : List (Fin 4)) : Nat :=
  (((units.map Fin.val).filter (· < count)).getLast?).getD 0

theorem selectedUnit_concat {count : Nat} (units : List (Fin 4)) {index : Fin 4}
    (known : index.val < count) : selectedUnit count (units ++ [index]) = index := by
  simp [selectedUnit, known]

/-! ## What has been typed -/

/-- What the keys have left in the typing screen. -/
structure Typed where
  buffer : ℚ := 0
  decimalPoint : Bool := false
  numDecimalValues : Nat := 0
  measuringUnitIndex : Nat := 0
  invalidValue : Bool := false

/-- The number after a unit key: checked in the unit of the key, or as it stands if
the value does not announce that many units. -/
def Typed.typeUnit (typed : Typed) (value : EditableValue ℚ) (index : Nat) : Typed :=
  let known := index < value.availableMeasuringUnits.measuringUnitsCount
  let factor := if known then TypingScreen.multiplier value.availableMeasuringUnits index
    else CFloat.ofInt 1
  { typed with
    measuringUnitIndex := if known then index else typed.measuringUnitIndex
    invalidValue := decide (value.maxValue < typed.buffer * factor ∨
      typed.buffer * factor < value.minValue) }

namespace TypingScreen

/-- A shown entry, and what was typed to it. -/
structure Holds (typed : Typed) (typingScreen : TypingScreen ℚ) : Prop where
  initialized : typingScreen.initialized = true
  shown : typingScreen.shown = true
  buffer : typingScreen.buffer = typed.buffer
  decimalPoint : typingScreen.decimalPoint = typed.decimalPoint
  numDecimalValues : typingScreen.numDecimalValues = typed.numDecimalValues
  measuringUnitIndex : typingScreen.measuringUnitIndex = typed.measuringUnitIndex
  invalidValue : typingScreen.invalidValue = typed.invalidValue

variable {typed : Typed} {typingScreen : TypingScreen ℚ}

/-- The first key after a reset finds nothing typed. -/
theorem holds_reset (typingScreen : TypingScreen ℚ) (pointer : Option Pointer)
    (value : EditableValue ℚ) :
    ((typingScreen.reset pointer true false).startEntry value).Holds {} :=
  ⟨rfl, rfl, rfl, rfl, rfl, rfl, rfl⟩

/-- An entry is started once. -/
theorem Holds.startEntry (holds : typingScreen.Holds typed) (value : EditableValue ℚ) :
    (typingScreen.startEntry value).Holds typed := by
  rw [TypingScreen.startEntry, if_pos holds.initialized]
  exact holds

theorem Holds.clampSelectedDigit (holds : typingScreen.Holds typed) (value : EditableValue ℚ) :
    (typingScreen.clampSelectedDigit value).Holds typed :=
  ⟨holds.initialized, holds.shown, holds.buffer, holds.decimalPoint, holds.numDecimalValues,
    holds.measuringUnitIndex, holds.invalidValue⟩

/-- Exact arithmetic, in the field's own terms. -/
theorem ofInt_eq (value : Int) : (CFloat.ofInt value : ℚ) = value := rfl

theorem pow10f_eq (count : Nat) : CFloat.pow10f (CFloat.ofInt count : ℚ) = 10 ^ count := by
  change (10 : ℚ) ^ (Rat.floor ((count : Int) : ℚ)) = 10 ^ count
  rw [Rat.floor_intCast, zpow_natCast]

theorem Holds.typeDigit_integer (holds : typingScreen.Holds typed)
    (noPoint : typed.decimalPoint = false) (digit : Nat) :
    (typingScreen.typeDigit digit).Holds { typed with buffer := typed.buffer * 10 + digit } := by
  have branch : ¬ typingScreen.decimalPoint = true := by
    rw [holds.decimalPoint, noPoint]
    decide
  rw [typeDigit, if_neg branch]
  refine ⟨holds.initialized, rfl, ?_, holds.decimalPoint, holds.numDecimalValues,
    holds.measuringUnitIndex, holds.invalidValue⟩
  simp only [holds.buffer, ofInt_eq]
  norm_cast

theorem Holds.typeDigit_fraction (holds : typingScreen.Holds typed)
    (point : typed.decimalPoint = true) (digit : Nat) :
    (typingScreen.typeDigit digit).Holds
      { typed with
        buffer := typed.buffer + digit / 10 ^ (typed.numDecimalValues + 1)
        numDecimalValues := typed.numDecimalValues + 1 } := by
  rw [typeDigit, if_pos (holds.decimalPoint.trans point)]
  refine ⟨holds.initialized, rfl, ?_, holds.decimalPoint, ?_, holds.measuringUnitIndex,
    holds.invalidValue⟩
  · simp only [holds.buffer, holds.numDecimalValues, pow10f_eq]
    rfl
  · simp only [holds.numDecimalValues]

/-- A unit key selects a unit the value announces, and checks the number in it. -/
theorem Holds.typeUnit (holds : typingScreen.Holds typed) (value : EditableValue ℚ)
    (index : Nat) : (typingScreen.typeUnit value index).Holds (typed.typeUnit value index) := by
  refine ⟨holds.initialized, holds.shown, holds.buffer, holds.decimalPoint,
    holds.numDecimalValues, ?_, ?_⟩
  · simp only [TypingScreen.typeUnit, Typed.typeUnit, holds.measuringUnitIndex, decide_eq_true_eq]
  · simp only [TypingScreen.typeUnit, Typed.typeUnit, holds.buffer, decide_eq_true_eq]

/-- `#` stores the number in the selected unit if that is in range. -/
theorem Holds.confirm (holds : typingScreen.Holds typed) {value : EditableValue ℚ} {factor : ℚ}
    {unit : MeasuringUnit}
    (scaled : value.availableMeasuringUnits.measuringUnitsMultipliers[typed.measuringUnitIndex]? =
      some factor)
    (named : value.availableMeasuringUnits.measuringUnitsEnums[typed.measuringUnitIndex]? =
      some unit)
    (marked : typed.invalidValue = true → value.maxValue < typed.buffer * factor ∨
      typed.buffer * factor < value.minValue) :
    (typingScreen.confirm value).2 =
      if value.minValue ≤ typed.buffer * factor ∧ typed.buffer * factor ≤ value.maxValue then
        { value with floatValue := typed.buffer * factor, currentMeasuringUnit := unit }
      else value := by
  unfold TypingScreen.confirm
  by_cases invalid : typingScreen.invalidValue = true
  · have outside := marked (holds.invalidValue.symm.trans invalid)
    have rejected : ¬ (value.minValue ≤ typed.buffer * factor ∧
        typed.buffer * factor ≤ value.maxValue) := by
      rintro ⟨atLeast, atMost⟩
      rcases outside with above | below
      · exact absurd atMost (not_le.2 above)
      · exact absurd atLeast (not_le.2 below)
    rw [if_pos invalid, if_neg rejected]
  · rw [if_neg invalid, holds.initialized, holds.shown]
    simp only [Bool.and_self, if_true, multiplier, holds.measuringUnitIndex, holds.buffer, scaled,
      named, Option.getD_some]
    split
    · rfl
    · rfl

end TypingScreen

/-! ## Keys -/

namespace Editor

/-- An enabled screen on a value, with something typed. -/
structure Typing (globals : Globals ℚ) (ref : ValueRef) (typed : Typed) (editor : Editor ℚ) :
    Prop where
  kept : editor.globals = globals
  enabled : editor.typingScreen.enabled = true
  value : editor.typingScreen.value = some (.variable ref)
  started : (editor.typingScreen.startEntry (globals.value ref)).Holds typed

/-- The keys in the order they are pressed. -/
def processKeypadPresses (editor : Editor ℚ) (keys : List UInt8) : Editor ℚ :=
  keys.foldl Editor.processKeypadPress editor

theorem processKeypadPresses_append (editor : Editor ℚ) (keys later : List UInt8) :
    editor.processKeypadPresses (keys ++ later) =
      (editor.processKeypadPresses keys).processKeypadPresses later :=
  List.foldl_append

@[simp] theorem processKeypadPresses_nil (editor : Editor ℚ) :
    editor.processKeypadPresses [] = editor := rfl

@[simp] theorem processKeypadPresses_concat (editor : Editor ℚ) (keys : List UInt8)
    (keyPressed : UInt8) :
    editor.processKeypadPresses (keys ++ [keyPressed]) =
      (editor.processKeypadPresses keys).processKeypadPress keyPressed :=
  processKeypadPresses_append editor keys [keyPressed]

variable {globals : Globals ℚ} {ref : ValueRef} {typed after : Typed} {editor : Editor ℚ}

theorem Typing.pressed (typing : editor.Typing globals ref typed) (keyPressed : UInt8) :
    (editor.processKeypadPress keyPressed).globals = globals.setValue ref
        ((editor.typingScreen.startEntry (globals.value ref)).typeKey
          (globals.value ref) keyPressed).2 ∧
      (editor.processKeypadPress keyPressed).typingScreen =
        ((editor.typingScreen.startEntry (globals.value ref)).typeKey
          (globals.value ref) keyPressed).1.clampSelectedDigit
            ((editor.typingScreen.startEntry (globals.value ref)).typeKey
              (globals.value ref) keyPressed).2 := by
  simp only [Editor.processKeypadPress, typing.enabled, if_true, target, typing.value,
    typing.kept, and_self]

/-- A key that only types keeps the variables. -/
theorem Typing.press (typing : editor.Typing globals ref typed) {keyPressed : UInt8}
    (types : ∀ typingScreen : TypingScreen ℚ, typingScreen.Holds typed →
      (typingScreen.typeKey (globals.value ref) keyPressed).2 = globals.value ref ∧
        (typingScreen.typeKey (globals.value ref) keyPressed).1.Holds after) :
    (editor.processKeypadPress keyPressed).Typing globals ref after := by
  obtain ⟨sameValue, holds⟩ := types _ typing.started
  obtain ⟨storedGlobals, storedScreen⟩ := typing.pressed keyPressed
  have kept := (editor.typingScreen.startEntry_keeps (globals.value ref)).trans
    ((editor.typingScreen.startEntry (globals.value ref)).typeKey_keeps
      (globals.value ref) keyPressed)
  constructor
  · rw [storedGlobals, sameValue, Globals.setValue_self]
  · rw [storedScreen]
    exact kept.enabled.trans typing.enabled
  · rw [storedScreen]
    exact kept.value.trans typing.value
  · rw [storedScreen]
    exact (holds.clampSelectedDigit _).startEntry _

theorem typeKey_digit (typingScreen : TypingScreen ℚ) (value : EditableValue ℚ)
    (digit : Fin 10) :
    typingScreen.typeKey value (digitKey digit) = (typingScreen.typeDigit digit, value) := by
  have isDigit : ∀ digit : Fin 10,
      digitKey digit < 0x0A ∧ (digitKey digit).toNat = digit := by decide
  rw [TypingScreen.typeKey, if_pos (isDigit digit).1, (isDigit digit).2]

theorem typeKey_unit (typingScreen : TypingScreen ℚ) (value : EditableValue ℚ)
    (index : Fin 4) :
    typingScreen.typeKey value (unitKey index) = (typingScreen.typeUnit value index, value) := by
  have isUnit : ∀ index : Fin 4, ¬ unitKey index < 0x0A ∧ unitKey index < 0x10 ∧
      (unitKey index - 0x0A).toNat = index := by decide
  rw [TypingScreen.typeKey, if_neg (isUnit index).1, if_pos (isUnit index).2.1,
    (isUnit index).2.2]

/-- Digits that extend what is typed one by one. -/
theorem Typing.digits {entry : List (Fin 10) → Typed}
    (typing : editor.Typing globals ref (entry []))
    (extended : ∀ digits, ∀ digit : Fin 10, ∀ typingScreen : TypingScreen ℚ,
      typingScreen.Holds (entry digits) →
        (typingScreen.typeDigit digit).Holds (entry (digits ++ [digit])))
    (digits : List (Fin 10)) :
    (editor.processKeypadPresses (digits.map digitKey)).Typing globals ref (entry digits) := by
  induction digits using List.reverseRecOn with
  | nil => exact typing
  | append_singleton digits digit inductionHypothesis =>
      rw [List.map_append, List.map_singleton, processKeypadPresses_concat]
      refine inductionHypothesis.press fun typingScreen holds => ?_
      rw [typeKey_digit]
      exact ⟨rfl, extended digits digit typingScreen holds⟩

/-- Digits before a point extend the integer. -/
theorem Typing.integer (typing : editor.Typing globals ref {}) (digits : List (Fin 10)) :
    (editor.processKeypadPresses (digits.map digitKey)).Typing globals ref
      { buffer := digitsValue digits } := by
  refine @Typing.digits globals ref editor (fun digits => { buffer := digitsValue digits }) ?_
    (fun digits digit typingScreen holds => ?_) digits
  · simpa using typing
  · have extended := holds.typeDigit_integer rfl digit
    rw [digitsValue_concat]
    push_cast
    exact extended

/-- The first point opens the fraction, the others change nothing. -/
theorem Typing.points (typing : editor.Typing globals ref typed) (count : Nat) :
    (editor.processKeypadPresses (List.replicate count 0x11)).Typing globals ref
      { typed with decimalPoint := typed.decimalPoint || decide (0 < count) } := by
  induction count with
  | zero =>
      simp only [Nat.lt_irrefl, decide_false, Bool.or_false]
      exact typing
  | succ count inductionHypothesis =>
      rw [List.replicate_succ', processKeypadPresses_concat]
      refine inductionHypothesis.press fun typingScreen holds => ?_
      have point : ∀ value, typingScreen.typeKey value 0x11 =
          ({ typingScreen with decimalPoint := true }, value) := fun _ => rfl
      rw [point]
      refine ⟨rfl, ⟨holds.initialized, holds.shown, holds.buffer, ?_, holds.numDecimalValues,
        holds.measuringUnitIndex, holds.invalidValue⟩⟩
      simp

/-- Digits behind a point extend the fraction. -/
theorem Typing.fraction {integer : ℚ}
    (typing : editor.Typing globals ref { buffer := integer, decimalPoint := true })
    (digits : List (Fin 10)) :
    (editor.processKeypadPresses (digits.map digitKey)).Typing globals ref
      { buffer := integer + digitsValue digits / 10 ^ digits.length
        decimalPoint := true, numDecimalValues := digits.length } := by
  refine @Typing.digits globals ref editor
    (fun digits => { buffer := integer + digitsValue digits / 10 ^ digits.length
                     decimalPoint := true, numDecimalValues := digits.length }) ?_
    (fun digits digit typingScreen holds => ?_) digits
  · simpa using typing
  · have extended := holds.typeDigit_fraction rfl digit
    have shifted : integer + digitsValue (digits ++ [digit]) / 10 ^ (digits ++ [digit]).length =
        integer + digitsValue digits / 10 ^ digits.length +
          (digit.val : ℚ) / 10 ^ (digits.length + 1) := by
      rw [digitsValue_concat, List.length_append, List.length_singleton]
      push_cast
      field_simp
      ring
    rw [shifted, List.length_append]
    exact extended

/-- One unit key. -/
theorem Typing.unit (typing : editor.Typing globals ref typed)
    (index : Fin 4) :
    (editor.processKeypadPress (unitKey index)).Typing globals ref
      (typed.typeUnit (globals.value ref) index) := by
  refine typing.press fun typingScreen holds => ?_
  rw [typeKey_unit]
  exact ⟨rfl, holds.typeUnit (globals.value ref) index⟩

/-- The keys of a number leave it in the buffer. -/
theorem Typing.number (typing : editor.Typing globals ref {}) (number : TypedNumber) :
    ∃ decimalPoint numDecimalValues,
      (editor.processKeypadPresses number.keys).Typing globals ref
        { buffer := number.value, decimalPoint := decimalPoint
          numDecimalValues := numDecimalValues } := by
  have pointed := (typing.integer number.integer).points number.points
  rw [TypedNumber.keys, processKeypadPresses_append, processKeypadPresses_append]
  by_cases whole : number.fraction = []
  · refine ⟨false || decide (0 < number.points), 0, ?_⟩
    rw [TypedNumber.value, whole]
    simpa using pointed
  · rw [Bool.false_or, decide_eq_true (number.pointed whole)] at pointed
    exact ⟨true, number.fraction.length, pointed.fraction number.fraction⟩

/-- Unit keys keep the number; the last one decides the unit if the value announces it. -/
theorem Typing.units (typing : editor.Typing globals ref typed) (units : List (Fin 4)) :
    ∃ measuringUnitIndex invalidValue,
      (editor.processKeypadPresses (units.map unitKey)).Typing globals ref
        { typed with
          measuringUnitIndex := measuringUnitIndex, invalidValue := invalidValue } := by
  induction units using List.reverseRecOn with
  | nil => exact ⟨typed.measuringUnitIndex, typed.invalidValue, typing⟩
  | append_singleton units index inductionHypothesis =>
      obtain ⟨measuringUnitIndex, invalidValue, earlier⟩ := inductionHypothesis
      rw [List.map_append, List.map_singleton, processKeypadPresses_concat]
      exact ⟨_, _, earlier.unit index⟩

/-- `#` commits what was typed. -/
theorem Typing.confirm (typing : editor.Typing globals ref typed) {factor : ℚ}
    {unit : MeasuringUnit}
    (scaled : (globals.value ref).availableMeasuringUnits.measuringUnitsMultipliers[
      typed.measuringUnitIndex]? = some factor)
    (named : (globals.value ref).availableMeasuringUnits.measuringUnitsEnums[
      typed.measuringUnitIndex]? = some unit)
    (marked : typed.invalidValue = true → (globals.value ref).maxValue < typed.buffer * factor ∨
      typed.buffer * factor < (globals.value ref).minValue) :
    (editor.processKeypadPress 0x10).globals = globals.setValue ref
      (if (globals.value ref).minValue ≤ typed.buffer * factor ∧
          typed.buffer * factor ≤ (globals.value ref).maxValue then
        { globals.value ref with
          floatValue := typed.buffer * factor, currentMeasuringUnit := unit }
      else globals.value ref) := by
  rw [(typing.pressed 0x10).1]
  congr 1
  exact typing.started.confirm scaled named marked

/-- The editor after `GP_ResetTypingScreen(value, true, false)`. -/
def enter (editor : Editor ℚ) (ref : ValueRef) : Editor ℚ :=
  { editor with typingScreen := editor.typingScreen.reset (some (.variable ref)) true false }

theorem enter_typing (editor : Editor ℚ) (ref : ValueRef) :
    (editor.enter ref).Typing editor.globals ref {} :=
  ⟨rfl, rfl, rfl, TypingScreen.holds_reset _ _ _⟩

/-- A number, unit keys of which the last selects a unit of the value, and `#` store the
number in that unit if it is in range. -/
theorem number_stored (editor : Editor ℚ) (ref : ValueRef) (number : TypedNumber)
    (units : List (Fin 4)) {factor : ℚ} {unit : MeasuringUnit}
    (known : ∀ index, units.getLast? = some index →
      index.val < (editor.globals.value ref).availableMeasuringUnits.measuringUnitsCount)
    (scaled : (editor.globals.value ref).availableMeasuringUnits.measuringUnitsMultipliers[
      selectedUnit (editor.globals.value ref).availableMeasuringUnits.measuringUnitsCount
        units]? = some factor)
    (named : (editor.globals.value ref).availableMeasuringUnits.measuringUnitsEnums[
      selectedUnit (editor.globals.value ref).availableMeasuringUnits.measuringUnitsCount
        units]? = some unit) :
    ((editor.enter ref).processKeypadPresses
        (number.keys ++ (units.map unitKey ++ [0x10]))).globals =
      editor.globals.setValue ref
        (if (editor.globals.value ref).minValue ≤ number.value * factor ∧
            number.value * factor ≤ (editor.globals.value ref).maxValue then
          { editor.globals.value ref with
            floatValue := number.value * factor, currentMeasuringUnit := unit }
        else editor.globals.value ref) := by
  obtain ⟨decimalPoint, numDecimalValues, numbered⟩ := (editor.enter_typing ref).number number
  rw [processKeypadPresses_append, processKeypadPresses_concat]
  rcases List.eq_nil_or_concat units with none | ⟨earlier, index, last⟩
  · subst none
    exact numbered.confirm scaled named nofun
  · rw [List.concat_eq_append] at last
    subst last
    have announced := known index List.getLast?_concat
    rw [selectedUnit_concat earlier announced] at scaled named
    obtain ⟨measuringUnitIndex, invalidValue, before⟩ := numbered.units earlier
    have unitTyped := before.unit index
    rw [List.map_append, List.map_singleton, processKeypadPresses_concat]
    simp only [Typed.typeUnit, announced, if_true, TypingScreen.multiplier, scaled,
      Option.getD_some] at unitTyped
    exact unitTyped.confirm scaled named of_decide_eq_true

/-- A number, unit keys of which the last selects a unit of the value, and `#`: the value
becomes the number in that unit if it is in range, and is left as it was otherwise. -/
theorem typed_number_committed (editor : Editor ℚ) (ref : ValueRef) (number : TypedNumber)
    (units : List (Fin 4)) {factor : ℚ} {unit : MeasuringUnit}
    (known : ∀ index, units.getLast? = some index →
      index.val < (editor.globals.value ref).availableMeasuringUnits.measuringUnitsCount)
    (scaled : (editor.globals.value ref).availableMeasuringUnits.measuringUnitsMultipliers[
      selectedUnit (editor.globals.value ref).availableMeasuringUnits.measuringUnitsCount
        units]? = some factor)
    (named : (editor.globals.value ref).availableMeasuringUnits.measuringUnitsEnums[
      selectedUnit (editor.globals.value ref).availableMeasuringUnits.measuringUnitsCount
        units]? = some unit) :
    let before := editor.globals.value ref
    let after := ((editor.enter ref).processKeypadPresses
      (number.keys ++ (units.map unitKey ++ [0x10]))).globals
    (before.minValue ≤ number.value * factor ∧ number.value * factor ≤ before.maxValue →
        (after.value ref).floatValue = number.value * factor ∧
          (after.value ref).currentMeasuringUnit = unit) ∧
      (¬ (before.minValue ≤ number.value * factor ∧ number.value * factor ≤ before.maxValue) →
        (after.value ref).floatValue = before.floatValue ∧
          (after.value ref).currentMeasuringUnit = before.currentMeasuringUnit) ∧
      after = editor.globals.setValue ref
        { before with
          floatValue := (after.value ref).floatValue
          currentMeasuringUnit := (after.value ref).currentMeasuringUnit } := by
  intro before after
  have committed := editor.number_stored ref number units known scaled named
  by_cases inRange : before.minValue ≤ number.value * factor ∧
      number.value * factor ≤ before.maxValue
  · rw [if_pos inRange] at committed
    have stored : after.value ref = _ := (congrArg (Globals.value · ref) committed).trans
      (Globals.value_setValue _ _ _)
    rw [stored]
    exact ⟨fun _ => ⟨rfl, rfl⟩, fun outside => absurd inRange outside, committed⟩
  · rw [if_neg inRange] at committed
    have stored : after.value ref = before := (congrArg (Globals.value · ref) committed).trans
      (Globals.value_setValue _ _ _)
    rw [stored]
    exact ⟨fun inside => absurd inside inRange, fun _ => ⟨rfl, rfl⟩, committed⟩

/-- `2*5BA#` in the frequency: 2.5 Hz, since A is the unit key pressed last. -/
theorem typed_number_committed_frequency :
    let editor : Editor ℚ :=
      { globals := Globals.defaults
        typingScreen :=
          { enabled := false, initialized := false, shown := false, invalidValue := false
            decimalPoint := false, numDecimalValues := 0, value := none, buffer := 0
            measuringUnitIndex := 0, selectedDigit := 0, numDigits := 0 } }
    let number : TypedNumber := ⟨[2], 1, [5], fun _ => Nat.one_pos⟩
    let after := ((editor.enter (.dds 0 .frequency)).processKeypadPresses
      (number.keys ++ ([1, 0].map unitKey ++ [0x10]))).globals
    (after.value (.dds 0 .frequency)).floatValue = 5 / 2 ∧
      (after.value (.dds 0 .frequency)).currentMeasuringUnit = .frequencyHz := by
  intro editor number after
  have known : ∀ index, ([1, 0] : List (Fin 4)).getLast? = some index →
      index.val < (editor.globals.value
        (.dds 0 .frequency)).availableMeasuringUnits.measuringUnitsCount := by
    intro index last
    cases last
    decide
  have typed : number.value * CFloat.ofInt 1 = 5 / 2 := by decide +kernel
  obtain ⟨committed, -, -⟩ :=
    typed_number_committed editor (.dds 0 .frequency) number [1, 0] known rfl rfl
  rw [typed] at committed
  exact committed (by decide +kernel)

end Editor
end DDSFunctionGen.Menu

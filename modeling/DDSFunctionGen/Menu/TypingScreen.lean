import DDSFunctionGen.Menu.Buttons
import DDSFunctionGen.Menu.Variables

/-!
# The typing screen

One global screen edits a value through a pointer, by keypad or by encoder. A
page that enables it passes the address of a value. Following a pointer that
points to no variable is recorded as a fault; what memory holds after one is
not modelled.
-/

namespace DDSFunctionGen.Menu

/-- `s_TypingScreen`; `shown` is its field `show`, and `value` is `none` where
the pointer is null. -/
structure TypingScreen (F : Type) where
  enabled : Bool
  initialized : Bool
  shown : Bool
  invalidValue : Bool
  decimalPoint : Bool
  numDecimalValues : Nat
  value : Option Pointer
  buffer : F
  measuringUnitIndex : Nat
  selectedDigit : Int
  numDigits : Int

namespace TypingScreen

variable {F : Type}

/-- `GP_ResetTypingScreen`: everything but the buffer. -/
def reset (typingScreen : TypingScreen F) (editableValue : Option Pointer)
    (enable shown : Bool) : TypingScreen F :=
  { typingScreen with
    shown, enabled := enable, value := editableValue, measuringUnitIndex := 0
    initialized := false, decimalPoint := false, numDigits := 0, selectedDigit := 0
    invalidValue := false, numDecimalValues := 0 }

/-- The buttons of `menu_ProcessEncoder`: they move the selected digit. -/
def moveDigit (typingScreen : TypingScreen F) (btnEncoder : UInt8) : TypingScreen F :=
  if btnEncoder = btnEncoderL then
    { typingScreen with selectedDigit := typingScreen.selectedDigit + 1 }
  else if btnEncoder = btnEncoderR then
    { typingScreen with selectedDigit := typingScreen.selectedDigit - 1 }
  else typingScreen

/-- A change that leaves the screen on the same value. -/
structure KeepsTarget (before after : TypingScreen F) : Prop where
  enabled : after.enabled = before.enabled
  value : after.value = before.value

theorem KeepsTarget.trans {first middle last : TypingScreen F} (before : first.KeepsTarget middle)
    (after : middle.KeepsTarget last) : first.KeepsTarget last :=
  ⟨after.enabled.trans before.enabled, after.value.trans before.value⟩

theorem moveDigit_keeps (typingScreen : TypingScreen F) (btnEncoder : UInt8) :
    typingScreen.KeepsTarget (typingScreen.moveDigit btnEncoder) := by
  unfold moveDigit
  split
  · exact ⟨rfl, rfl⟩
  split
  · exact ⟨rfl, rfl⟩
  · exact ⟨rfl, rfl⟩

theorem moveDigit_measuringUnitIndex (typingScreen : TypingScreen F) (btnEncoder : UInt8) :
    (typingScreen.moveDigit btnEncoder).measuringUnitIndex = typingScreen.measuringUnitIndex := by
  unfold moveDigit
  split_ifs
  · rfl
  · rfl
  · rfl

variable [CFloat F]

/-- The first key of an entry. -/
def startEntry (typingScreen : TypingScreen F) (value : EditableValue F) : TypingScreen F :=
  if typingScreen.initialized then typingScreen
  else
    { typingScreen with
      buffer := CFloat.ofInt 0, shown := true
      numDigits := getNumDigitsI (CFloat.toInt value.maxValue), initialized := true
      decimalPoint := false, numDecimalValues := 0, invalidValue := false }

/-- A digit key. -/
def typeDigit (typingScreen : TypingScreen F) (digit : Nat) : TypingScreen F :=
  if typingScreen.decimalPoint then
    let numDecimalValues := typingScreen.numDecimalValues + 1
    { typingScreen with
      numDecimalValues
      buffer := typingScreen.buffer +
        CFloat.ofInt digit / CFloat.pow10f (CFloat.ofInt numDecimalValues)
      shown := true }
  else
    { typingScreen with
      buffer := typingScreen.buffer * CFloat.ofInt 10 + CFloat.ofInt digit, shown := true }

/-- An entry of the multiplier table; past the table it is 0 here. -/
def multiplier (units : AvMeasuringUnits F) (index : Nat) : F :=
  (units.measuringUnitsMultipliers[index]?).getD (CFloat.ofInt 0)

/-- One of the keys A to D. -/
def typeUnit (typingScreen : TypingScreen F) (value : EditableValue F) (index : Nat) :
    TypingScreen F :=
  let known := decide (index < value.availableMeasuringUnits.measuringUnitsCount)
  let factor :=
    if known then multiplier value.availableMeasuringUnits index else CFloat.ofInt 1
  let finalValue := typingScreen.buffer * factor
  { typingScreen with
    measuringUnitIndex := if known then index else typingScreen.measuringUnitIndex
    invalidValue := decide (value.maxValue < finalValue ∨ finalValue < value.minValue) }

/-- The key `#`: an entry is committed or rejected, or a rejection dismissed. -/
def confirm (typingScreen : TypingScreen F) (value : EditableValue F) :
    TypingScreen F × EditableValue F :=
  if typingScreen.invalidValue then
    ({ typingScreen with
        shown := if typingScreen.initialized then typingScreen.shown else false
        initialized := false, invalidValue := false }, value)
  else if typingScreen.initialized && typingScreen.shown then
    let units := value.availableMeasuringUnits
    let finalValue := typingScreen.buffer * multiplier units typingScreen.measuringUnitIndex
    if value.minValue ≤ finalValue ∧ finalValue ≤ value.maxValue then
      ({ typingScreen with shown := false, initialized := false },
        { value with
          floatValue := finalValue
          currentMeasuringUnit :=
            (units.measuringUnitsEnums[typingScreen.measuringUnitIndex]?).getD
              .amplitudeMilliVolt })
    else ({ typingScreen with invalidValue := true, initialized := false }, value)
  else (typingScreen, value)

/-- The key codes of `menu_ProcessKeypadPress`: the screen and the value after
the key. -/
def typeKey (typingScreen : TypingScreen F) (value : EditableValue F) (keyPressed : UInt8) :
    TypingScreen F × EditableValue F :=
  if keyPressed < 0x0A then (typingScreen.typeDigit keyPressed.toNat, value)
  else if keyPressed < 0x10 then
    (typingScreen.typeUnit value (keyPressed - 0x0A).toNat, value)
  else if keyPressed = 0x10 then typingScreen.confirm value
  else if keyPressed = 0x11 then ({ typingScreen with decimalPoint := true }, value)
  else (typingScreen, value)

/-- `menu_ClampSelectedDigit` -/
def clampSelectedDigit (typingScreen : TypingScreen F) (value : EditableValue F) :
    TypingScreen F :=
  let numIntegerDigits := getNumDigitsI (CFloat.toInt value.floatValue)
  let numDecimalDigits := getNumDecimals value.floatValue
  let selectedDigit :=
    if numIntegerDigits ≤ typingScreen.selectedDigit then numIntegerDigits - 1
    else typingScreen.selectedDigit
  { typingScreen with
    selectedDigit :=
      if selectedDigit < -numDecimalDigits then -numDecimalDigits else selectedDigit }

/-- The rotation part of `menu_ProcessEncoder`: the value after it. -/
def turn (typingScreen : TypingScreen F) (value : EditableValue F) (encoder : Int8) :
    EditableValue F :=
  let i := value.floatValue + CFloat.ofInt encoder.toInt *
    CFloat.pow10f (CFloat.ofInt typingScreen.selectedDigit)
  if encoder ≠ 0 ∧ value.minValue ≤ i ∧ i ≤ value.maxValue then { value with floatValue := i }
  else value

variable (typingScreen : TypingScreen F)

theorem startEntry_keeps (value : EditableValue F) :
    typingScreen.KeepsTarget (typingScreen.startEntry value) := by
  unfold startEntry
  split
  · exact ⟨rfl, rfl⟩
  · exact ⟨rfl, rfl⟩

theorem typeDigit_keeps (digit : Nat) : typingScreen.KeepsTarget (typingScreen.typeDigit digit) := by
  unfold typeDigit
  split
  · exact ⟨rfl, rfl⟩
  · exact ⟨rfl, rfl⟩

theorem confirm_keeps (value : EditableValue F) :
    typingScreen.KeepsTarget (typingScreen.confirm value).1 := by
  unfold confirm
  split
  · exact ⟨rfl, rfl⟩
  split
  · simp only
    split
    · exact ⟨rfl, rfl⟩
    · exact ⟨rfl, rfl⟩
  · exact ⟨rfl, rfl⟩

theorem typeKey_keeps (value : EditableValue F) (keyPressed : UInt8) :
    typingScreen.KeepsTarget (typingScreen.typeKey value keyPressed).1 := by
  unfold typeKey
  split
  · exact typingScreen.typeDigit_keeps keyPressed.toNat
  split
  · exact ⟨rfl, rfl⟩
  split
  · exact typingScreen.confirm_keeps value
  split
  · exact ⟨rfl, rfl⟩
  · exact ⟨rfl, rfl⟩

theorem clampSelectedDigit_keeps (value : EditableValue F) :
    typingScreen.KeepsTarget (typingScreen.clampSelectedDigit value) := ⟨rfl, rfl⟩

end TypingScreen

/-- The typing screen and the variables it edits. -/
structure Editor (F : Type) where
  globals : Globals F
  typingScreen : TypingScreen F
  faulted : Bool := false

namespace Editor

variable {F : Type}

/-- The variable the screen points to. -/
def target (editor : Editor F) : Option ValueRef :=
  match editor.typingScreen.value with
  | some (.variable ref) => some ref
  | _ => none

variable [CFloat F]

/-- `menu_ProcessKeypadPress` -/
def processKeypadPress (editor : Editor F) (keyPressed : UInt8) : Editor F :=
  if editor.typingScreen.enabled then
    match editor.target with
    | none => { editor with faulted := true }
    | some ref =>
        let value := editor.globals.value ref
        let (typingScreen, value) := (editor.typingScreen.startEntry value).typeKey value keyPressed
        { editor with
          globals := editor.globals.setValue ref value
          typingScreen := typingScreen.clampSelectedDigit value }
  else editor

/-- `menu_ProcessEncoder` -/
def processEncoder (editor : Editor F) (btnEncoder : UInt8) (encoder : Int8) : Editor F :=
  if editor.typingScreen.enabled then
    match editor.target with
    | none => { editor with faulted := true }
    | some ref =>
        let value := editor.typingScreen.turn (editor.globals.value ref) encoder
        { editor with
          globals := editor.globals.setValue ref value
          typingScreen := (editor.typingScreen.moveDigit btnEncoder).clampSelectedDigit value }
  else editor

/-- An enabled screen points to a variable. -/
def Aimed (editor : Editor F) : Prop :=
  editor.typingScreen.enabled = true →
    ∃ ref, editor.typingScreen.value = some (.variable ref)

/-- An edit stores at most to the variable the enabled screen points to, and
leaves the screen on it. -/
structure Edits (before after : Editor F) : Prop where
  target : before.typingScreen.KeepsTarget after.typingScreen
  faulted : after.faulted = before.faulted
  globals : after.globals = before.globals ∨
    before.typingScreen.enabled = true ∧ ∃ ref value,
      before.typingScreen.value = some (.variable ref) ∧
        after.globals = before.globals.setValue ref value

variable {editor : Editor F}

theorem processKeypadPress_edits (aimed : editor.Aimed) (keyPressed : UInt8) :
    editor.Edits (editor.processKeypadPress keyPressed) := by
  unfold processKeypadPress
  split
  · rename_i enabled
    obtain ⟨ref, value⟩ := aimed enabled
    simp only [target, value]
    refine ⟨?_, rfl, .inr ⟨enabled, ref, _, value, rfl⟩⟩
    exact (editor.typingScreen.startEntry_keeps (editor.globals.value ref)).trans
      ((TypingScreen.typeKey_keeps _ (editor.globals.value ref) keyPressed).trans
        (TypingScreen.clampSelectedDigit_keeps _ _))
  · exact ⟨⟨rfl, rfl⟩, rfl, .inl rfl⟩

theorem processEncoder_edits (aimed : editor.Aimed) (btnEncoder : UInt8) (encoder : Int8) :
    editor.Edits (editor.processEncoder btnEncoder encoder) := by
  unfold processEncoder
  split
  · rename_i enabled
    obtain ⟨ref, value⟩ := aimed enabled
    simp only [target, value]
    refine ⟨?_, rfl, .inr ⟨enabled, ref, _, value, rfl⟩⟩
    exact (editor.typingScreen.moveDigit_keeps btnEncoder).trans
      (TypingScreen.clampSelectedDigit_keeps _ _)
  · exact ⟨⟨rfl, rfl⟩, rfl, .inl rfl⟩

end Editor

end DDSFunctionGen.Menu

import DDSFunctionGen.Menu.Draw

/-!
# Who writes the variables

Apart from `Compute`, the menu changes its variables in four ways: it revises an
editable value, steps an output impedance, changes switches of a channel, or
turns a sweep on or off.
-/

namespace DDSFunctionGen.Menu

variable {F : Type} [CFloat F]

/-- The value lies within its declared bounds. -/
def EditableValue.InRange (value : EditableValue F) : Prop :=
  value.minValue ≤ value.floatValue ∧ value.floatValue ≤ value.maxValue

/-- A new value within the same bounds and with the same units, or the same value. -/
structure EditableValue.Revises (before after : EditableValue F) : Prop where
  maxValue : after.maxValue = before.maxValue
  minValue : after.minValue = before.minValue
  availableMeasuringUnits : after.availableMeasuringUnits = before.availableMeasuringUnits
  floatValue : after.floatValue = before.floatValue ∨ after.InRange

/-- The two differ at most in wave types, in the relay and in what is on. -/
structure DDSVariables.Switches (before after : DDSVariables F) : Prop where
  value : ∀ field, after.value field = before.value field
  outputEmpedance : after.outputEmpedance = before.outputEmpedance

/-- `on.selected ? 0 : 1` -/
def SweepVariables.toggle (sweep : SweepVariables F) : SweepVariables F :=
  { sweep with on := { sweep.on with selected := if sweep.on.selected ≠ 0 then 0 else 1 } }

/-- One write to the variables. -/
inductive Write : Globals F → Globals F → Prop
  | value (globals : Globals F) (ref : ValueRef) {value : EditableValue F}
      (revises : (globals.value ref).Revises value) : Write globals (globals.setValue ref value)
  | outputEmpedance (globals : Globals F) (channel : Channel) (value : F) :
      Write globals (globals.setDDS channel
        { globals.dds channel with
          outputEmpedance := addToStringArray (globals.dds channel).outputEmpedance value })
  | switches (globals : Globals F) (channel : Channel) {dds : DDSVariables F}
      (switches : (globals.dds channel).Switches dds) : Write globals (globals.setDDS channel dds)
  | sweep (globals : Globals F) (channel : Channel) :
      Write globals (globals.setSweep channel (globals.sweep channel).toggle)

namespace EditableValue.Revises

theorem refl (value : EditableValue F) : value.Revises value := ⟨rfl, rfl, rfl, .inl rfl⟩

theorem add (value : EditableValue F) (amount : F) :
    value.Revises (addToEditableValue value amount) := by
  rw [addToEditableValue]
  split
  · rename_i inRange
    exact ⟨rfl, rfl, rfl, .inr ⟨inRange.2, inRange.1⟩⟩
  · exact refl value

theorem turn (typingScreen : TypingScreen F) (value : EditableValue F) (encoder : Int8) :
    value.Revises (typingScreen.turn value encoder) := by
  rw [TypingScreen.turn]
  split
  · rename_i inRange
    exact ⟨rfl, rfl, rfl, .inr inRange.2⟩
  · exact refl value

theorem confirm (typingScreen : TypingScreen F) (value : EditableValue F) :
    value.Revises (typingScreen.confirm value).2 := by
  rw [TypingScreen.confirm]
  split
  · exact refl value
  split
  · simp only
    split
    · rename_i inRange
      exact ⟨rfl, rfl, rfl, .inr inRange⟩
    · exact refl value
  · exact refl value

theorem typeKey (typingScreen : TypingScreen F) (value : EditableValue F) (keyPressed : UInt8) :
    value.Revises (typingScreen.typeKey value keyPressed).2 := by
  rw [TypingScreen.typeKey]
  split_ifs
  · exact refl value
  · exact refl value
  · exact confirm typingScreen value
  · exact refl value
  · exact refl value

end EditableValue.Revises

end DDSFunctionGen.Menu

import DDSFunctionGen.Menu.Writes

/-!
# The ranges of the variables

Every value declares bounds that never change, and every write compares with them
before it stores.
-/

namespace DDSFunctionGen.Menu

open Relation

variable {F : Type} [CFloat F]

/-- The selected entry is one of the strings. -/
def StringArray.Selects (stringArray : StringArray) : Prop :=
  0 ≤ stringArray.selected ∧ stringArray.selected < stringArray.count

/-- The two values declare the same bounds. -/
structure EditableValue.SameBounds (value declared : EditableValue F) : Prop where
  maxValue : value.maxValue = declared.maxValue
  minValue : value.minValue = declared.minValue

/-- Every value lies within its bounds, and every string array selects a string. -/
structure Globals.InRange (globals : Globals F) : Prop where
  value : ∀ ref, (globals.value ref).InRange
  outputEmpedance : ∀ channel, (globals.dds channel).outputEmpedance.Selects
  on : ∀ channel, (globals.sweep channel).on.Selects

/-- What holds of the variables of a channel: the bounds are as declared. -/
structure DDSVariables.Valid (dds : DDSVariables F) : Prop where
  inRange : ∀ field, (dds.value field).InRange
  bounds : ∀ field, (dds.value field).SameBounds (ddsDefaults.value field)
  outputEmpedance : dds.outputEmpedance.Selects

/-- What holds of a sweep. -/
structure SweepVariables.Valid (sweep : SweepVariables F) : Prop where
  inRange : ∀ field, (sweep.value field).InRange
  bounds : ∀ field, (sweep.value field).SameBounds (sweepDefaults.value field)
  on : sweep.on.Selects
  count : sweep.on.count = 2

/-- What holds of the variables. -/
structure Globals.Valid (globals : Globals F) : Prop where
  dds : ∀ channel, (globals.dds channel).Valid
  sweep : ∀ channel, (globals.sweep channel).Valid
  backlight : globals.backlight.InRange

theorem Globals.Valid.inRange {globals : Globals F} (valid : globals.Valid) : globals.InRange := by
  refine ⟨fun ref => ?_, fun channel => (valid.dds channel).outputEmpedance,
    fun channel => (valid.sweep channel).on⟩
  cases ref with
  | dds channel field => exact (valid.dds channel).inRange field
  | sweep channel field => exact (valid.sweep channel).inRange field
  | backlight => exact valid.backlight

/-! ## Writes -/

omit [CFloat F] in
theorem DDSVariables.value_setValue (dds : DDSVariables F) (field other : DDSField)
    (value : EditableValue F) :
    (dds.setValue field value).value other = if other = field then value else dds.value other := by
  cases field <;> cases other <;> rfl

omit [CFloat F] in
theorem SweepVariables.value_setValue (sweep : SweepVariables F) (field other : SweepField)
    (value : EditableValue F) :
    (sweep.setValue field value).value other =
      if other = field then value else sweep.value other := by
  cases field <;> cases other <;> rfl

omit [CFloat F] in
theorem DDSVariables.setValue_outputEmpedance (dds : DDSVariables F) (field : DDSField)
    (value : EditableValue F) : (dds.setValue field value).outputEmpedance = dds.outputEmpedance := by
  cases field <;> rfl

omit [CFloat F] in
theorem SweepVariables.setValue_on (sweep : SweepVariables F) (field : SweepField)
    (value : EditableValue F) : (sweep.setValue field value).on = sweep.on := by
  cases field <;> rfl

theorem EditableValue.Revises.inRange {before after : EditableValue F}
    (revises : before.Revises after) (inRange : before.InRange) : after.InRange := by
  rcases revises.floatValue with same | within
  · rw [InRange, same, revises.maxValue, revises.minValue]
    exact inRange
  · exact within

theorem EditableValue.Revises.sameBounds {before after declared : EditableValue F}
    (revises : before.Revises after) (bounds : before.SameBounds declared) :
    after.SameBounds declared :=
  ⟨revises.maxValue.trans bounds.maxValue, revises.minValue.trans bounds.minValue⟩

theorem addToStringArray_selects {stringArray : StringArray} (selects : stringArray.Selects)
    (value : F) : (addToStringArray stringArray value).Selects := by
  rw [addToStringArray]
  split
  · rename_i within
    exact ⟨within.2, within.1⟩
  · exact selects

omit [CFloat F] in
/-- A store keeps what holds of every field, if it holds of the stored value. -/
theorem holds_of_stored {Field : Type} [DecidableEq Field] {before after : Field → EditableValue F}
    {field : Field} {value : EditableValue F}
    (stored : ∀ other, after other = if other = field then value else before other)
    (holds : Field → EditableValue F → Prop) (new : holds field value)
    (old : ∀ other, holds other (before other)) (other : Field) : holds other (after other) := by
  rw [stored]
  split_ifs with same
  · rw [same]
    exact new
  · exact old other

theorem DDSVariables.Valid.setValue {dds : DDSVariables F} (valid : dds.Valid) {field : DDSField}
    {value : EditableValue F} (revises : (dds.value field).Revises value) :
    (dds.setValue field value).Valid := by
  refine ⟨fun other => ?_, fun other => ?_, ?_⟩
  · exact holds_of_stored (dds.value_setValue field · value) (fun _ => EditableValue.InRange)
      (revises.inRange (valid.inRange field)) valid.inRange other
  · exact holds_of_stored (dds.value_setValue field · value)
      (fun field stored => stored.SameBounds (ddsDefaults.value field))
      (revises.sameBounds (valid.bounds field)) valid.bounds other
  · rw [setValue_outputEmpedance]
    exact valid.outputEmpedance

theorem SweepVariables.Valid.setValue {sweep : SweepVariables F} (valid : sweep.Valid)
    {field : SweepField} {value : EditableValue F} (revises : (sweep.value field).Revises value) :
    (sweep.setValue field value).Valid := by
  refine ⟨fun other => ?_, fun other => ?_, ?_, ?_⟩
  · exact holds_of_stored (sweep.value_setValue field · value) (fun _ => EditableValue.InRange)
      (revises.inRange (valid.inRange field)) valid.inRange other
  · exact holds_of_stored (sweep.value_setValue field · value)
      (fun field stored => stored.SameBounds (sweepDefaults.value field))
      (revises.sameBounds (valid.bounds field)) valid.bounds other
  · rw [setValue_on]
    exact valid.on
  · rw [setValue_on]
    exact valid.count

theorem SweepVariables.Valid.toggle {sweep : SweepVariables F} (valid : sweep.Valid) :
    sweep.toggle.Valid := by
  refine ⟨fun field => ?_, fun field => ?_, ?_, valid.count⟩
  · have inRange := valid.inRange field
    cases field <;> exact inRange
  · have bounds := valid.bounds field
    cases field <;> exact bounds
  · rw [SweepVariables.toggle, StringArray.Selects]
    simp only [valid.count]
    split_ifs
    · decide
    · decide

theorem DDSVariables.Switches.valid {before after : DDSVariables F}
    (switches : before.Switches after) (valid : before.Valid) : after.Valid := by
  refine ⟨fun field => ?_, fun field => ?_, ?_⟩
  · rw [switches.value]
    exact valid.inRange field
  · rw [switches.value]
    exact valid.bounds field
  · rw [switches.outputEmpedance]
    exact valid.outputEmpedance

theorem Globals.Valid.setDDS {globals : Globals F} (valid : globals.Valid) {channel : Channel}
    {dds : DDSVariables F} (new : dds.Valid) : (globals.setDDS channel dds).Valid := by
  refine ⟨fun other => ?_, valid.sweep, valid.backlight⟩
  simp only [Globals.setDDS]
  split_ifs
  · exact new
  · exact valid.dds other

theorem Globals.Valid.setSweep {globals : Globals F} (valid : globals.Valid) {channel : Channel}
    {sweep : SweepVariables F} (new : sweep.Valid) : (globals.setSweep channel sweep).Valid := by
  refine ⟨valid.dds, fun other => ?_, valid.backlight⟩
  simp only [Globals.setSweep]
  split_ifs
  · exact new
  · exact valid.sweep other

/-- A write keeps every value in its range. -/
theorem Write.valid {before after : Globals F} (write : Write before after)
    (valid : before.Valid) : after.Valid := by
  cases write with
  | value ref revises =>
      cases ref with
      | dds channel field => exact valid.setDDS ((valid.dds channel).setValue revises)
      | sweep channel field => exact valid.setSweep ((valid.sweep channel).setValue revises)
      | backlight => exact ⟨valid.dds, valid.sweep, revises.inRange valid.backlight⟩
  | outputEmpedance channel value =>
      have dds := valid.dds channel
      refine valid.setDDS ⟨fun field => ?_, fun field => ?_,
        addToStringArray_selects dds.outputEmpedance value⟩
      · have inRange := dds.inRange field
        cases field <;> exact inRange
      · have bounds := dds.bounds field
        cases field <;> exact bounds
  | switches channel switches => exact valid.setDDS (switches.valid (valid.dds channel))
  | sweep channel => exact valid.setSweep (valid.sweep channel).toggle

theorem writes_valid {before after : Globals F} (writes : ReflTransGen Write before after)
    (valid : before.Valid) : after.Valid := by
  induction writes with
  | refl => exact valid
  | tail _ write inductionHypothesis => exact write.valid inductionHypothesis

end DDSFunctionGen.Menu

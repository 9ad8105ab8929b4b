import DDSFunctionGen.Menu.ConfirmedEntry
import DDSFunctionGen.Menu.Ranges
import DDSFunctionGen.Menu.SweepCompute

/-!
# The selected measuring unit

`menu_ProcessKeypadPress` checks a unit key against the count of the units, which
is stored apart from their tables. The count of the percentages is that of the
amplitudes, and the tables of the amplitudes end in an entry never defined.
-/

namespace DDSFunctionGen.Menu

open DDSFunctionGen.Semantics Relation

variable {F : Type} [CFloat F]

/-- The three tables define an entry at the index: a unit, its name and a positive
multiplier. -/
structure AvMeasuringUnits.Defines (units : AvMeasuringUnits F) (index : Nat) : Prop where
  unit : ∃ unit, units.measuringUnitsEnums[index]? = some unit
  name : ∃ name, units.measuringUnitsNames[index]? = some (some name)
  multiplier : ∃ factor, units.measuringUnitsMultipliers[index]? = some factor ∧
    CFloat.ofInt 0 < factor

namespace ValueRef

/-- The units a value is declared with. -/
def measuringUnits (ref : ValueRef) : AvMeasuringUnits F :=
  (Globals.defaults.value ref).availableMeasuringUnits

/-- The unit keys that pass the check without a unit: B and C on a percentage or an
angle, C on an amplitude. -/
def MissesUnit : ValueRef → UInt8 → Prop
  | .dds _ .dcOffset, keyPressed | .dds _ .phaseOffset, keyPressed
  | .dds _ .amModulationIndex, keyPressed | .dds _ .pmModulationIndex, keyPressed =>
      keyPressed = 0x0B ∨ keyPressed = 0x0C
  | .dds _ .amplitude, keyPressed => keyPressed = 0x0C
  | _, _ => False

end ValueRef

/-! ## The tables -/

section Tables

variable (positive : ∀ value : Int, 0 < value → CFloat.ofInt 0 < (CFloat.ofInt value : F))
include positive

theorem frequencyMeasuringUnits_defines {index : Nat} (announced : index < 3) :
    (frequencyMeasuringUnits : AvMeasuringUnits F).Defines index := by
  match index, announced with
  | 0, _ => exact ⟨⟨_, rfl⟩, ⟨_, rfl⟩, ⟨_, rfl, positive 1 (by decide)⟩⟩
  | 1, _ => exact ⟨⟨_, rfl⟩, ⟨_, rfl⟩, ⟨_, rfl, positive 1000 (by decide)⟩⟩
  | 2, _ => exact ⟨⟨_, rfl⟩, ⟨_, rfl⟩, ⟨_, rfl, positive 1000000 (by decide)⟩⟩

theorem amplitudeMeasuringUnits_defines_iff {index : Nat} (announced : index < 3) :
    (amplitudeMeasuringUnits : AvMeasuringUnits F).Defines index ↔ index ≠ 2 := by
  match index, announced with
  | 0, _ =>
      exact iff_of_true ⟨⟨_, rfl⟩, ⟨_, rfl⟩, ⟨_, rfl, positive 1 (by decide)⟩⟩ (by decide)
  | 1, _ =>
      exact iff_of_true ⟨⟨_, rfl⟩, ⟨_, rfl⟩, ⟨_, rfl, positive 1000 (by decide)⟩⟩ (by decide)
  | 2, _ => exact iff_of_false (fun defines => nomatch defines.name) (by decide)

theorem percentageMeasuringUnits_defines_iff {index : Nat} (announced : index < 3) :
    (percentageMeasuringUnits : AvMeasuringUnits F).Defines index ↔ index = 0 := by
  match index, announced with
  | 0, _ => exact iff_of_true ⟨⟨_, rfl⟩, ⟨_, rfl⟩, ⟨_, rfl, positive 1 (by decide)⟩⟩ rfl
  | 1, _ => exact iff_of_false (fun defines => nomatch defines.unit) (by decide)
  | 2, _ => exact iff_of_false (fun defines => nomatch defines.unit) (by decide)

/-- The first unit of every value is defined. -/
theorem ValueRef.measuringUnits_defines_first {ref : ValueRef} (units : ref ≠ .backlight) :
    (ref.measuringUnits : AvMeasuringUnits F).Defines 0 := by
  cases ref with
  | dds channel field =>
      cases field with
      | frequency | amModulationFrequency | fmModulationFrequency | fmFrequencyDeviation
      | pmModulationFrequency => exact frequencyMeasuringUnits_defines positive (by decide)
      | amplitude => exact (amplitudeMeasuringUnits_defines_iff positive (by decide)).2 (by decide)
      | dcOffset | phaseOffset | amModulationIndex | pmModulationIndex =>
          exact (percentageMeasuringUnits_defines_iff positive (by decide)).2 rfl
  | sweep channel field =>
      cases field <;> exact frequencyMeasuringUnits_defines positive (by decide)
  | backlight => exact absurd rfl units

/-- A unit key that passes the check selects a defined unit unless the value misses
it. -/
theorem ValueRef.measuringUnits_defines_iff {ref : ValueRef} {keyPressed : UInt8} {index : Nat}
    (key : keyPressed.toNat = 0x0A + index) (units : ref ≠ .backlight)
    (announced : index < (ref.measuringUnits : AvMeasuringUnits F).measuringUnitsCount) :
    (ref.measuringUnits : AvMeasuringUnits F).Defines index ↔ ¬ ref.MissesUnit keyPressed := by
  have isKey (value : UInt8) : keyPressed = value ↔ 0x0A + index = value.toNat := by
    rw [← UInt8.toNat_inj, key]
  cases ref with
  | dds channel field =>
      cases field with
      | frequency | amModulationFrequency | fmModulationFrequency | fmFrequencyDeviation
      | pmModulationFrequency =>
          exact iff_of_true (frequencyMeasuringUnits_defines positive announced) id
      | amplitude =>
          refine (amplitudeMeasuringUnits_defines_iff positive announced).trans (not_congr ?_)
          rw [MissesUnit, isKey]
          simp only [UInt8.reduceToNat]
          omega
      | dcOffset | phaseOffset | amModulationIndex | pmModulationIndex =>
          have small : index < 3 := announced
          refine (percentageMeasuringUnits_defines_iff positive announced).trans ?_
          rw [MissesUnit, isKey, isKey]
          simp only [UInt8.reduceToNat]
          omega
  | sweep channel field =>
      refine iff_of_true ?_ ?_
      · cases field <;> exact frequencyMeasuringUnits_defines positive announced
      · cases field <;> exact id
  | backlight => exact absurd rfl units

end Tables

/-! ## The units of the variables -/

omit [CFloat F] in
/-- A value stored to changes no other value. -/
theorem Globals.value_setValue_of_ne (globals : Globals F) {ref other : ValueRef}
    (different : other ≠ ref) (value : EditableValue F) :
    (globals.setValue ref value).value other = globals.value other := by
  cases ref with
  | dds channel field =>
      cases other with
      | dds otherChannel otherField =>
          simp only [Globals.value, setValue, setDDS]
          split_ifs with same
          · rw [same, DDSVariables.value_setValue, if_neg]
            rintro rfl
            exact different (same ▸ rfl)
          · rfl
      | sweep | backlight => rfl
  | sweep channel field =>
      cases other with
      | sweep otherChannel otherField =>
          simp only [Globals.value, setValue, setSweep]
          split_ifs with same
          · rw [same, SweepVariables.value_setValue, if_neg]
            rintro rfl
            exact different (same ▸ rfl)
          · rfl
      | dds | backlight => rfl
  | backlight =>
      cases other with
      | dds | sweep => rfl
      | backlight => exact absurd rfl different

/-- The variables of a channel have the units they were declared with. -/
def DDSVariables.KeepsUnits (dds : DDSVariables F) : Prop :=
  ∀ field, (dds.value field).availableMeasuringUnits =
    (ddsDefaults.value field).availableMeasuringUnits

/-- Every value has the units it was declared with. -/
def Globals.KeepsUnits (globals : Globals F) : Prop :=
  ∀ ref, (globals.value ref).availableMeasuringUnits = ref.measuringUnits

theorem Globals.KeepsUnits.setDDS {globals : Globals F} (keeps : globals.KeepsUnits)
    {channel : Channel} {dds : DDSVariables F} (new : dds.KeepsUnits) :
    (globals.setDDS channel dds).KeepsUnits := by
  intro ref
  cases ref with
  | dds other field =>
      simp only [value, Globals.setDDS]
      split_ifs
      · exact new field
      · exact keeps (.dds other field)
  | sweep other field => exact keeps (.sweep other field)
  | backlight => exact keeps .backlight

/-- A write keeps the units. -/
theorem Write.keepsUnits {before after : Globals F} (write : Write before after)
    (keeps : before.KeepsUnits) : after.KeepsUnits := by
  cases write with
  | value ref revises =>
      intro other
      by_cases same : other = ref
      · rw [same, Globals.value_setValue]
        exact revises.availableMeasuringUnits.trans (keeps ref)
      · rw [before.value_setValue_of_ne same]
        exact keeps other
  | outputEmpedance channel value =>
      refine keeps.setDDS fun field => ?_
      have before := keeps (.dds channel field)
      cases field <;> exact before
  | switches channel switches =>
      refine keeps.setDDS fun field => ?_
      rw [switches.value]
      exact keeps (.dds channel field)
  | sweep channel =>
      intro ref
      cases ref with
      | dds other field => exact keeps (.dds other field)
      | sweep other field =>
          have before := keeps (.sweep other field)
          simp only [Globals.value, Globals.setSweep]
          split_ifs with same
          · subst same
            cases field <;> exact before
          · exact before
      | backlight => exact keeps .backlight

theorem writes_keepsUnits {before after : Globals F} (writes : ReflTransGen Write before after)
    (keeps : before.KeepsUnits) : after.KeepsUnits := by
  induction writes with
  | refl => exact keeps
  | tail _ write inductionHypothesis => exact write.keepsUnits inductionHypothesis

/-! ## Keys -/

namespace TypingScreen

variable (typingScreen : TypingScreen F)

theorem startEntry_measuringUnitIndex (value : EditableValue F) :
    (typingScreen.startEntry value).measuringUnitIndex = typingScreen.measuringUnitIndex := by
  unfold startEntry
  split
  · rfl
  · rfl

theorem typeDigit_measuringUnitIndex (digit : Nat) :
    (typingScreen.typeDigit digit).measuringUnitIndex = typingScreen.measuringUnitIndex := by
  unfold typeDigit
  split
  · rfl
  · rfl

theorem confirm_measuringUnitIndex (value : EditableValue F) :
    (typingScreen.confirm value).1.measuringUnitIndex = typingScreen.measuringUnitIndex := by
  unfold confirm
  split
  · rfl
  split
  · dsimp only
    split
    · rfl
    · rfl
  · rfl

/-- The key is a unit key of an announced unit. -/
def SelectsUnit (value : EditableValue F) (keyPressed : UInt8) : Prop :=
  0x0A ≤ keyPressed.toNat ∧ keyPressed.toNat < 0x10 ∧
    keyPressed.toNat - 0x0A < value.availableMeasuringUnits.measuringUnitsCount

instance (value : EditableValue F) (keyPressed : UInt8) :
    Decidable (SelectsUnit value keyPressed) :=
  inferInstanceAs (Decidable (_ ∧ _ ∧ _))

/-- The unit keys that pass the check select the unit, the other keys keep it. -/
theorem typeKey_measuringUnitIndex (value : EditableValue F) (keyPressed : UInt8) :
    (typingScreen.typeKey value keyPressed).1.measuringUnitIndex =
      if SelectsUnit value keyPressed then keyPressed.toNat - 0x0A
      else typingScreen.measuringUnitIndex := by
  by_cases digit : keyPressed < 0x0A
  · have noUnit : ¬ SelectsUnit value keyPressed := fun unit => absurd unit.1 (Nat.not_le.2 digit)
    rw [if_neg noUnit, typeKey, if_pos digit]
    exact typingScreen.typeDigit_measuringUnitIndex keyPressed.toNat
  · have above : 0x0A ≤ keyPressed.toNat := Nat.not_lt.1 digit
    by_cases unit : keyPressed < 0x10
    · have below : keyPressed.toNat < 0x10 := unit
      have index : (keyPressed - 0x0A).toNat = keyPressed.toNat - 0x0A :=
        UInt8.toNat_sub_of_le _ _ above
      rw [typeKey, if_neg digit, if_pos unit]
      simp only [typeUnit, index, SelectsUnit, above, below, true_and, decide_eq_true_eq]
    · have noUnit : ¬ SelectsUnit value keyPressed := fun selects => unit selects.2.1
      rw [if_neg noUnit, typeKey, if_neg digit, if_neg unit]
      split_ifs
      · exact typingScreen.confirm_measuringUnitIndex value
      · rfl
      · rfl

end TypingScreen

/-- A key whose unit the value misses passes the check. -/
theorem ValueRef.MissesUnit.selectsUnit {ref : ValueRef} {keyPressed : UInt8}
    {value : EditableValue F} (misses : ref.MissesUnit keyPressed)
    (units : value.availableMeasuringUnits = ref.measuringUnits) :
    TypingScreen.SelectsUnit value keyPressed := by
  rw [TypingScreen.SelectsUnit, units]
  cases ref with
  | dds channel field =>
      cases field with
      | frequency | amModulationFrequency | fmModulationFrequency | fmFrequencyDeviation
      | pmModulationFrequency => exact misses.elim
      | amplitude =>
          obtain rfl : keyPressed = 0x0C := misses
          exact ⟨by decide, by decide, (by decide : 2 < 3)⟩
      | dcOffset | phaseOffset | amModulationIndex | pmModulationIndex =>
          obtain rfl | rfl : keyPressed = 0x0B ∨ keyPressed = 0x0C := misses
          · exact ⟨by decide, by decide, (by decide : 1 < 3)⟩
          · exact ⟨by decide, by decide, (by decide : 2 < 3)⟩
  | sweep channel field => cases field <;> exact misses.elim
  | backlight => exact misses.elim

namespace MenuState

/-- The unit selected for a value of a channel or of a sweep exists. -/
def UnitExists (menu : MenuState F) : Prop :=
  ∀ ref, menu.target = some ref → ref ≠ .backlight →
    (menu.globals.value ref).availableMeasuringUnits.Defines menu.typingScreen.measuringUnitIndex

/-- No unit key reaches a value that misses its unit. -/
def SelectsExistingUnit (menu : MenuState F) : MenuEvent → Prop
  | .keypad keyPressed => ∀ ref, menu.typedValue = some ref → ¬ ref.MissesUnit keyPressed
  | _ => True

/-- The unit selected exists before a run and after each of its events. -/
def UnitAlwaysExists (card : SdCard.Card) (menu : MenuState F) (events : List MenuEvent) : Prop :=
  menu.UnitExists ∧
    Along (step card) (fun menu event => (menu.step card event).UnitExists) menu events

/-- The variables, and what `Compute` saved of them, have their declared units. -/
structure KeepsUnits (menu : MenuState F) : Prop where
  globals : menu.globals.KeepsUnits
  saved : ∀ channel dds, menu.savedDDSVariables channel = some dds → dds.KeepsUnits

theorem KeepsUnits.compute {menu : MenuState F} (keeps : menu.KeepsUnits) :
    menu.compute.KeepsUnits := by
  have current (channel : Channel) : (menu.globals.dds channel).KeepsUnits :=
    fun field => keeps.globals (.dds channel field)
  have before (channel : Channel) :
      ((menu.savedDDSVariables channel).getD (menu.globals.dds channel)).KeepsUnits := by
    cases saved : menu.savedDDSVariables channel with
    | none => exact current channel
    | some dds => exact keeps.saved channel dds saved
  rw [compute_channelwise]
  refine ⟨fun ref => ?_, fun channel dds saved => ?_⟩
  · cases ref with
    | dds channel field =>
        simp only [Globals.value, computedDDS]
        split_ifs
        · have same := current channel field
          cases field <;> exact same
        · exact before channel field
    | sweep channel field => exact keeps.globals (.sweep channel field)
    | backlight => exact keeps.globals .backlight
  · simp only [computedSaved] at saved
    split_ifs at saved
    · obtain rfl := Option.some.inj saved
      exact before channel

/-- No event changes the units of a value. -/
theorem KeepsUnits.step (card : SdCard.Card) {menu : MenuState F} (keeps : menu.KeepsUnits)
    (event : MenuEvent) : (menu.step card event).KeepsUnits := by
  rcases menu.step_computes_or_writes card event with ⟨-, -, globals, saved⟩ | writes
  · have computed := keeps.compute
    exact ⟨globals ▸ computed.globals, saved ▸ computed.saved⟩
  · refine ⟨writes_keepsUnits writes.globals keeps.globals, ?_⟩
    rw [writes.saved]
    exact keeps.saved

theorem Changes.keepsUnit {menu after : MenuState F} (changes : menu.Changes after) :
    menu.typingScreen.KeepsUnit after.typingScreen := by
  induction changes with
  | refl => exact .inr ⟨rfl, rfl⟩
  | tail _ change kept =>
      cases change with
      | typing _ unit =>
          rcases unit with first | ⟨value, index⟩
          · exact .inl first
          · rcases kept with first | ⟨value', index'⟩
            · exact .inl (index.trans first)
            · exact .inr ⟨value.trans value', index.trans index'⟩
      | write | select | fill | point | other => exact kept

/-- Nothing but the keypad selects a unit other than the first. -/
theorem step_keepsUnit (card : SdCard.Card) (menu : MenuState F) {event : MenuEvent}
    (noKey : ∀ keyPressed, event ≠ .keypad keyPressed) :
    menu.typingScreen.KeepsUnit (menu.step card event).typingScreen := by
  cases event with
  | keypad keyPressed => exact absurd rfl (noKey keyPressed)
  | redraw =>
      obtain ⟨before, changes, redraws⟩ := menu.redraw_changes card
      obtain ⟨globals, saved, sdPage, drawn⟩ := before.draw_eq card
      have kept := changes.keepsUnit
      rw [show menu.step card .redraw = menu.redraw card from rfl, redraws, drawn]
      exact kept
  | encoder | display | enable => exact Changes.keepsUnit (menu.step_changes card nofun nofun)

/-- With the declared units, what exists is decided by the screen alone. -/
theorem KeepsUnits.unitExists_iff {menu : MenuState F} (keeps : menu.KeepsUnits) :
    menu.UnitExists ↔ ∀ ref, menu.target = some ref → ref ≠ .backlight →
      (ref.measuringUnits : AvMeasuringUnits F).Defines menu.typingScreen.measuringUnitIndex := by
  refine forall_congr' fun ref => ?_
  rw [keeps.globals ref]

omit [CFloat F] in
theorem target_congr {menu after : MenuState F}
    (same : after.typingScreen.value = menu.typingScreen.value) : after.target = menu.target := by
  rw [Editor.target, Editor.target, same]

/-- A key that nothing types to leaves the unit. -/
theorem untyped_keepsUnit (card : SdCard.Card) {menu : MenuState F}
    (typed : menu.typedValue = none) (keyPressed : UInt8) :
    menu.typingScreen.KeepsUnit (menu.step card (.keypad keyPressed)).typingScreen := by
  obtain ⟨-, typingScreen⟩ := btnKeypad_untyped typed keyPressed
  have screen : (menu.step card (.keypad keyPressed)).typingScreen =
      (menu.btnKeypad keyPressed).typingScreen := rfl
  rw [screen, typingScreen]
  exact .inr ⟨rfl, rfl⟩

/-- A key typed to a value keeps the value, and selects a unit if it is a unit key of
the value. -/
theorem typed_unit (card : SdCard.Card) {menu : MenuState F} {ref : ValueRef}
    (typed : menu.typedValue = some ref) (keyPressed : UInt8) :
    (menu.step card (.keypad keyPressed)).target = some ref ∧
      (menu.step card (.keypad keyPressed)).typingScreen.measuringUnitIndex =
        if TypingScreen.SelectsUnit (menu.globals.value ref) keyPressed then
          keyPressed.toNat - 0x0A
        else menu.typingScreen.measuringUnitIndex := by
  obtain ⟨-, typingScreen⟩ := btnKeypad_typed typed keyPressed
  have screen : (menu.step card (.keypad keyPressed)).typingScreen =
      (menu.btnKeypad keyPressed).typingScreen := rfl
  have keptValue := (menu.typingScreen.startEntry_keeps (menu.globals.value ref)).trans
    ((menu.typingScreen.startEntry (menu.globals.value ref)).typeKey_keeps
      (menu.globals.value ref) keyPressed)
  constructor
  · rw [← target_of_typedValue typed]
    refine target_congr ?_
    rw [screen, typingScreen]
    exact keptValue.value
  · rw [screen, typingScreen]
    refine (TypingScreen.typeKey_measuringUnitIndex _ _ _).trans ?_
    rw [TypingScreen.startEntry_measuringUnitIndex]

section Runs

variable (positive : ∀ value : Int, 0 < value → CFloat.ofInt 0 < (CFloat.ofInt value : F))
  (card : SdCard.Card) {menu : MenuState F}
include positive

/-- The first unit exists, and a unit that existed still does. -/
theorem KeepsUnits.unitExists_of_keepsUnit (keeps : menu.KeepsUnits) (exist : menu.UnitExists)
    {event : MenuEvent}
    (unit : menu.typingScreen.KeepsUnit (menu.step card event).typingScreen) :
    (menu.step card event).UnitExists := by
  rw [(keeps.step card event).unitExists_iff]
  rw [keeps.unitExists_iff] at exist
  intro ref target units
  rcases unit with first | ⟨value, index⟩
  · rw [first]
    exact ref.measuringUnits_defines_first positive units
  · rw [index]
    exact exist ref ((target_congr value).symm.trans target) units

/-- A typed key keeps the selected unit existing exactly if its value does not miss the
unit. -/
theorem KeepsUnits.typed_unitExists_iff (keeps : menu.KeepsUnits) (exist : menu.UnitExists)
    {ref : ValueRef} (typed : menu.typedValue = some ref) (keyPressed : UInt8) :
    (menu.step card (.keypad keyPressed)).UnitExists ↔ ¬ ref.MissesUnit keyPressed := by
  obtain ⟨target, index⟩ := typed_unit card typed keyPressed
  rw [(keeps.step card _).unitExists_iff]
  rw [keeps.unitExists_iff] at exist
  simp only [target, index, Option.some.injEq, forall_eq']
  by_cases units : ref = .backlight
  · subst units
    exact iff_of_true (fun units => absurd rfl units) id
  by_cases selects : TypingScreen.SelectsUnit (menu.globals.value ref) keyPressed
  · obtain ⟨above, -, announced⟩ := id selects
    rw [keeps.globals ref] at announced
    have key : keyPressed.toNat = 0x0A + (keyPressed.toNat - 0x0A) := by omega
    rw [if_pos selects, forall_prop_of_true units]
    exact ref.measuringUnits_defines_iff positive key units announced
  · rw [if_neg selects]
    exact iff_of_true (exist ref (target_of_typedValue typed))
      fun misses => selects (misses.selectsUnit (keeps.globals ref))

/-- An event keeps the selected unit existing exactly if it selects no unit that the
value misses. -/
theorem KeepsUnits.step_unitExists_iff (keeps : menu.KeepsUnits) (exist : menu.UnitExists)
    (event : MenuEvent) :
    (menu.step card event).UnitExists ↔ menu.SelectsExistingUnit event := by
  cases event with
  | encoder | display | redraw | enable =>
      refine iff_of_true (keeps.unitExists_of_keepsUnit positive card exist ?_) trivial
      exact menu.step_keepsUnit card nofun
  | keypad keyPressed =>
      simp only [SelectsExistingUnit]
      cases typed : menu.typedValue with
      | none =>
          refine iff_of_true (keeps.unitExists_of_keepsUnit positive card exist ?_) nofun
          exact untyped_keepsUnit card typed keyPressed
      | some ref =>
          refine (keeps.typed_unitExists_iff positive card exist typed keyPressed).trans ?_
          simp only [Option.some.injEq, forall_eq']

/-- From power-up, the selected unit always exists exactly in the runs in which no unit
key reaches a value that misses its unit. -/
theorem unit_always_exists_iff (card : SdCard.Card) (rams : Firmware.LookupRams)
    (events : List MenuEvent) :
    (powerUp rams : MenuState F).UnitAlwaysExists card events ↔
      Along (MenuState.step card) SelectsExistingUnit (powerUp rams : MenuState F) events := by
  have keeps : (powerUp rams : MenuState F).KeepsUnits :=
    ⟨fun _ => rfl, fun _ dds saved => (Option.some_ne_none dds saved.symm).elim⟩
  have exist : (powerUp rams : MenuState F).UnitExists := nofun
  refine Iff.trans (and_iff_right exist) ?_
  refine along_iff_of_invariant
    (fun menu event (sound : menu.KeepsUnits ∧ menu.UnitExists) selects => ?_)
    (fun menu event sound => ?_) ⟨keeps, exist⟩
  · exact ⟨sound.1.step card event,
      (sound.1.step_unitExists_iff positive card sound.2 event).2 selects⟩
  · exact sound.1.step_unitExists_iff positive card sound.2 event

end Runs

/-- DC OFFSET, 5, `A` and `#`. -/
theorem unit_always_exists_percent :
    (powerUp fun _ _ => 0 : MenuState ℚ).UnitAlwaysExists SdPage.songCard
        [.redraw, .display btnDisplay5, .redraw, .keypad 5, .keypad 0x0A, .keypad 0x10] ↔
      Along (MenuState.step SdPage.songCard) SelectsExistingUnit
        (powerUp fun _ _ => 0 : MenuState ℚ)
        [.redraw, .display btnDisplay5, .redraw, .keypad 5, .keypad 0x0A, .keypad 0x10] :=
  unit_always_exists_iff (fun _ above => (Int.cast_pos.mpr above : (0 : ℚ) < _))
    SdPage.songCard (fun _ _ => 0) _

/-- DC OFFSET and `B`: unit 1 of a table that has one. -/
theorem unit_key_beyond_table :
    ¬ ∀ (card : SdCard.Card) (rams : Firmware.LookupRams) (events : List MenuEvent),
        (powerUp rams : MenuState ℚ).UnitAlwaysExists card events := by
  intro claimed
  have selected := (claimed SdPage.songCard (fun _ _ => 0)
    ([.redraw, .display btnDisplay5, .redraw] ++ [.keypad 0x0B])).2.last
  obtain ⟨unit, entry⟩ := (selected (.dds 0 .dcOffset) (by decide +kernel) nofun).unit
  have none : ([MeasuringUnit.percentage][1]?) = some unit := by
    rw [← entry]
    decide +kernel
  exact nomatch none

end MenuState
end DDSFunctionGen.Menu

import DDSFunctionGen.Menu.Ranges
import DDSFunctionGen.Menu.SdSelection
import DDSFunctionGen.Menu.SweepCompute
import Mathlib.Tactic.Linarith

/-!
# The range of a sweep

`Compute` stores without comparing: the middle of a sweep is always in range, the
deviation only where the sweep does not go down.
-/

namespace DDSFunctionGen.Menu

open DDSFunctionGen.Semantics

variable {F : Type} [CFloat F]

/-- What `Compute` relies on: conversions keep the order, and half the way between
two frequencies up to 20 MHz, and its middle, are such frequencies. -/
structure SweepArithmetic (F : Type) [CFloat F] : Prop where
  ofInt_le : ∀ {low high : Int}, low ≤ high → (CFloat.ofInt low : F) ≤ CFloat.ofInt high
  deviation : ∀ {start stop : F}, CFloat.ofInt 0 ≤ start → start ≤ stop →
    stop ≤ CFloat.ofInt 20000000 →
      CFloat.ofInt 0 ≤ (stop - start) / CFloat.ofInt 2 ∧
        (stop - start) / CFloat.ofInt 2 ≤ CFloat.ofInt 20000000
  center : ∀ {start stop : F}, CFloat.ofInt 0 ≤ start → start ≤ stop →
    stop ≤ CFloat.ofInt 20000000 →
      CFloat.ofInt 0 ≤ start + (stop - start) / CFloat.ofInt 2 ∧
        start + (stop - start) / CFloat.ofInt 2 ≤ CFloat.ofInt 20000000

/-- The stop frequency of the sweep is not below its start frequency. -/
def SweepVariables.Rises (sweep : SweepVariables F) : Prop :=
  sweep.startFrequency.floatValue ≤ sweep.stopFrequency.floatValue

instance (sweep : SweepVariables F) : Decidable sweep.Rises :=
  inferInstanceAs (Decidable (sweep.startFrequency.floatValue ≤ sweep.stopFrequency.floatValue))

theorem DDSVariables.valid_defaults (arithmetic : SweepArithmetic F) :
    (ddsDefaults : DDSVariables F).Valid := by
  have within {low value high : Int} (above : low ≤ value) (below : value ≤ high) :
      (CFloat.ofInt low : F) ≤ CFloat.ofInt value ∧ (CFloat.ofInt value : F) ≤ CFloat.ofInt high :=
    ⟨arithmetic.ofInt_le above, arithmetic.ofInt_le below⟩
  refine ⟨fun field => ?_, fun field => ⟨rfl, rfl⟩, Int.le_refl 0, zero_lt_two⟩
  cases field with
  | frequency | amModulationFrequency | fmModulationFrequency | pmModulationFrequency
  | fmFrequencyDeviation | amplitude | dcOffset | phaseOffset | amModulationIndex
  | pmModulationIndex => exact within (by decide) (by decide)

theorem SweepVariables.valid_defaults (arithmetic : SweepArithmetic F) :
    (sweepDefaults : SweepVariables F).Valid := by
  have within {low value high : Int} (above : low ≤ value) (below : value ≤ high) :
      (CFloat.ofInt low : F) ≤ CFloat.ofInt value ∧ (CFloat.ofInt value : F) ≤ CFloat.ofInt high :=
    ⟨arithmetic.ofInt_le above, arithmetic.ofInt_le below⟩
  refine ⟨fun field => ?_, fun field => ⟨rfl, rfl⟩, ⟨Int.le_refl 0, zero_lt_two⟩, rfl⟩
  cases field with
  | startFrequency | stopFrequency | sweepFrequency => exact within (by decide) (by decide)

theorem Globals.valid_defaults (arithmetic : SweepArithmetic F) :
    (Globals.defaults : Globals F).Valid where
  dds _ := DDSVariables.valid_defaults arithmetic
  sweep _ := SweepVariables.valid_defaults arithmetic
  backlight := ⟨arithmetic.ofInt_le (by decide), arithmetic.ofInt_le (by decide)⟩

/-- A value that declares the bounds of a frequency lies within them. -/
theorem EditableValue.InRange.of_bounds {value : EditableValue F} {name : String} {default : Int}
    (bounds : value.SameBounds (frequencyValue name default))
    (above : CFloat.ofInt 0 ≤ value.floatValue)
    (below : value.floatValue ≤ CFloat.ofInt 20000000) : value.InRange := by
  rw [InRange, bounds.minValue, bounds.maxValue]
  exact ⟨above, below⟩

theorem EditableValue.InRange.to_bounds {value : EditableValue F} {name : String} {default : Int}
    (bounds : value.SameBounds (frequencyValue name default)) (inRange : value.InRange) :
    CFloat.ofInt 0 ≤ value.floatValue ∧ value.floatValue ≤ CFloat.ofInt 20000000 := by
  rw [InRange, bounds.minValue, bounds.maxValue] at inRange
  exact inRange

/-- A sweep that does not go down leaves the variables in range. -/
theorem DDSVariables.Valid.swept (arithmetic : SweepArithmetic F) {dds : DDSVariables F}
    (valid : dds.Valid) {sweep : SweepVariables F} (sweepValid : sweep.Valid)
    (rises : sweep.Rises) : (MenuState.sweptVariables sweep dds).Valid := by
  have start := (sweepValid.inRange .startFrequency).to_bounds
    (sweepValid.bounds .startFrequency)
  have stop := (sweepValid.inRange .stopFrequency).to_bounds (sweepValid.bounds .stopFrequency)
  have period := (sweepValid.inRange .sweepFrequency).to_bounds
    (sweepValid.bounds .sweepFrequency)
  have deviation := arithmetic.deviation start.1 rises stop.2
  have center := arithmetic.center start.1 rises stop.2
  have bounds (field : DDSField) :
      ((MenuState.sweptVariables sweep dds).value field).SameBounds (ddsDefaults.value field) := by
    have before := valid.bounds field
    cases field <;> exact ⟨before.maxValue, before.minValue⟩
  refine ⟨fun field => ?_, bounds, valid.outputEmpedance⟩
  have before := valid.inRange field
  cases field with
  | frequency => exact .of_bounds (bounds .frequency) center.1 center.2
  | fmFrequencyDeviation => exact .of_bounds (bounds .fmFrequencyDeviation) deviation.1 deviation.2
  | fmModulationFrequency => exact .of_bounds (bounds .fmModulationFrequency) period.1 period.2
  | amplitude | dcOffset | phaseOffset | amModulationFrequency | amModulationIndex
  | pmModulationFrequency | pmModulationIndex => exact before

namespace MenuState

/-- The variables, and what `Compute` saved of them, are in range. -/
structure Ranged (menu : MenuState F) : Prop where
  globals : menu.globals.Valid
  saved : ∀ channel dds, menu.savedDDSVariables channel = some dds → dds.Valid

/-- Where the event makes the sweep page compute, no sweep that is on goes down. -/
def SweepsRise (menu : MenuState F) (event : MenuEvent) : Prop :=
  event = .redraw → menu.menuPage.page = .sweep →
    ∀ channel, (menu.globals.sweep channel).isOn → (menu.globals.sweep channel).Rises

/-- The variables are in range before a run and after each of its events. -/
def StaysInRange (card : SdCard.Card) (menu : MenuState F) (events : List MenuEvent) : Prop :=
  menu.globals.InRange ∧
    Along (step card) (fun menu event => (menu.step card event).globals.InRange) menu events

theorem Ranged.compute (arithmetic : SweepArithmetic F) {menu : MenuState F}
    (ranged : menu.Ranged)
    (rise : ∀ channel, (menu.globals.sweep channel).isOn → (menu.globals.sweep channel).Rises) :
    menu.compute.Ranged := by
  have before (channel : Channel) :
      ((menu.savedDDSVariables channel).getD (menu.globals.dds channel)).Valid := by
    cases saved : menu.savedDDSVariables channel with
    | none => exact ranged.globals.dds channel
    | some dds => exact ranged.saved channel dds saved
  rw [compute_channelwise]
  refine ⟨⟨fun channel => ?_, ranged.globals.sweep, ranged.globals.backlight⟩,
    fun channel dds saved => ?_⟩
  · simp only [computedDDS]
    split_ifs with on
    · exact (ranged.globals.dds channel).swept arithmetic (ranged.globals.sweep channel)
        (rise channel on)
    · exact before channel
  · simp only [computedSaved] at saved
    split_ifs at saved
    · obtain rfl := Option.some.inj saved
      exact before channel

/-- An event keeps the variables in range if no sweep goes down. -/
theorem Ranged.step (arithmetic : SweepArithmetic F) (card : SdCard.Card) {menu : MenuState F}
    (ranged : menu.Ranged) {event : MenuEvent} (rise : menu.SweepsRise event) :
    (menu.step card event).Ranged := by
  rcases menu.step_computes_or_writes card event with ⟨redraws, page, globals, saved⟩ | writes
  · have computed := ranged.compute arithmetic (rise redraws page)
    exact ⟨globals ▸ computed.globals, saved ▸ computed.saved⟩
  · refine ⟨writes_valid writes.globals ranged.globals, ?_⟩
    rw [writes.saved]
    exact ranged.saved

theorem powerUp_ranged (arithmetic : SweepArithmetic F) (rams : Firmware.LookupRams) :
    (powerUp rams : MenuState F).Ranged :=
  ⟨Globals.valid_defaults arithmetic,
    fun _ dds saved => (Option.some_ne_none dds saved.symm).elim⟩

/-! ## Exact arithmetic -/

theorem sweepArithmetic : SweepArithmetic ℚ where
  ofInt_le := fun {low high} ordered => (Int.cast_le.mpr ordered : (low : ℚ) ≤ high)
  deviation := by
    intro start stop above rises below
    have above : (0 : ℚ) ≤ start := above
    have below : stop ≤ (20000000 : ℚ) := below
    constructor
    · show (0 : ℚ) ≤ (stop - start) / (2 : ℤ)
      push_cast
      linarith
    · show (stop - start) / (2 : ℤ) ≤ (20000000 : ℚ)
      push_cast
      linarith
  center := by
    intro start stop above rises below
    have above : (0 : ℚ) ≤ start := above
    have below : stop ≤ (20000000 : ℚ) := below
    constructor
    · show (0 : ℚ) ≤ start + (stop - start) / (2 : ℤ)
      push_cast
      linarith
    · show start + (stop - start) / (2 : ℤ) ≤ (20000000 : ℚ)
      push_cast
      linarith

/-- Exactly, a deviation in range is that of a sweep that does not go down. -/
theorem Ranged.step_inRange_iff (card : SdCard.Card) {menu : MenuState ℚ} (ranged : menu.Ranged)
    (event : MenuEvent) : (menu.step card event).globals.InRange ↔ menu.SweepsRise event := by
  refine ⟨?_, fun rise => (ranged.step sweepArithmetic card rise).globals.inRange⟩
  rintro inRange rfl page channel on
  have drawn := (menu.redraw_variables card).1
  rw [if_pos page, compute_channelwise] at drawn
  have dds := congrFun (congrArg Globals.dds drawn) channel
  simp only [computedDDS, if_pos on] at dds
  have bounds := (ranged.globals.dds channel).bounds .fmFrequencyDeviation
  have deviation := inRange.value (.dds channel .fmFrequencyDeviation)
  have stored := congrArg DDSVariables.fmFrequencyDeviation dds
  have above : (menu.globals.dds channel).fmFrequencyDeviation.minValue ≤
      ((menu.globals.sweep channel).stopFrequency.floatValue -
        (menu.globals.sweep channel).startFrequency.floatValue) / (2 : ℤ) := by
    have low := deviation.1
    rw [show (menu.step card .redraw).globals.value (.dds channel .fmFrequencyDeviation) = _
      from stored] at low
    exact low
  rw [show (menu.globals.dds channel).fmFrequencyDeviation.minValue = ((0 : ℤ) : ℚ)
    from bounds.minValue] at above
  push_cast at above
  rw [SweepVariables.Rises]
  linarith

/-- From power-up, every value stays in its range in a run in which no sweep goes
down. -/
theorem values_stay_in_range (arithmetic : SweepArithmetic F) (card : SdCard.Card)
    (rams : Firmware.LookupRams) (events : List MenuEvent)
    (rise : Along (MenuState.step card) SweepsRise (powerUp rams : MenuState F) events) :
    (powerUp rams : MenuState F).StaysInRange card events := by
  have initial : (powerUp rams : MenuState F).Ranged := powerUp_ranged arithmetic rams
  refine ⟨initial.globals.inRange, ?_⟩
  refine along_of_invariant (fun _ _ ranged rise => ?_) (fun _ _ ranged rise => ?_) initial rise
  · exact ranged.step arithmetic card rise
  · exact (ranged.step arithmetic card rise).globals.inRange

/-- In exact arithmetic, the runs in which no sweep goes down are the only ones. -/
theorem values_stay_in_range_iff (card : SdCard.Card) (rams : Firmware.LookupRams)
    (events : List MenuEvent) :
    (powerUp rams : MenuState ℚ).StaysInRange card events ↔
      Along (MenuState.step card) SweepsRise (powerUp rams : MenuState ℚ) events := by
  have initial : (powerUp rams : MenuState ℚ).Ranged := powerUp_ranged sweepArithmetic rams
  refine Iff.trans (and_iff_right initial.globals.inRange) ?_
  refine along_iff_of_invariant (fun _ _ ranged rise => ?_) (fun _ _ ranged => ?_) initial
  · exact ranged.step sweepArithmetic card rise
  · exact ranged.step_inRange_iff card _

/-- The inputs that open the sweep page. -/
def openSweep : List MenuEvent :=
  [.redraw, .display btnDisplay1, .redraw, .display btnDisplay4, .redraw, .display btnDisplay4,
    .redraw, .display btnDisplay5, .redraw]

/-- The default sweep, from 1 kHz up to 10 kHz, turned on. -/
theorem values_stay_in_range_default_sweep :
    (powerUp fun _ _ => 0 : MenuState ℚ).StaysInRange SdPage.songCard
      (openSweep ++ [.display btnDisplay2, .redraw]) := by
  refine values_stay_in_range sweepArithmetic SdPage.songCard (fun _ _ => 0) _ ?_
  refine ⟨nofun, nofun, nofun, nofun, nofun, nofun, nofun, nofun, ?_, nofun, ?_, trivial⟩
  · exact fun _ _ => by decide +kernel
  · exact fun _ _ => by decide +kernel

/-- A sweep turned on with the start frequency set to 20 kHz, above the stop
frequency. -/
theorem falling_sweep_deviation_negative :
    ¬ ∀ (card : SdCard.Card) (rams : Firmware.LookupRams) (events : List MenuEvent),
        (powerUp rams : MenuState ℚ).StaysInRange card events := by
  intro claimed
  have fallen := (claimed SdPage.songCard (fun _ _ => 0)
    ((openSweep ++ [.display btnDisplay3, .keypad 2, .keypad 0, .keypad 0x0B, .keypad 0x10,
      .display btnDisplay2]) ++ [.redraw])).2.last
  have negative := (fallen.value (.dds 0 .fmFrequencyDeviation)).1
  exact absurd negative (by decide +kernel)

end MenuState
end DDSFunctionGen.Menu

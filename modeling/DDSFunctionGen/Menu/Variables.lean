import DDSFunctionGen.Firmware.LookupRam
import DDSFunctionGen.Menu.EditableValue

/-!
# The global variables of the menu

`DDS_Variables`, `sweepVariables` and `menuVariables` with their defaults, and
the pointers the typing screen can hold.
-/

namespace DDSFunctionGen.Menu

open DDSFunctionGen.Firmware

/-- A DDS channel, an index below `_NUM_DDS_CHANNELS`. -/
abbrev Channel := Fin 2

instance Channel.instNeZero : NeZero 2 := ⟨Nat.succ_ne_zero 1⟩

/-- `s_DDSVariables` -/
structure DDSVariables (F : Type) where
  outputEmpedance : StringArray
  frequency : EditableValue F
  amplitude : EditableValue F
  dcOffset : EditableValue F
  phaseOffset : EditableValue F
  waveType : WaveType
  outputRelay : Bool
  amModulationON : Bool
  amModulationFrequency : EditableValue F
  amModulationWaveType : WaveType
  amModulationIndex : EditableValue F
  fmModulationON : Bool
  fmModulationFrequency : EditableValue F
  fmModulationWaveType : WaveType
  fmFrequencyDeviation : EditableValue F
  pmModulationON : Bool
  pmModulationFrequency : EditableValue F
  pmModulationWaveType : WaveType
  pmModulationIndex : EditableValue F

/-- `s_SweepVariables` -/
structure SweepVariables (F : Type) where
  on : StringArray
  startFrequency : EditableValue F
  stopFrequency : EditableValue F
  sweepFrequency : EditableValue F

/-- The globals the menu edits: `DDS_Variables`, `sweepVariables` and
`menuVariables.backlight`. -/
structure Globals (F : Type) where
  dds : Channel → DDSVariables F
  sweep : Channel → SweepVariables F
  backlight : EditableValue F

/-- The editable values of `s_DDSVariables`. -/
inductive DDSField where
  | frequency
  | amplitude
  | dcOffset
  | phaseOffset
  | amModulationFrequency
  | amModulationIndex
  | fmModulationFrequency
  | fmFrequencyDeviation
  | pmModulationFrequency
  | pmModulationIndex
deriving DecidableEq, Repr

/-- The editable values of `s_SweepVariables`. -/
inductive SweepField where
  | startFrequency
  | stopFrequency
  | sweepFrequency
deriving DecidableEq, Repr

/-- Where an editable value is. -/
inductive ValueRef where
  | dds (channel : Channel) (field : DDSField)
  | sweep (channel : Channel) (field : SweepField)
  | backlight
deriving DecidableEq, Repr

/-- A pointer to an editable value. `stray field` is the address of a field
computed from a null pointer to `s_DDSVariables`. -/
inductive Pointer where
  | variable (ref : ValueRef)
  | stray (field : DDSField)
deriving DecidableEq, Repr

variable {F : Type}

namespace DDSVariables

/-- The editable value at a field. -/
def value (dds : DDSVariables F) : DDSField → EditableValue F
  | .frequency => dds.frequency
  | .amplitude => dds.amplitude
  | .dcOffset => dds.dcOffset
  | .phaseOffset => dds.phaseOffset
  | .amModulationFrequency => dds.amModulationFrequency
  | .amModulationIndex => dds.amModulationIndex
  | .fmModulationFrequency => dds.fmModulationFrequency
  | .fmFrequencyDeviation => dds.fmFrequencyDeviation
  | .pmModulationFrequency => dds.pmModulationFrequency
  | .pmModulationIndex => dds.pmModulationIndex

/-- A field stored to. -/
def setValue (dds : DDSVariables F) (field : DDSField) (value : EditableValue F) :
    DDSVariables F :=
  match field with
  | .frequency => { dds with frequency := value }
  | .amplitude => { dds with amplitude := value }
  | .dcOffset => { dds with dcOffset := value }
  | .phaseOffset => { dds with phaseOffset := value }
  | .amModulationFrequency => { dds with amModulationFrequency := value }
  | .amModulationIndex => { dds with amModulationIndex := value }
  | .fmModulationFrequency => { dds with fmModulationFrequency := value }
  | .fmFrequencyDeviation => { dds with fmFrequencyDeviation := value }
  | .pmModulationFrequency => { dds with pmModulationFrequency := value }
  | .pmModulationIndex => { dds with pmModulationIndex := value }

end DDSVariables

namespace SweepVariables

/-- The editable value at a field. -/
def value (sweep : SweepVariables F) : SweepField → EditableValue F
  | .startFrequency => sweep.startFrequency
  | .stopFrequency => sweep.stopFrequency
  | .sweepFrequency => sweep.sweepFrequency

/-- A field stored to. -/
def setValue (sweep : SweepVariables F) (field : SweepField) (value : EditableValue F) :
    SweepVariables F :=
  match field with
  | .startFrequency => { sweep with startFrequency := value }
  | .stopFrequency => { sweep with stopFrequency := value }
  | .sweepFrequency => { sweep with sweepFrequency := value }

end SweepVariables

namespace Globals

/-- One channel stored to. -/
def setDDS (globals : Globals F) (channel : Channel) (dds : DDSVariables F) : Globals F :=
  { globals with dds := fun other => if other = channel then dds else globals.dds other }

/-- The sweep of one channel stored to. -/
def setSweep (globals : Globals F) (channel : Channel) (sweep : SweepVariables F) :
    Globals F :=
  { globals with sweep := fun other => if other = channel then sweep else globals.sweep other }

/-- The value at a place. -/
def value (globals : Globals F) : ValueRef → EditableValue F
  | .dds channel field => (globals.dds channel).value field
  | .sweep channel field => (globals.sweep channel).value field
  | .backlight => globals.backlight

/-- A value stored to. -/
def setValue (globals : Globals F) (ref : ValueRef) (value : EditableValue F) : Globals F :=
  match ref with
  | .dds channel field =>
      globals.setDDS channel ((globals.dds channel).setValue field value)
  | .sweep channel field =>
      globals.setSweep channel ((globals.sweep channel).setValue field value)
  | .backlight => { globals with backlight := value }

theorem setDDS_self (globals : Globals F) (channel : Channel) :
    globals.setDDS channel (globals.dds channel) = globals := by
  have same : (fun other => if other = channel then globals.dds channel else globals.dds other) =
      globals.dds := by
    ext1 other
    split
    · rename_i equal
      rw [equal]
    · rfl
  rw [setDDS, same]

theorem setSweep_self (globals : Globals F) (channel : Channel) :
    globals.setSweep channel (globals.sweep channel) = globals := by
  have same : (fun other =>
      if other = channel then globals.sweep channel else globals.sweep other) =
        globals.sweep := by
    ext1 other
    split
    · rename_i equal
      rw [equal]
    · rfl
  rw [setSweep, same]

/-- Storing a value where it is changes nothing. -/
theorem setValue_self (globals : Globals F) (ref : ValueRef) :
    globals.setValue ref (globals.value ref) = globals := by
  cases ref with
  | dds channel field =>
      have same : (globals.dds channel).setValue field ((globals.dds channel).value field) =
          globals.dds channel := by
        cases field <;> rfl
      rw [setValue, value, same, setDDS_self]
  | sweep channel field =>
      have same : (globals.sweep channel).setValue field ((globals.sweep channel).value field) =
          globals.sweep channel := by
        cases field <;> rfl
      rw [setValue, value, same, setSweep_self]
  | backlight => rfl

/-- A value stored to is the value there. -/
theorem value_setValue (globals : Globals F) (ref : ValueRef) (value : EditableValue F) :
    (globals.setValue ref value).value ref = value := by
  cases ref with
  | dds channel field =>
      simp only [Globals.value, setValue, setDDS, if_true]
      cases field <;> rfl
  | sweep channel field =>
      simp only [Globals.value, setValue, setSweep, if_true]
      cases field <;> rfl
  | backlight => rfl

end Globals

/-- `(waveType + 1) % (_NUM_WAVES - 1)`: the next wave, in the order of
`e_WaveType` up to `e_WAVE_ARB`. -/
def nextWave : WaveType → WaveType
  | .square => .triangele
  | .triangele => .sawtooth
  | .sawtooth => .sine
  | .sine => .arb
  | .arb => .square
  | .none => .triangele

variable [CFloat F]

/-- `frequencyMeasuringUnits` -/
def frequencyMeasuringUnits : AvMeasuringUnits F where
  measuringUnitsCount := 3
  measuringUnitsEnums := [.frequencyHz, .frequencyKHz, .frequencyMHz]
  measuringUnitsNames := [some "Hz", some "KHz", some "MHz"]
  measuringUnitsMultipliers := [CFloat.ofInt 1, CFloat.ofInt 1000, CFloat.ofInt 1000000]

/-- `amplitudeMeasuringUnits`: tables of three, the last entry zero. -/
def amplitudeMeasuringUnits : AvMeasuringUnits F where
  measuringUnitsCount := 3
  measuringUnitsEnums := [.amplitudeMilliVolt, .amplitudeVolt, .amplitudeMilliVolt]
  measuringUnitsNames := [some "mV", some "V", none]
  measuringUnitsMultipliers := [CFloat.ofInt 1, CFloat.ofInt 1000, CFloat.ofInt 0]

/-- `percentageMeasuringUnits`: tables of one, under the count of the amplitude
units. -/
def percentageMeasuringUnits : AvMeasuringUnits F where
  measuringUnitsCount := 3
  measuringUnitsEnums := [.percentage]
  measuringUnitsNames := [some "%"]
  measuringUnitsMultipliers := [CFloat.ofInt 1]

/-- The null pointer in place of the backlight's units, which nothing reads. -/
def noMeasuringUnits : AvMeasuringUnits F where
  measuringUnitsCount := 0
  measuringUnitsEnums := []
  measuringUnitsNames := []
  measuringUnitsMultipliers := []

/-- A frequency in Hz up to 20 MHz: `_MIN_FREQUENCY` and each of the maximum
frequencies of `definitions.h`. -/
def frequencyValue (name : String) (value : Int) : EditableValue F where
  name := name
  floatValue := CFloat.ofInt value
  maxValue := CFloat.ofInt 20000000
  minValue := CFloat.ofInt 0
  availableMeasuringUnits := frequencyMeasuringUnits
  currentMeasuringUnit := .frequencyHz

/-- A percentage, or an angle, from 0 up to `maximum`. -/
def percentageValue (name : String) (value maximum : Int) : EditableValue F where
  name := name
  floatValue := CFloat.ofInt value
  maxValue := CFloat.ofInt maximum
  minValue := CFloat.ofInt 0
  availableMeasuringUnits := percentageMeasuringUnits
  currentMeasuringUnit := .percentage

/-- The initial value of `DDS_Variables[0]` and `DDS_Variables[1]`. -/
def ddsDefaults : DDSVariables F where
  outputEmpedance := { selected := 0, count := 2, array := ["50Ohm", "1MOhm"] }
  frequency := frequencyValue "FREQUENCY" 1000
  amplitude :=
    { name := "AMPLITUDE", floatValue := CFloat.ofInt 500, maxValue := CFloat.ofInt 8500
      minValue := CFloat.ofInt 70, availableMeasuringUnits := amplitudeMeasuringUnits
      currentMeasuringUnit := .amplitudeMilliVolt }
  dcOffset := percentageValue "DC_OFFSET" 50 100
  phaseOffset := percentageValue "PHASE OFFSET" 0 360
  waveType := .square
  outputRelay := false
  amModulationON := false
  amModulationFrequency := frequencyValue "FREQUENCY" 1000
  amModulationWaveType := .square
  amModulationIndex := percentageValue "AM MOD INDX" 10 200
  fmModulationON := false
  fmModulationFrequency := frequencyValue "FREQUENCY" 1000
  fmModulationWaveType := .square
  fmFrequencyDeviation := frequencyValue "FM DEVIATION" 1000
  pmModulationON := false
  pmModulationFrequency := frequencyValue "FREQUENCY" 1000
  pmModulationWaveType := .square
  pmModulationIndex := percentageValue "PM MOD INDX" 10 100

/-- The initial value of `sweepVariables[0]` and `sweepVariables[1]`. -/
def sweepDefaults : SweepVariables F where
  on := { selected := 0, count := 2, array := ["OFF", "ON"] }
  startFrequency := frequencyValue "START FREQUANCY" 1000
  stopFrequency := frequencyValue "STOP FREQUANCY" 10000
  sweepFrequency := frequencyValue "PERIOD" 1

/-- The globals as the program starts. -/
def Globals.defaults : Globals F where
  dds _ := ddsDefaults
  sweep _ := sweepDefaults
  backlight :=
    { name := "BACK_LIGHT", floatValue := CFloat.ofInt 15, maxValue := CFloat.ofInt 25
      minValue := CFloat.ofInt 0, availableMeasuringUnits := noMeasuringUnits
      currentMeasuringUnit := .amplitudeMilliVolt }

end DDSFunctionGen.Menu

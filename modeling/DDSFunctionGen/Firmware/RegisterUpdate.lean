import DDSFunctionGen.Firmware.LookupRamInterrupt
import DDSFunctionGen.Menu.Variables

/-!
# The register update

`updateVariablesOnFpga` converts the variables of both channels and writes them
to the registers of the two DDS modules, channel after channel, in two blocks
written out by hand. It ends by writing the interrupt mask of the lookup RAMs.
-/

namespace DDSFunctionGen.Firmware

open DDSFunctionGen.Menu

/-- The registers of one DDS module. -/
inductive DDSRegister where
  | phaseStep
  | phaseOffset
  | pwmAmplitude
  | pwmOffset
  | outputRelay
  | amModPhaseStep
  | amModIndex
  | fmModPhaseStep
  | fmModDeviationPhase
  | pmModPhaseStep
  | pmModIndex
deriving DecidableEq, Repr

/-- The registers that the update writes. -/
inductive Register where
  | dds0 (register : DDSRegister)
  | dds1 (register : DDSRegister)
  | ddsReset
  | lookupRamIrqMask
deriving DecidableEq, Repr

/-- A store to a register. -/
structure RegisterWrite where
  register : Register
  value : BitVec 32
deriving DecidableEq, Repr

/-- The functions that convert editable values to register values. -/
structure Conversions (F : Type) where
  computePhaseStep : EditableValue F → BitVec 32
  computePhaseOffset : EditableValue F → BitVec 32
  computeAmplitude : EditableValue F → Bool → BitVec 16
  computeAmplitudeOffset : EditableValue F → BitVec 16
  computeModIndex : EditableValue F → BitVec 16

variable {F : Type}

/-- A boolean as it is stored to a register. -/
def boolData (value : Bool) : BitVec 32 := if value then 1 else 0

/-- The stores of the block for DDS0. -/
def dds0Writes (conversions : Conversions F) (dds : Channel → DDSVariables F) :
    List RegisterWrite :=
  let amModIndex := conversions.computeModIndex (dds 0).amModulationIndex
  let amModIndex := if (dds 0).amModulationON then amModIndex else 0
  let fmModDeviation := conversions.computePhaseStep (dds 0).fmFrequencyDeviation
  let fmModDeviation := if (dds 0).fmModulationON then fmModDeviation else 0
  let pmModIndex := conversions.computeModIndex (dds 0).pmModulationIndex
  let pmModIndex := if (dds 0).pmModulationON then pmModIndex else 0
  [⟨.dds0 .phaseStep, conversions.computePhaseStep (dds 0).frequency⟩,
    ⟨.dds0 .phaseOffset, conversions.computePhaseOffset (dds 0).phaseOffset⟩,
    ⟨.dds0 .pwmAmplitude, (conversions.computeAmplitude (dds 0).amplitude
      ((dds 0).outputEmpedance.selected = 0)).setWidth 32⟩,
    ⟨.dds0 .pwmOffset, (conversions.computeAmplitudeOffset (dds 0).dcOffset).setWidth 32⟩,
    ⟨.dds0 .outputRelay, boolData (dds 0).outputRelay⟩,
    ⟨.dds0 .amModPhaseStep, conversions.computePhaseStep (dds 0).amModulationFrequency⟩,
    ⟨.dds0 .amModIndex, amModIndex.setWidth 32⟩,
    ⟨.dds0 .fmModPhaseStep, conversions.computePhaseStep (dds 0).fmModulationFrequency⟩,
    ⟨.dds0 .fmModDeviationPhase, fmModDeviation⟩,
    ⟨.dds0 .pmModPhaseStep, conversions.computePhaseStep (dds 0).pmModulationFrequency⟩,
    ⟨.dds0 .pmModIndex, pmModIndex.setWidth 32⟩]

/-- The stores of the block for DDS1. -/
def dds1Writes (conversions : Conversions F) (dds : Channel → DDSVariables F) :
    List RegisterWrite :=
  let amModIndex := conversions.computeModIndex (dds 1).amModulationIndex
  let amModIndex := if (dds 1).amModulationON then amModIndex else 0
  let fmModDeviation := conversions.computePhaseStep (dds 1).fmFrequencyDeviation
  let fmModDeviation := if (dds 1).fmModulationON then fmModDeviation else 0
  let pmModIndex := conversions.computeModIndex (dds 1).pmModulationIndex
  let pmModIndex := if (dds 1).pmModulationON then pmModIndex else 0
  [⟨.dds1 .phaseStep, conversions.computePhaseStep (dds 1).frequency⟩,
    ⟨.dds1 .phaseOffset, conversions.computePhaseOffset (dds 1).phaseOffset⟩,
    ⟨.dds1 .pwmAmplitude, (conversions.computeAmplitude (dds 1).amplitude
      ((dds 1).outputEmpedance.selected = 0)).setWidth 32⟩,
    ⟨.dds1 .pwmOffset, (conversions.computeAmplitudeOffset (dds 1).dcOffset).setWidth 32⟩,
    ⟨.dds1 .outputRelay, boolData (dds 1).outputRelay⟩,
    ⟨.dds1 .amModPhaseStep, conversions.computePhaseStep (dds 1).amModulationFrequency⟩,
    ⟨.dds1 .amModIndex, amModIndex.setWidth 32⟩,
    ⟨.dds1 .fmModPhaseStep, conversions.computePhaseStep (dds 1).fmModulationFrequency⟩,
    ⟨.dds1 .fmModDeviationPhase, fmModDeviation⟩,
    ⟨.dds1 .pmModPhaseStep, conversions.computePhaseStep (dds 1).pmModulationFrequency⟩,
    ⟨.dds1 .pmModIndex, pmModIndex.setWidth 32⟩]

/-- `ResetDDSModules` -/
def resetWrites (resetDDS : Bool) : List RegisterWrite :=
  if resetDDS then [⟨.ddsReset, 0xFF⟩, ⟨.ddsReset, 0x00⟩] else []

variable [CFloat F]

/-- `floatValue < 500.f` -/
def slow (frequency : EditableValue F) : Bool := decide (frequency.floatValue < CFloat.ofInt 500)

/-- `IRQ_Mask`. The last two conditions read the modulation frequencies of
channel 0. -/
def irqMask (dds : Channel → DDSVariables F) : BitVec 8 :=
  let mask : BitVec 8 := 0x00
  let mask :=
    if (dds 0).waveType = .arb ∧ slow (dds 0).frequency then mask ||| 0x01 else mask
  let mask :=
    if (dds 0).amModulationWaveType = .arb ∧ (dds 0).amModulationON ∧
        slow (dds 0).amModulationFrequency then mask ||| 0x02
    else mask
  let mask :=
    if (dds 0).fmModulationWaveType = .arb ∧ (dds 0).fmModulationON ∧
        slow (dds 0).fmModulationFrequency then mask ||| 0x04
    else mask
  let mask :=
    if (dds 1).waveType = .arb ∧ slow (dds 1).frequency then mask ||| 0x08 else mask
  let mask :=
    if (dds 1).amModulationWaveType = .arb ∧ (dds 1).amModulationON ∧
        slow (dds 0).amModulationFrequency then mask ||| 0x10
    else mask
  if (dds 1).fmModulationWaveType = .arb ∧ (dds 1).fmModulationON ∧
      slow (dds 0).fmModulationFrequency then mask ||| 0x20
  else mask

/-- `updateVariablesOnFpga`: the stores in order. -/
def updateVariablesOnFpga (conversions : Conversions F) (resetDDS : Bool)
    (dds : Channel → DDSVariables F) : List RegisterWrite :=
  dds0Writes conversions dds ++ dds1Writes conversions dds ++
    resetWrites resetDDS ++ [⟨.lookupRamIrqMask, (irqMask dds).setWidth 32⟩]

/-! ## The two channels -/

/-- `DDS_Variables = (first, second)` -/
def pair (first second : DDSVariables F) : Channel → DDSVariables F
  | 0 => first
  | 1 => second

/-- What is stored to the registers of DDS0. -/
def storedToDDS0 (writes : List RegisterWrite) : List (DDSRegister × BitVec 32) :=
  writes.filterMap fun write =>
    match write.register with
    | .dds0 register => some (register, write.value)
    | _ => none

/-- What is stored to the registers of DDS1. -/
def storedToDDS1 (writes : List RegisterWrite) : List (DDSRegister × BitVec 32) :=
  writes.filterMap fun write =>
    match write.register with
    | .dds1 register => some (register, write.value)
    | _ => none

/-- What is stored to the interrupt mask of the lookup RAMs. -/
def storedToIrqMask (writes : List RegisterWrite) : List (BitVec 32) :=
  writes.filterMap fun write => if write.register = .lookupRamIrqMask then some write.value else none

/-- The wave type, the ON flag and the frequency of a source enable its
interrupt; the main sources are always on. -/
def sourceEnabled (dds : Channel → DDSVariables F) : Source → Bool
  | .dds0 => (dds 0).waveType = .arb ∧ slow (dds 0).frequency
  | .dds0AM => (dds 0).amModulationWaveType = .arb ∧ (dds 0).amModulationON ∧
      slow (dds 0).amModulationFrequency
  | .dds0FM => (dds 0).fmModulationWaveType = .arb ∧ (dds 0).fmModulationON ∧
      slow (dds 0).fmModulationFrequency
  | .dds1 => (dds 1).waveType = .arb ∧ slow (dds 1).frequency
  | .dds1AM => (dds 1).amModulationWaveType = .arb ∧ (dds 1).amModulationON ∧
      slow (dds 1).amModulationFrequency
  | .dds1FM => (dds 1).fmModulationWaveType = .arb ∧ (dds 1).fmModulationON ∧
      slow (dds 1).fmModulationFrequency

/-- The update treats the second channel of a pair as the first channel of the
swapped pair, and each bit of the mask goes by its own source. -/
structure UpdatesAlike (conversions : Conversions F) (resetDDS : Bool)
    (first second : DDSVariables F) : Prop where
  registers : storedToDDS1 (updateVariablesOnFpga conversions resetDDS (pair first second)) =
    storedToDDS0 (updateVariablesOnFpga conversions resetDDS (pair second first))
  mask : ∃ mask swapped,
    storedToIrqMask (updateVariablesOnFpga conversions resetDDS (pair first second)) = [mask] ∧
      storedToIrqMask (updateVariablesOnFpga conversions resetDDS (pair second first)) =
        [swapped] ∧
      ∀ bit < 3, mask.getLsbD (bit + 3) = swapped.getLsbD bit
  own : ∀ source : Source, irqMask (pair first second) &&& source.mask =
    if sourceEnabled (pair first second) source then source.mask else 0

/-- Where a modulation of the second channel plays wave data, both channels'
modulation frequencies lie on the same side of 500 Hz. -/
structure FrequenciesAlike (first second : DDSVariables F) : Prop where
  am : second.amModulationWaveType = .arb → second.amModulationON = true →
    slow first.amModulationFrequency = slow second.amModulationFrequency
  fm : second.fmModulationWaveType = .arb → second.fmModulationON = true →
    slow first.fmModulationFrequency = slow second.fmModulationFrequency

/-- The conditions of the mask as they are: with the frequencies of channel 0 for
the modulations of channel 1. -/
def maskedIn (dds : Channel → DDSVariables F) : Source → Bool
  | .dds1AM => (dds 1).amModulationWaveType = .arb ∧ (dds 1).amModulationON ∧
      slow (dds 0).amModulationFrequency
  | .dds1FM => (dds 1).fmModulationWaveType = .arb ∧ (dds 1).fmModulationON ∧
      slow (dds 0).fmModulationFrequency
  | source => sourceEnabled dds source

theorem irqMask_eq (dds : Channel → DDSVariables F) : irqMask dds = pioData (maskedIn dds) := by
  have collect (mask bit : BitVec 8) (enabled : Prop) [Decidable enabled] :
      (if enabled then mask ||| bit else mask) = mask ||| if enabled then bit else 0#8 := by
    split_ifs
    · rfl
    · rw [BitVec.or_zero]
  simp only [irqMask, collect, pioData, maskedIn, sourceEnabled, decide_eq_true_eq, Source.mask,
    BitVec.ofNat_eq_ofNat, BitVec.zero_or]

/-- A bit of the mask is the condition of its source. -/
theorem irqMask_masked (dds : Channel → DDSVariables F) (source : Source) :
    irqMask dds &&& source.mask = if maskedIn dds source then source.mask else 0 := by
  rw [irqMask_eq, pioData_masked]

theorem getLsbD_pioData (line : Source → Bool) :
    (pioData line).getLsbD 0 = line .dds0 ∧ (pioData line).getLsbD 1 = line .dds0AM ∧
      (pioData line).getLsbD 2 = line .dds0FM ∧ (pioData line).getLsbD 3 = line .dds1 ∧
      (pioData line).getLsbD 4 = line .dds1AM ∧ (pioData line).getLsbD 5 = line .dds1FM := by
  simp only [pioData]
  generalize line .dds0 = dds0, line .dds0AM = dds0AM, line .dds0FM = dds0FM, line .dds1 = dds1,
    line .dds1AM = dds1AM, line .dds1FM = dds1FM
  revert dds0 dds0AM dds0FM dds1 dds1AM dds1FM
  decide

/-- The blocks for the two modules differ in nothing but the channel. -/
theorem stored_swapped (conversions : Conversions F) (resetDDS : Bool)
    (first second : DDSVariables F) :
    storedToDDS1 (updateVariablesOnFpga conversions resetDDS (pair first second)) =
      storedToDDS0 (updateVariablesOnFpga conversions resetDDS (pair second first)) := by
  cases resetDDS with
  | false | true => rfl

theorem storedToIrqMask_update (conversions : Conversions F) (resetDDS : Bool)
    (dds : Channel → DDSVariables F) :
    storedToIrqMask (updateVariablesOnFpga conversions resetDDS dds) =
      [(irqMask dds).setWidth 32] := by
  cases resetDDS with
  | false | true => rfl

/-- A bit of the mask goes by its own source exactly if that is its condition. -/
theorem own_iff (dds : Channel → DDSVariables F) (source : Source) :
    (irqMask dds &&& source.mask = if sourceEnabled dds source then source.mask else 0) ↔
      maskedIn dds source = sourceEnabled dds source := by
  have nonzero : source.mask ≠ 0 := source.mask_ne_zero
  rw [irqMask_masked]
  cases maskedIn dds source with
  | false =>
      cases sourceEnabled dds source with
      | false => exact iff_of_true rfl rfl
      | true => exact iff_of_false nonzero.symm nofun
  | true =>
      cases sourceEnabled dds source with
      | false => exact iff_of_false nonzero nofun
      | true => exact iff_of_true rfl rfl

/-- The conditions are those of the sources exactly where the frequencies are
alike. -/
theorem maskedIn_iff (first second : DDSVariables F) :
    (∀ source, maskedIn (pair first second) source = sourceEnabled (pair first second) source) ↔
      FrequenciesAlike first second := by
  constructor
  · intro own
    refine ⟨fun arb on => ?_, fun arb on => ?_⟩
    · simpa [maskedIn, sourceEnabled, pair, arb, on] using own .dds1AM
    · simpa [maskedIn, sourceEnabled, pair, arb, on] using own .dds1FM
  · rintro ⟨am, fm⟩ source
    cases source with
    | dds0 | dds0AM | dds0FM | dds1 => rfl
    | dds1AM =>
        refine decide_eq_decide.mpr (and_congr_right fun arb => and_congr_right fun on => ?_)
        rw [show slow (pair first second 0).amModulationFrequency = _ from am arb on]
        rfl
    | dds1FM =>
        refine decide_eq_decide.mpr (and_congr_right fun arb => and_congr_right fun on => ?_)
        rw [show slow (pair first second 0).fmModulationFrequency = _ from fm arb on]
        rfl

/-- The update treats the two channels alike exactly where the modulation
frequencies are. -/
theorem updates_alike_iff (conversions : Conversions F) (resetDDS : Bool)
    (first second : DDSVariables F) :
    UpdatesAlike conversions resetDDS first second ↔ FrequenciesAlike first second := by
  rw [← maskedIn_iff]
  constructor
  · exact fun alike source => (own_iff _ source).mp (alike.own source)
  · intro own
    refine ⟨stored_swapped conversions resetDDS first second, ?_,
      fun source => (own_iff _ source).mpr (own source)⟩
    refine ⟨_, _, storedToIrqMask_update conversions resetDDS _,
      storedToIrqMask_update conversions resetDDS _, fun bit below => ?_⟩
    obtain ⟨-, -, -, main, am, fm⟩ := getLsbD_pioData (maskedIn (pair first second))
    obtain ⟨main', am', fm', -⟩ := getLsbD_pioData (maskedIn (pair second first))
    rw [BitVec.getLsbD_setWidth, BitVec.getLsbD_setWidth, irqMask_eq, irqMask_eq]
    match bit, below with
    | 0, _ => rw [main, main']; rfl
    | 1, _ => rw [am, am', own .dds1AM]; rfl
    | 2, _ => rw [fm, fm', own .dds1FM]; rfl

/-- Channel 1 plays a wave file as its AM wave at 10 Hz, with the unused AM
frequency of channel 0 at 1 kHz. -/
theorem slow_am_not_enabled :
    ¬ ∀ (conversions : Conversions ℚ) (resetDDS : Bool) (first second : DDSVariables ℚ),
        UpdatesAlike conversions resetDDS first second := by
  intro claimed
  have alike := claimed
    { computePhaseStep := fun _ => 0, computePhaseOffset := fun _ => 0
      computeAmplitude := fun _ _ => 0, computeAmplitudeOffset := fun _ => 0
      computeModIndex := fun _ => 0 } false ddsDefaults
    { ddsDefaults with
      amModulationWaveType := .arb, amModulationON := true
      amModulationFrequency := frequencyValue "FREQUENCY" 10 }
  exact absurd (alike.own .dds1AM) (by decide +kernel)

end DDSFunctionGen.Firmware

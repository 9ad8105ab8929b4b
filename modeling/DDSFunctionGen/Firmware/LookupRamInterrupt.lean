import DDSFunctionGen.Firmware.LookupRam
import DDSFunctionGen.Fpga.WaveGenerator
import DDSFunctionGen.Semantics.Execution

/-!
# The lookup-RAM interrupt

The six refill lines, one for each wave generator, are read through one PIO.
`ISR_lookupRam` compares them with the value it read the last time and hands
`ram_wav_update` the half each changed generator has left. When both main
channels play a wave file they are refilled as one stereo pair, in one call and
at the pace of channel 0.
-/

namespace DDSFunctionGen.Firmware

open DDSFunctionGen.Fpga DDSFunctionGen.Semantics

/-- What the interrupt reads of one channel: the wave types cached in
`ramLookupDDS` and the modulation flags of `DDS_Variables`. -/
structure ChannelSettings where
  waveType : WaveType
  amWaveType : WaveType
  fmWaveType : WaveType
  amModulationON : Bool
  fmModulationON : Bool
deriving DecidableEq, Repr

structure LookupSettings where
  dds0 : ChannelSettings
  dds1 : ChannelSettings
deriving DecidableEq, Repr

/-- The bit of a source in the PIO data word. -/
def Source.mask : Source → BitVec 8
  | .dds0 => 0x01
  | .dds0AM => 0x02
  | .dds0FM => 0x04
  | .dds1 => 0x08
  | .dds1AM => 0x10
  | .dds1FM => 0x20

/-- `lookup_ram_isr[5:0]` as read from the PIO. -/
def pioData (line : Source → Bool) : BitVec 8 :=
  (if line .dds0 then Source.dds0.mask else 0) |||
  (if line .dds0AM then Source.dds0AM.mask else 0) |||
  (if line .dds0FM then Source.dds0FM.mask else 0) |||
  (if line .dds1 then Source.dds1.mask else 0) |||
  (if line .dds1AM then Source.dds1AM.mask else 0) |||
  (if line .dds1FM then Source.dds1FM.mask else 0)

/-- The halves handed to one call of `ram_wav_update`. -/
structure RefillCall where
  ramL : RamHalf
  ramR : Option RamHalf
deriving DecidableEq, Repr

/-- `(value & mask) != (previusValue & mask)`. -/
def differs (mask previusValue value : BitVec 8) : Bool := value &&& mask != previusValue &&& mask

/-- `(value & mask) ? &ram[0] : &ram[512]`. -/
def leftHalf (source : Source) (mask value : BitVec 8) : RamHalf where
  source := source
  upper := value &&& mask == 0

/-- The `if`/`else if` chain over the two main channels. -/
def mainCalls (settings : LookupSettings) (previusValue value : BitVec 8) : List RefillCall :=
  if differs 0x01 previusValue value ∧ settings.dds0.waveType = .arb ∧
      settings.dds1.waveType = .arb then
    [{ ramL := leftHalf .dds0 0x01 value, ramR := some (leftHalf .dds1 0x01 value) }]
  else if differs 0x01 previusValue value ∧ settings.dds0.waveType = .arb then
    [{ ramL := leftHalf .dds0 0x01 value, ramR := none }]
  else if differs 0x08 previusValue value ∧ settings.dds1.waveType = .arb ∧
      settings.dds0.waveType ≠ .arb then
    [{ ramL := leftHalf .dds1 0x08 value, ramR := none }]
  else []

/-- The statement for one modulation source. -/
def modulationCalls (source : Source) (waveType : WaveType) (modulationON : Bool)
    (previusValue value : BitVec 8) : List RefillCall :=
  if differs source.mask previusValue value ∧ waveType = .arb ∧ modulationON then
    [{ ramL := leftHalf source source.mask value, ramR := none }]
  else []

/-- `ISR_lookupRam`: the calls of `ram_wav_update` it makes, in order. -/
def isrLookupRam (settings : LookupSettings) (previusValue value : BitVec 8) : List RefillCall :=
  mainCalls settings previusValue value ++
  modulationCalls .dds0AM settings.dds0.amWaveType settings.dds0.amModulationON previusValue value ++
  modulationCalls .dds0FM settings.dds0.fmWaveType settings.dds0.fmModulationON previusValue value ++
  modulationCalls .dds1AM settings.dds1.amWaveType settings.dds1.amModulationON previusValue value ++
  modulationCalls .dds1FM settings.dds1.fmWaveType settings.dds1.fmModulationON previusValue value

/-- Every half handed out by a list of calls. -/
def handedHalves (calls : List RefillCall) : List RamHalf :=
  calls.flatMap fun call => call.ramL :: call.ramR.toList

/-- A source plays wave data: it is in ARB mode and, for a modulation, on. -/
def LookupSettings.playing (settings : LookupSettings) : Source → Bool
  | .dds0 => settings.dds0.waveType = .arb
  | .dds0AM => settings.dds0.amWaveType = .arb ∧ settings.dds0.amModulationON
  | .dds0FM => settings.dds0.fmWaveType = .arb ∧ settings.dds0.fmModulationON
  | .dds1 => settings.dds1.waveType = .arb
  | .dds1AM => settings.dds1.amWaveType = .arb ∧ settings.dds1.amModulationON
  | .dds1FM => settings.dds1.fmWaveType = .arb ∧ settings.dds1.fmModulationON

/-- The source whose line paces the refills of a source: its own, except that
channel 1 follows channel 0 while both play a wave file. -/
def LookupSettings.pacedBy (settings : LookupSettings) (source : Source) : Source :=
  if source = .dds1 ∧ settings.dds0.waveType = .arb ∧ settings.dds1.waveType = .arb then .dds0
  else source

/-- The six generators with what the interrupt keeps between two invocations. -/
structure LookupSystem where
  generators : Source → WaveGenerator 32 := fun _ => {}
  settings : LookupSettings
  previusValue : BitVec 8 := 0

/-- A clock edge of the generators, a change of the settings, or one invocation
of the interrupt. -/
inductive LookupEvent where
  | clock (inputs : Source → WaveGenerator.Inputs 32)
  | configure (settings : LookupSettings)
  | interrupt

namespace LookupSystem

/-- The refill line of a source: its phase MSB. -/
def line (system : LookupSystem) (source : Source) : Bool := (system.generators source).ramIsr

/-- The lookup-RAM word a source is reading. -/
def readIndex (system : LookupSystem) (source : Source) : Nat :=
  ((system.generators source).ramAddress 10).toNat

/-- The calls an invocation of the interrupt makes in this state. -/
def calls (system : LookupSystem) : List RefillCall :=
  isrLookupRam system.settings system.previusValue (pioData system.line)

def step (system : LookupSystem) : LookupEvent → LookupSystem
  | .clock inputs =>
      { system with generators := fun source => (system.generators source).clock (inputs source) }
  | .configure settings => { system with settings }
  | .interrupt => { system with previusValue := pioData system.line }

/-- The bit of a source in `previusValue`. -/
def previousLine (system : LookupSystem) (source : Source) : Bool :=
  system.previusValue &&& source.mask != 0

/-- An invocation of the interrupt hands out halves of playing sources only, and
never the half that the source pacing them is reading; and it hands out, exactly
once, the half a playing source has left when the line pacing it changed. -/
def RefillsPacedBy (system : LookupSystem) (paces : Source → Source) : Prop :=
  (∀ half ∈ handedHalves system.calls,
    system.settings.playing half.source = true ∧
    ¬ { half with source := paces half.source : RamHalf }.Covers (paces half.source)
      (system.readIndex (paces half.source))) ∧
  ∀ source, system.settings.playing source = true →
    system.line (paces source) ≠ system.previousLine (paces source) →
    (handedHalves system.calls).filter (fun half => half.source = source) =
      [{ source, upper := !system.line (paces source) }]

end LookupSystem

/-- The bits of the PIO word are the six lines. -/
theorem pioData_masked (line : Source → Bool) (source : Source) :
    pioData line &&& source.mask = if line source then source.mask else 0 := by
  have single : ∀ (on : Bool) (own : BitVec 8),
      (if on then own else 0) &&& source.mask = if on then own &&& source.mask else 0 := by
    intro on own
    cases on <;> simp
  simp only [pioData, BitVec.and_or_distrib_right, single]
  cases source <;> simp [Source.mask]

theorem masked_eq_zero_or_mask (source : Source) (value : BitVec 8) :
    value &&& source.mask = 0 ∨ value &&& source.mask = source.mask := by
  revert value
  cases source <;> decide

theorem Source.mask_ne_zero (source : Source) : ¬ source.mask = 0#8 := by
  cases source <;> decide

@[simp] theorem handedHalves_append (first second : List RefillCall) :
    handedHalves (first ++ second) = handedHalves first ++ handedHalves second := by
  simp [handedHalves]

/-- A modulation statement hands out a half of its own source only. -/
theorem handedHalves_modulationCalls (own source : Source) (waveType : WaveType)
    (modulationON : Bool) (previusValue value : BitVec 8) :
    (handedHalves (modulationCalls own waveType modulationON previusValue value)).filter
        (fun half => half.source = source) =
      if own = source ∧ (waveType = .arb ∧ modulationON) ∧
          differs own.mask previusValue value then
        [leftHalf own own.mask value]
      else [] := by
  unfold modulationCalls
  by_cases same : own = source
  · subst same
    by_cases handed : differs own.mask previusValue value ∧ waveType = .arb ∧ modulationON
    · rw [if_pos handed, if_pos ⟨rfl, handed.2, handed.1⟩]
      simp [handedHalves, leftHalf]
    · rw [if_neg handed, if_neg fun holds => handed ⟨holds.2.2, holds.2.1⟩]
      rfl
  · have noneOwn : ∀ calls, (∀ half ∈ handedHalves calls, half.source = own) →
        (handedHalves calls).filter (fun half => half.source = source) = [] := by
      intro calls allOwn
      simp only [List.filter_eq_nil_iff, decide_eq_true_eq]
      exact fun half member other => same ((allOwn half member).symm.trans other)
    rw [noneOwn, if_neg fun holds : own = source ∧ _ => same holds.1]
    split_ifs <;> simp [handedHalves, leftHalf]

/-- The main statement hands out the half of channel 0 by its own line, and that
of channel 1 by the line pacing it. -/
theorem handedHalves_mainCalls (settings : LookupSettings) (previusValue value : BitVec 8)
    (source : Source) :
    (handedHalves (mainCalls settings previusValue value)).filter
        (fun half => half.source = source) =
      if (source = .dds0 ∨ source = .dds1) ∧ settings.playing source ∧
          differs (settings.pacedBy source).mask previusValue value then
        [leftHalf source (settings.pacedBy source).mask value]
      else [] := by
  unfold mainCalls
  cases source <;>
    by_cases arb0 : settings.dds0.waveType = .arb <;>
    by_cases arb1 : settings.dds1.waveType = .arb <;>
    simp [arb0, arb1, handedHalves, leftHalf, LookupSettings.playing, LookupSettings.pacedBy,
      Source.mask] <;>
    split_ifs <;> simp

/-- What one invocation hands out of one source's RAM. -/
theorem handedHalves_of_source (settings : LookupSettings) (previusValue value : BitVec 8)
    (source : Source) :
    (handedHalves (isrLookupRam settings previusValue value)).filter
        (fun half => half.source = source) =
      if settings.playing source ∧
          differs (settings.pacedBy source).mask previusValue value then
        [leftHalf source (settings.pacedBy source).mask value]
      else [] := by
  simp only [isrLookupRam, handedHalves_append, List.filter_append, handedHalves_modulationCalls,
    handedHalves_mainCalls]
  cases source <;> simp [LookupSettings.playing, LookupSettings.pacedBy]

/-- The interrupt sees a changed bit where the line differs from the bit kept. -/
theorem differs_pioData (line : Source → Bool) (previusValue : BitVec 8) (source : Source) :
    differs source.mask previusValue (pioData line) = true ↔
      line source ≠ (previusValue &&& source.mask != 0) := by
  have nonzero := source.mask_ne_zero
  have nonzero' : ¬ 0#8 = source.mask := fun zero => nonzero zero.symm
  simp only [differs, pioData_masked]
  rcases masked_eq_zero_or_mask source previusValue with zero | one
  · cases line source <;> simp [zero, nonzero]
  · cases line source <;> simp [one, nonzero, nonzero']

/-- The half it then hands out is the one the line says has been left. -/
theorem leftHalf_pioData (line : Source → Bool) (source pace : Source) :
    leftHalf source pace.mask (pioData line) = { source, upper := !line pace } := by
  have nonzero := pace.mask_ne_zero
  rw [leftHalf, pioData_masked]
  cases line pace <;> simp [nonzero]

/-- What one invocation hands out of one source's RAM, by the lines. -/
theorem handedHalves_pioData (settings : LookupSettings) (line : Source → Bool)
    (previusValue : BitVec 8) (source : Source) :
    (handedHalves (isrLookupRam settings previusValue (pioData line))).filter
        (fun half => half.source = source) =
      if settings.playing source = true ∧ line (settings.pacedBy source) ≠
          (previusValue &&& (settings.pacedBy source).mask != 0) then
        [{ source, upper := !line (settings.pacedBy source) }]
      else [] := by
  rw [handedHalves_of_source, leftHalf_pioData]
  simp only [differs_pioData]

/-- A half handed out is that of a playing source, whose pace has changed. -/
theorem mem_handedHalves {settings : LookupSettings} {line : Source → Bool}
    {previusValue : BitVec 8} {half : RamHalf}
    (handed : half ∈ handedHalves (isrLookupRam settings previusValue (pioData line))) :
    (settings.playing half.source = true ∧ line (settings.pacedBy half.source) ≠
        (previusValue &&& (settings.pacedBy half.source).mask != 0)) ∧
      half.upper = !line (settings.pacedBy half.source) := by
  have own : half ∈ (handedHalves (isrLookupRam settings previusValue (pioData line))).filter
      (fun other => other.source = half.source) := List.mem_filter.mpr ⟨handed, by simp⟩
  rw [handedHalves_pioData] at own
  split at own
  · rename_i refilled
    exact ⟨refilled, congrArg RamHalf.upper (List.mem_singleton.mp own)⟩
  · exact absurd own List.not_mem_nil

namespace LookupSystem

variable (system : LookupSystem)

/-- The half a line says has been left is not the one its source is reading. -/
theorem left_half_not_read (source : Source) :
    ¬ { source, upper := !system.line source : RamHalf }.Covers source
      (system.readIndex source) := by
  have line : system.line source = decide (512 ≤ system.readIndex source) := by
    refine Eq.trans ?_ (BitVec.msb_eq_decide ((system.generators source).ramAddress 10))
    have positive : 0 < 10 := by decide
    have fits : 10 ≤ 32 := by decide
    exact PhaseToAmplitude.ramIsr_eq_msb_ramAddress _ positive fits
  rintro ⟨-, lower, upper⟩
  by_cases second : 512 ≤ system.readIndex source
  · have offset : { source, upper := !system.line source : RamHalf }.offset = 0 := by
      simp [RamHalf.offset, line, second]
    omega
  · have offset : { source, upper := !system.line source : RamHalf }.offset = 512 := by
      simp [RamHalf.offset, line, second]
    omega

theorem handedHalves_calls (source : Source) :
    (handedHalves system.calls).filter (fun half => half.source = source) =
      if system.settings.playing source = true ∧
          system.line (system.settings.pacedBy source) ≠
            system.previousLine (system.settings.pacedBy source) then
        [{ source, upper := !system.line (system.settings.pacedBy source) }]
      else [] :=
  handedHalves_pioData system.settings system.line system.previusValue source

/-- Every invocation of the interrupt refills at the pace of each source's own
line, except that channel 1 follows channel 0 while both play a wave file. -/
theorem interrupt_refills_paced (settings : LookupSettings) (events : List LookupEvent) :
    let system := run step { settings } events
    system.RefillsPacedBy system.settings.pacedBy := by
  intro system
  constructor
  · intro half handed
    obtain ⟨⟨playing, -⟩, left⟩ := mem_handedHalves handed
    rw [left]
    exact ⟨playing, system.left_half_not_read _⟩
  · intro source playing changed
    rw [handedHalves_calls, if_pos ⟨playing, changed⟩]

/-- Channel 0 leaves the lower half while channel 1 still reads its own lower
half: the pair is refilled there, under channel 1's reading address. -/
theorem stereo_pair_ignores_second_line :
    ¬ ∀ (settings : LookupSettings) (events : List LookupEvent),
      (run step { settings } events).RefillsPacedBy id := by
  intro claimed
  let wave : ChannelSettings :=
    { waveType := .arb, amWaveType := .sine, fmWaveType := .sine, amModulationON := false
      fmModulationON := false }
  let inputs : Source → WaveGenerator.Inputs 32 := fun source =>
    { reset := false, phaseStep := if source = .dds0 then 0x80000000 else 0, phaseOffset := 0 }
  obtain ⟨safe, -⟩ := claimed { dds0 := wave, dds1 := wave } [.clock inputs, .clock inputs]
  obtain ⟨-, unread⟩ := safe { source := .dds1, upper := false } (by decide)
  exact unread (by decide)

end LookupSystem
end DDSFunctionGen.Firmware

import DDSFunctionGen.Firmware.LookupPio
import DDSFunctionGen.Firmware.RegisterUpdate
import DDSFunctionGen.Player.RefillWrites

/-!
# The wave tables

The main loop lets the menu change the wave types, writes the interrupt mask and
rewrites, word by word, the lookup RAMs whose wave type has changed. The cached
wave type of a RAM follows when it is rewritten; the lookup-RAM interrupt goes
by the cached types, and can come between any two words.
-/

namespace DDSFunctionGen.Firmware

open DDSFunctionGen.Menu DDSFunctionGen.Player DDSFunctionGen.SdCard DDSFunctionGen.Semantics

/-! ## Samples -/

/-- `_LOOKUP_RAM_SIZE` -/
def lookupRamSize : Nat := 1024

/-- `_FIXED_POINT_CONSTANT` -/
def fixedPointConstant : Int := 32767

/-- `_ONE_QUARTER_WAVE`, `_ONE_HALF_WAVE` and `_ONE_THIRD_WAVE`. -/
def oneQuarterWave : Int := 1024 / 4
def oneHalfWave : Int := 1024 / 2
def oneThirdWave : Int := oneHalfWave + oneQuarterWave

/-- `ClampSample` -/
def clampSample (sample : Int) : BitVec 16 :=
  let sample := if 0 < sample then sample + 1280 else sample - 1280
  let sample :=
    if fixedPointConstant ≤ sample then fixedPointConstant - 1
    else if sample ≤ -fixedPointConstant then -fixedPointConstant + 1
    else sample
  BitVec.ofInt 16 sample

/-- `SquareWaveSample` -/
def squareWaveSample (t : Nat) : BitVec 16 :=
  BitVec.ofInt 16 (if t < lookupRamSize / 2 then fixedPointConstant else -fixedPointConstant)

/-- `TriangleWaveSample` -/
def triangleWaveSample (t : Nat) : BitVec 16 :=
  let t : Int := t
  clampSample
    (if t < oneQuarterWave then t * (fixedPointConstant / oneQuarterWave)
    else if t < oneThirdWave then
      fixedPointConstant - (t - oneQuarterWave) * (fixedPointConstant * 2 / oneHalfWave)
    else (t - oneThirdWave) * (fixedPointConstant / oneQuarterWave) - fixedPointConstant)

/-- `SawtoothWaveSample` -/
def sawtoothWaveSample (t : Nat) : BitVec 16 :=
  clampSample (t * (fixedPointConstant / oneHalfWave) - fixedPointConstant)

/-- `SineWaveSample`: `sinePrecomputedArray[t]`, from the scaled sine as it is
converted to an integer. -/
def sineWaveSample (scaledSine : Nat → BitVec 16) (t : Nat) : BitVec 16 :=
  clampSample (scaledSine t).toInt

/-- `ArbWaveSample` -/
def arbWaveSample (_t : Nat) : BitVec 16 := 0

/-- `ComputeSample`, as `UpdateRam` chooses it. -/
def computeSample (scaledSine : Nat → BitVec 16) : WaveType → Nat → BitVec 16
  | .square => squareWaveSample
  | .triangele => triangleWaveSample
  | .sawtooth => sawtoothWaveSample
  | .sine => sineWaveSample scaledSine
  | .arb => arbWaveSample
  | .none => sineWaveSample scaledSine

/-! ## The main loop -/

/-- The step of the main loop that comes next: what `menu_draw` does, the write of
the mask, or a statement of `UpdateRamLookups` and `UpdateRam`. -/
inductive LoopPoint where
  | menu
  | mask
  | test (source : Source)
  | store (source : Source) (waveType : WaveType) (index : Nat)
  | cache (source : Source)
deriving DecidableEq, Repr

/-- What follows on the RAM of a source in `UpdateRamLookups`. -/
def afterRam : Source → LoopPoint
  | .dds0 => .test .dds0AM
  | .dds0AM => .test .dds0FM
  | .dds0FM => .test .dds1
  | .dds1 => .test .dds1AM
  | .dds1AM => .test .dds1FM
  | .dds1FM => .menu

/-- The wave type that `DDS_Variables` holds for a RAM. -/
def wave {F : Type} (dds : Channel → DDSVariables F) : Source → WaveType
  | .dds0 => (dds 0).waveType
  | .dds0AM => (dds 0).amModulationWaveType
  | .dds0FM => (dds 0).fmModulationWaveType
  | .dds1 => (dds 1).waveType
  | .dds1AM => (dds 1).amModulationWaveType
  | .dds1FM => (dds 1).fmModulationWaveType

/-- The program: `DDS_Variables`, the cached wave types of `ramLookupDDS`, the player
with the RAMs, and the PIO of the refill lines with what the interrupt keeps. -/
structure Program (F : Type) where
  dds : Channel → DDSVariables F
  cached : Source → WaveType
  player : WavPlayer
  line : Source → Bool := fun _ => false
  edgeCapture : BitVec 8 := 0
  irqMask : BitVec 8 := 0
  previusValue : BitVec 8 := 0
  point : LoopPoint := .menu

/-- The menu changes the variables or the player, the loop goes on, a refill line
changes, or the interrupt runs, with the uninitialised locals of its refills. -/
inductive ProgramEvent (F : Type) where
  | edit (dds : Channel → DDSVariables F)
  | select (file : FileInfo)
  | stop
  | advance
  | toggle (source : Source)
  | interrupt (locals : RefillCall → HeaderLocals) (stack : RefillCall → Nat → UInt8)

/-- The arguments of a call of `ram_wav_update`, with the uninitialised locals of the
functions it calls. -/
def RefillCall.refill (call : RefillCall) (locals : RefillCall → HeaderLocals)
    (stack : RefillCall → Nat → UInt8) : Refill where
  ramL := some call.ramL
  ramR := call.ramR
  locals := locals call
  stack := stack call

namespace Program

variable {F : Type}

/-- What the interrupt reads of both channels. -/
def settings (program : Program F) : LookupSettings where
  dds0 :=
    { waveType := program.cached .dds0
      amWaveType := program.cached .dds0AM
      fmWaveType := program.cached .dds0FM
      amModulationON := (program.dds 0).amModulationON
      fmModulationON := (program.dds 0).fmModulationON }
  dds1 :=
    { waveType := program.cached .dds1
      amWaveType := program.cached .dds1AM
      fmWaveType := program.cached .dds1FM
      amModulationON := (program.dds 1).amModulationON
      fmModulationON := (program.dds 1).fmModulationON }

/-- `irq` -/
def irq (program : Program F) : Bool := program.edgeCapture &&& program.irqMask != 0

/-- The calls of `ram_wav_update` that the interrupt makes. -/
def calls (program : Program F) : List RefillCall :=
  isrLookupRam program.settings program.previusValue (pioData program.line)

/-- `ISR_lookupRam` -/
def interrupt (volume : Volume) (locals : RefillCall → HeaderLocals)
    (stack : RefillCall → Nat → UInt8) (program : Program F) : Program F :=
  { program with
    player := program.calls.foldl
      (fun player call => player.ramWavUpdate volume (call.refill locals stack)) program.player
    previusValue := pioData program.line
    edgeCapture := 0 }

/-- `ram[i] = sample` -/
def storeWord (rams : LookupRams) (source : Source) (index : Nat) (sample : BitVec 16) :
    LookupRams :=
  fun other i => if other = source ∧ i = index then sample else rams other i

variable [CFloat F]

/-- The next step of the main loop. -/
def advance (scaledSine : Nat → BitVec 16) (program : Program F) : Program F :=
  match program.point with
  | .menu => { program with point := .mask }
  | .mask => { program with irqMask := Firmware.irqMask program.dds, point := .test .dds0 }
  | .test source =>
      { program with
        point :=
          if wave program.dds source ≠ program.cached source then
            .store source (wave program.dds source) 0
          else afterRam source }
  | .store source waveType index =>
      { program with
        player :=
          { program.player with
            rams := storeWord program.player.rams source index
              (computeSample scaledSine waveType index) }
        point :=
          if index + 1 < lookupRamSize then .store source waveType (index + 1)
          else .cache source }
  | .cache source =>
      { program with
        cached := fun other =>
          if other = source then wave program.dds source else program.cached other
        point := afterRam source }

/-- One event. The menu runs in its part of the loop only, the interrupt while it is
pending. -/
def step (volume : Volume) (scaledSine : Nat → BitVec 16) (program : Program F) :
    ProgramEvent F → Program F
  | .edit dds => if program.point = .menu then { program with dds } else program
  | .select file =>
      if program.point = .menu then { program with player := program.player.select file }
      else program
  | .stop =>
      if program.point = .menu then { program with player := program.player.stop } else program
  | .advance => program.advance scaledSine
  | .toggle source =>
      { program with
        line := fun other => if other = source then !program.line source else program.line other
        edgeCapture := program.edgeCapture ||| source.mask }
  | .interrupt locals stack =>
      if program.irq then program.interrupt volume locals stack else program

/-- The program as it enters the loop: no table has been written. -/
def powerUp (rams : LookupRams) : Program F where
  dds _ := ddsDefaults
  cached _ := .none
  player := Player.powerUp rams

end Program
end DDSFunctionGen.Firmware

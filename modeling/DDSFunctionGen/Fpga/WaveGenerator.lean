import Mathlib.Tactic.Linarith

/-!
# The phase accumulator and lookup address of a wave generator

One `DDS_WaveGenerator` holds two registers: the accumulator of `DDS_PhaseReg`
and the offset phase derived from it one clock later. `DDS_PhaseToAmplitude` is
combinational: the top bits of the offset phase address the lookup RAM, its
most significant bit is the refill interrupt line, and the RAM word is the
amplitude.
-/

namespace DDSFunctionGen.Fpga

/-- A signed fixed-point word of `_FIXED_POITN_WIDTH` bits. -/
abbrev FixedPoint := BitVec 16

/-- `_FIXED_POINT_CONSTANT`, a signed 64-bit parameter, so the expressions it
occurs in are evaluated in 64 bits. -/
def fixedPointConstant : BitVec 64 := 1#64 <<< 15

namespace PhaseReg

/-- `NextPhaseRegister` of `DDS_PhaseReg`. -/
def nextPhaseRegister {width : Nat} (phaseRegister phaseStep : BitVec width) : BitVec width :=
  phaseRegister + phaseStep

/-- The accumulator after one rising clock edge. -/
def clock {width : Nat} (reset : Bool) (phaseRegister phaseStep : BitVec width) :
    BitVec width :=
  if reset then 0 else nextPhaseRegister phaseRegister phaseStep

end PhaseReg

namespace PhaseToAmplitude

/-- `o_ram_isr`: low while the first half of the RAM is read, high for the second. -/
def ramIsr {width : Nat} (phase : BitVec width) : Bool := phase.msb

/-- `o_ram_address`: the top `addressWidth` bits of the phase word. -/
def ramAddress {width : Nat} (addressWidth : Nat) (phase : BitVec width) :
    BitVec addressWidth :=
  phase.extractLsb' (width - addressWidth) addressWidth

/-- `o_amplitude`: the word read from the lookup RAM. -/
def amplitude (ramData : FixedPoint) : FixedPoint := ramData

/-- The interrupt line is the most significant bit of the RAM address, so it
tells which half of the RAM is being read. -/
theorem ramIsr_eq_msb_ramAddress {width addressWidth : Nat} (phase : BitVec width)
    (positive : 0 < addressWidth) (fits : addressWidth ≤ width) :
    ramIsr phase = (ramAddress addressWidth phase).msb := by
  have top : width - addressWidth + (addressWidth - 1) = width - 1 := by omega
  have inside : addressWidth - 1 < addressWidth := by omega
  simp only [ramIsr, ramAddress, BitVec.msb_eq_getLsbD_last, BitVec.getLsbD_extractLsb',
    inside, decide_true, Bool.true_and, top]

end PhaseToAmplitude

/-- The registers of one `DDS_WaveGenerator`, cleared at power-up. -/
structure WaveGenerator (width : Nat) where
  phaseRegister : BitVec width := 0
  currentPhaseOfsetted : BitVec width := 0
deriving DecidableEq, Repr

namespace WaveGenerator

/-- The inputs sampled at one rising clock edge. -/
structure Inputs (width : Nat) where
  reset : Bool
  phaseStep : BitVec width
  phaseOffset : BitVec width
deriving DecidableEq, Repr

variable {width : Nat}

/-- One rising clock edge: both registers read the accumulator's old value. -/
def clock (generator : WaveGenerator width) (inputs : Inputs width) : WaveGenerator width where
  phaseRegister := PhaseReg.clock inputs.reset generator.phaseRegister inputs.phaseStep
  currentPhaseOfsetted := generator.phaseRegister + inputs.phaseOffset

/-- `o_ram_isr` of the generator. -/
def ramIsr (generator : WaveGenerator width) : Bool :=
  PhaseToAmplitude.ramIsr generator.currentPhaseOfsetted

/-- `o_ram_address` of the generator. -/
def ramAddress (addressWidth : Nat) (generator : WaveGenerator width) : BitVec addressWidth :=
  PhaseToAmplitude.ramAddress addressWidth generator.currentPhaseOfsetted

/-- `o_Wave`: the amplitude passes through unchanged. -/
def wave (ramData : FixedPoint) : FixedPoint := PhaseToAmplitude.amplitude ramData

end WaveGenerator
end DDSFunctionGen.Fpga

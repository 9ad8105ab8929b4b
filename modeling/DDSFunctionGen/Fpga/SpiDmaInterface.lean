/-!
# The bridge between the SPI bus and the DMA controller

One rising clock edge of `SPI_DMA_Interface` runs five statements whose
assignments are nonblocking: every condition and right-hand side reads the
registers as they were, and the last assignment to a register wins. Each
statement is a function of those registers and of the assignments before it.
-/

namespace DDSFunctionGen.Fpga

/-- The registers of `SPI_DMA_Interface`, its output registers included. -/
structure SpiDma where
  data : BitVec 8
  dataReady : Bool
  counter : BitVec 32
  bitIndex : BitVec 4
  readdata : BitVec 8
  readdatavalid : Bool
  waitrequest : Bool
  misoCPU : Bool
  spiMOSI : Bool
  spiSCLK : Bool
  spiSSn : Bool
deriving DecidableEq, Repr

/-- The inputs sampled at one rising clock edge. -/
structure SpiDmaInputs where
  rst : Bool
  chipselect : Bool
  readN : Bool
  mosiCPU : Bool
  sclkCPU : Bool
  ssnCPU : Bool
  miso : Bool
deriving DecidableEq, Repr

/-- A byte with one bit replaced. -/
def replaceBit (word : BitVec 8) (index : Nat) (bit : Bool) : BitVec 8 :=
  if bit then word ||| BitVec.twoPow 8 index else word &&& ~~~BitVec.twoPow 8 index

theorem getLsbD_replaceBit (word : BitVec 8) {index : Nat} (inRange : index < 8) (bit : Bool)
    (other : Nat) :
    (replaceBit word index bit).getLsbD other =
      if other = index then bit else word.getLsbD other := by
  unfold replaceBit
  by_cases same : other = index
  · subst same
    cases bit <;> simp [inRange]
  · have differs : ¬ index = other := fun equal => same equal.symm
    by_cases below : other < 8
    · cases bit
      · simp [same, below]
      · simp [same, differs]
    · have outside : word.getLsbD other = false := BitVec.getLsbD_of_ge _ _ (by omega)
      cases bit
      · simp [same, below, outside]
      · simp [same, differs, outside]

namespace SpiDma

/-- The branch `if(i_rst)`. -/
def reset (dma : SpiDma) : SpiDma :=
  { dma with
    data := 0, readdatavalid := false, waitrequest := false, dataReady := false, counter := 0
    bitIndex := 0 }

/-- A read is accepted: it is asserted while `waitrequest` is low. -/
def accepts (dma : SpiDma) (inputs : SpiDmaInputs) : Bool :=
  !inputs.readN && inputs.chipselect && !dma.waitrequest

/-- The DMA is not selected and nothing is outstanding. -/
def idles (dma : SpiDma) (inputs : SpiDmaInputs) : Bool :=
  inputs.readN && !inputs.chipselect && !dma.waitrequest && !dma.readdatavalid

/-- `//DMA selected` -/
def selectDma (dma : SpiDma) (inputs : SpiDmaInputs) (next : SpiDma) : SpiDma :=
  if dma.accepts inputs then
    { next with waitrequest := true, dataReady := false, spiSCLK := false, spiMOSI := true }
  else next

/-- `//read data` -/
def readData (dma : SpiDma) (next : SpiDma) : SpiDma :=
  if dma.waitrequest && !dma.readdatavalid && dma.dataReady then
    { next with readdata := dma.data, waitrequest := false, readdatavalid := true }
  else if !dma.waitrequest && dma.readdatavalid then { next with readdatavalid := false }
  else next

/-- `//Dma not selected` -/
def releaseBus (dma : SpiDma) (inputs : SpiDmaInputs) (next : SpiDma) : SpiDma :=
  if dma.idles inputs then
    { next with
      data := 0, readdatavalid := false, waitrequest := false, dataReady := false, counter := 0
      bitIndex := 0
      misoCPU := inputs.miso, spiMOSI := inputs.mosiCPU, spiSCLK := inputs.sclkCPU
      spiSSn := inputs.ssnCPU }
  else next

/-- The clock divider lets a bus edge happen. -/
def ticks (dma : SpiDma) : Bool := dma.counter % 2 == 0 && dma.counter != 0

/-- `//Read data from SPI` -/
def shiftSpi (dma : SpiDma) (inputs : SpiDmaInputs) (next : SpiDma) : SpiDma :=
  if dma.waitrequest && !dma.dataReady then
    let next := { next with counter := dma.counter + 1 }
    if dma.ticks then
      if dma.bitIndex < 8 then
        let next := { next with spiSCLK := !dma.spiSCLK }
        if !dma.spiSCLK then
          { next with
            data := replaceBit dma.data (7 - dma.bitIndex.toNat) inputs.miso
            bitIndex := dma.bitIndex + 1 }
        else next
      else { next with dataReady := true, bitIndex := 0 }
    else next
  else next

/-- One rising clock edge. -/
def clock (dma : SpiDma) (inputs : SpiDmaInputs) : SpiDma :=
  if inputs.rst then dma.reset
  else dma.shiftSpi inputs (dma.releaseBus inputs (dma.readData (dma.selectDma inputs dma)))

end SpiDma

/-- The bridge between a DMA controller that counts the reads accepted and
keeps the byte of every clock with `readdatavalid` high, and a card that moves
to its next bit on every falling edge of `o_spi_SCLK`. -/
structure SpiBench where
  dma : SpiDma
  position : Nat := 0
  accepted : Nat := 0
  pulses : List (BitVec 8) := []
deriving DecidableEq, Repr

/-- What the DMA controller and the idle CPU drive during one clock. -/
structure SpiRequest where
  chipselect : Bool
  readN : Bool
  mosiCPU : Bool := true
  ssnCPU : Bool := false
deriving DecidableEq, Repr

/-- The inputs of a clock after reset, with the CPU-side clock idle low. -/
def SpiRequest.inputs (request : SpiRequest) (miso : Bool) : SpiDmaInputs where
  rst := false
  chipselect := request.chipselect
  readN := request.readN
  mosiCPU := request.mosiCPU
  sclkCPU := false
  ssnCPU := request.ssnCPU
  miso := miso

/-- One clock of the bench, for a card presenting `bits`. -/
def SpiBench.step (bits : Nat → Bool) (bench : SpiBench) (request : SpiRequest) : SpiBench :=
  let inputs := request.inputs (bits bench.position)
  let next := bench.dma.clock inputs
  { dma := next
    position := if bench.dma.spiSCLK && !next.spiSCLK then bench.position + 1 else bench.position
    accepted := if bench.dma.accepts inputs then bench.accepted + 1 else bench.accepted
    pulses := if bench.dma.readdatavalid then bench.pulses ++ [bench.dma.readdata]
      else bench.pulses }

/-- The bridge after a clock in reset and a clock with the DMA not selected,
whatever its registers held before. -/
def SpiBench.afterReset (registers : SpiDma) (idle : SpiRequest) (miso : Bool) : SpiBench where
  dma := registers.reset.clock ({ idle with chipselect := false, readN := true }.inputs miso)

/-- Byte `k` of the card's stream, most significant bit first. -/
def streamByte (bits : Nat → Bool) (k : Nat) : BitVec 8 :=
  BitVec.ofBoolListBE [bits (8 * k), bits (8 * k + 1), bits (8 * k + 2), bits (8 * k + 3),
    bits (8 * k + 4), bits (8 * k + 5), bits (8 * k + 6), bits (8 * k + 7)]

theorem getLsbD_streamByte (bits : Nat → Bool) (k : Nat) {index : Nat} (inRange : index < 8) :
    (streamByte bits k).getLsbD (7 - index) = bits (8 * k + index) := by
  rw [streamByte, BitVec.getLsbD_ofBoolListBE]
  have cases : index = 0 ∨ index = 1 ∨ index = 2 ∨ index = 3 ∨ index = 4 ∨ index = 5 ∨
      index = 6 ∨ index = 7 := by omega
  rcases cases with rfl | rfl | rfl | rfl | rfl | rfl | rfl | rfl <;> rfl

/-- A register holding the eight bits of a byte holds that byte. -/
theorem eq_streamByte {bits : Nat → Bool} {k : Nat} {data : BitVec 8}
    (sampled : ∀ index < 8, data.getLsbD (7 - index) = bits (8 * k + index)) :
    data = streamByte bits k := by
  apply BitVec.eq_of_getLsbD_eq
  intro index inRange
  have bit := sampled (7 - index) (by omega)
  rw [← getLsbD_streamByte bits k (by omega), show 7 - (7 - index) = index by omega] at bit
  exact bit

end DDSFunctionGen.Fpga

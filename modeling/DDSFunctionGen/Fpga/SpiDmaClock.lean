import DDSFunctionGen.Fpga.SpiDmaInterface

/-!
# The clocks of the SPI bridge

What one clock does to the registers: a read is accepted, the bridge idles, the
bus is held between reads, a byte is presented, or the bus shifts.
-/

namespace DDSFunctionGen.Fpga

namespace SpiDma

variable {dma : SpiDma} {request : SpiRequest} {miso : Bool}

theorem not_accepts_of_busy {inputs : SpiDmaInputs} (busy : dma.waitrequest = true) :
    dma.accepts inputs = false := by
  simp [accepts, busy]

/-- An accepted read lowers the bus clock and starts the transfer. -/
theorem clock_accepted (accepted : dma.accepts (request.inputs miso) = true) :
    dma.clock (request.inputs miso) =
      { dma with
        waitrequest := true, dataReady := false, spiSCLK := false, spiMOSI := true
        readdatavalid := false } := by
  have free : dma.waitrequest = false := by
    simp only [accepts, Bool.and_eq_true, Bool.not_eq_true'] at accepted
    exact accepted.2
  have notIdle : dma.idles (request.inputs miso) = false := by
    simp only [accepts, Bool.and_eq_true, Bool.not_eq_true'] at accepted
    simp [idles, accepted.1.1]
  have noReset : (request.inputs miso).rst = false := rfl
  cases valid : dma.readdatavalid <;>
    simp [clock, selectDma, readData, releaseBus, shiftSpi, noReset, accepted, notIdle, free, valid]

/-- A released bus follows the CPU, whose clock is low. -/
theorem clock_idle (idle : dma.idles (request.inputs miso) = true) :
    dma.clock (request.inputs miso) =
      { dma with
        data := 0, readdatavalid := false, waitrequest := false, dataReady := false, counter := 0
        bitIndex := 0
        misoCPU := miso, spiMOSI := request.mosiCPU, spiSCLK := false
        spiSSn := request.ssnCPU } := by
  have quiet : dma.waitrequest = false ∧ dma.readdatavalid = false := by
    simp only [idles, Bool.and_eq_true, Bool.not_eq_true'] at idle
    exact ⟨idle.1.2, idle.2⟩
  have notAccepted : dma.accepts (request.inputs miso) = false := by
    simp only [idles, Bool.and_eq_true, Bool.not_eq_true'] at idle
    simp [accepts, idle.1.1.1]
  have noReset : (request.inputs miso).rst = false := rfl
  simp [clock, selectDma, readData, releaseBus, shiftSpi, noReset, idle, notAccepted, quiet]
  exact ⟨rfl, rfl, rfl, rfl⟩

/-- A free bridge that is neither read nor released only ends its pulse. -/
theorem clock_held (free : dma.waitrequest = false)
    (notAccepted : dma.accepts (request.inputs miso) = false)
    (notIdle : dma.idles (request.inputs miso) = false) :
    dma.clock (request.inputs miso) = { dma with readdatavalid := false } := by
  have noReset : (request.inputs miso).rst = false := rfl
  cases valid : dma.readdatavalid with
  | false =>
      have same : { dma with readdatavalid := false } = dma := by rw [← valid]
      rw [same]
      simp [clock, selectDma, readData, releaseBus, shiftSpi, noReset, notAccepted, notIdle, free,
        valid]
  | true =>
      simp [clock, selectDma, readData, releaseBus, shiftSpi, noReset, notAccepted, notIdle, free,
        valid]

/-- A loaded byte is presented. -/
theorem clock_loaded (busy : dma.waitrequest = true) (quiet : dma.readdatavalid = false)
    (ready : dma.dataReady = true) :
    dma.clock (request.inputs miso) =
      { dma with readdata := dma.data, waitrequest := false, readdatavalid := true } := by
  have noReset : (request.inputs miso).rst = false := rfl
  have notIdle : dma.idles (request.inputs miso) = false := by simp [idles, busy]
  simp [clock, selectDma, readData, releaseBus, shiftSpi, noReset, not_accepts_of_busy busy,
    notIdle, busy, quiet, ready]

/-- One clock of a transfer: the divider waits, or a bit is sampled as the bus
clock rises, or the bus clock falls, or the byte is complete. -/
theorem clock_shifting (busy : dma.waitrequest = true) (quiet : dma.readdatavalid = false)
    (pending : dma.dataReady = false) :
    (dma.ticks = false ∧
      dma.clock (request.inputs miso) = { dma with counter := dma.counter + 1 }) ∨
    (dma.bitIndex.toNat < 8 ∧ dma.spiSCLK = false ∧
      dma.clock (request.inputs miso) =
        { dma with
          counter := dma.counter + 1
          spiSCLK := true
          data := replaceBit dma.data (7 - dma.bitIndex.toNat) miso
          bitIndex := dma.bitIndex + 1 }) ∨
    (dma.bitIndex.toNat < 8 ∧ dma.spiSCLK = true ∧
      dma.clock (request.inputs miso) =
        { dma with counter := dma.counter + 1, spiSCLK := false }) ∨
    (¬ dma.bitIndex.toNat < 8 ∧
      dma.clock (request.inputs miso) =
        { dma with counter := dma.counter + 1, dataReady := true, bitIndex := 0 }) := by
  have noReset : (request.inputs miso).rst = false := rfl
  have notIdle : dma.idles (request.inputs miso) = false := by simp [idles, busy]
  have shifts : dma.clock (request.inputs miso) = dma.shiftSpi (request.inputs miso) dma := by
    simp [clock, selectDma, readData, releaseBus, noReset, not_accepts_of_busy busy, notIdle, busy,
      quiet, pending]
  rw [shifts]
  cases tick : dma.ticks with
  | false => exact .inl ⟨rfl, by simp [shiftSpi, busy, pending, tick]⟩
  | true =>
      by_cases inside : dma.bitIndex < 8#4
      · cases level : dma.spiSCLK with
        | false =>
            refine .inr (.inl ⟨inside, rfl, ?_⟩)
            simp [shiftSpi, busy, pending, tick, inside, level]
            rfl
        | true =>
            refine .inr (.inr (.inl ⟨inside, rfl, ?_⟩))
            simp [shiftSpi, busy, pending, tick, inside, level]
      · refine .inr (.inr (.inr ⟨inside, ?_⟩))
        simp [shiftSpi, busy, pending, tick, inside]

end SpiDma

end DDSFunctionGen.Fpga

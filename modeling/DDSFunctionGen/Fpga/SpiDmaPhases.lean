import DDSFunctionGen.Fpga.SpiDmaClock

/-!
# The phases of a transfer

Between two reads the bridge leaves the bus clock high after the eighth bit and
lowers it when the next read is accepted or the bus is released, so the card's
position plus the level of the clock counts the bits consumed.
-/

namespace DDSFunctionGen.Fpga

namespace SpiBench

/-- Where a transfer stands: the bits consumed, the byte sampled so far, and
whether a read is outstanding. -/
inductive Phase (bits : Nat → Bool) (bench : SpiBench) : Prop
  | ready (free : bench.dma.waitrequest = false) (quiet : bench.dma.readdatavalid = false)
      (first : bench.dma.bitIndex = 0)
      (consumed : bench.position + bench.dma.spiSCLK.toNat = 8 * bench.pulses.length)
      (served : bench.accepted = bench.pulses.length)
  | shifting (busy : bench.dma.waitrequest = true) (quiet : bench.dma.readdatavalid = false)
      (pending : bench.dma.dataReady = false) (inByte : bench.dma.bitIndex.toNat ≤ 8)
      (consumed : bench.position + bench.dma.spiSCLK.toNat =
        8 * bench.pulses.length + bench.dma.bitIndex.toNat)
      (low : bench.dma.spiSCLK = false → bench.dma.bitIndex.toNat < 8)
      (sampled : ∀ index < bench.dma.bitIndex.toNat,
        bench.dma.data.getLsbD (7 - index) = bits (8 * bench.pulses.length + index))
      (served : bench.accepted = bench.pulses.length + 1)
  | loaded (busy : bench.dma.waitrequest = true) (quiet : bench.dma.readdatavalid = false)
      (ready : bench.dma.dataReady = true) (first : bench.dma.bitIndex = 0)
      (consumed : bench.position + bench.dma.spiSCLK.toNat = 8 * (bench.pulses.length + 1))
      (byte : bench.dma.data = streamByte bits bench.pulses.length)
      (served : bench.accepted = bench.pulses.length + 1)
  | valid (free : bench.dma.waitrequest = false) (valid : bench.dma.readdatavalid = true)
      (first : bench.dma.bitIndex = 0)
      (consumed : bench.position + bench.dma.spiSCLK.toNat = 8 * (bench.pulses.length + 1))
      (byte : bench.dma.readdata = streamByte bits bench.pulses.length)
      (served : bench.accepted = bench.pulses.length + 1)

/-- The bytes presented so far are the first ones of the stream. -/
def InOrder (bits : Nat → Bool) (bench : SpiBench) : Prop :=
  bench.pulses = (List.range bench.pulses.length).map (streamByte bits)

variable {bits : Nat → Bool} {bench : SpiBench}

/-- A clock without a pulse adds none. -/
theorem pulses_of_quiet (request : SpiRequest) (quiet : bench.dma.readdatavalid = false) :
    (bench.step bits request).pulses = bench.pulses := by
  simp [step, quiet]

/-- A pulse adds the byte that it presents. -/
theorem pulses_of_valid (request : SpiRequest) (valid : bench.dma.readdatavalid = true) :
    (bench.step bits request).pulses = bench.pulses ++ [bench.dma.readdata] := by
  simp [step, valid]

/-- No read is accepted during another one. -/
theorem accepted_of_busy (request : SpiRequest) (busy : bench.dma.waitrequest = true) :
    (bench.step bits request).accepted = bench.accepted := by
  simp [step, SpiDma.not_accepts_of_busy busy]

/-- The bit index does not wrap within a byte. -/
theorem toNat_bitIndex_succ (inByte : bench.dma.bitIndex.toNat ≤ 8) :
    (bench.dma.bitIndex + 1).toNat = bench.dma.bitIndex.toNat + 1 := by
  rw [BitVec.toNat_add_of_lt (by simp; omega)]
  rfl

/-- A falling bus clock consumes a bit: the card's position takes over what the
high level stood for. -/
theorem consumed_step (request : SpiRequest)
    (lowered : (bench.step bits request).dma.spiSCLK = false) :
    (bench.step bits request).position + (bench.step bits request).dma.spiSCLK.toNat =
      bench.position + bench.dma.spiSCLK.toNat := by
  rw [lowered]
  simp only [step] at lowered ⊢
  cases bench.dma.spiSCLK <;> simp [lowered]

/-- A bus clock that keeps its level leaves the card where it is. -/
theorem consumed_same (request : SpiRequest)
    (same : (bench.step bits request).dma.spiSCLK = bench.dma.spiSCLK) :
    (bench.step bits request).position + (bench.step bits request).dma.spiSCLK.toNat =
      bench.position + bench.dma.spiSCLK.toNat := by
  rw [same]
  simp only [step] at same ⊢
  cases level : bench.dma.spiSCLK <;> simp [level, same]

/-- The bridge between two reads: it accepts one, releases the bus, or waits. -/
theorem phase_of_free (request : SpiRequest) (free : bench.dma.waitrequest = false)
    (first : bench.dma.bitIndex = 0)
    (consumed : bench.position + bench.dma.spiSCLK.toNat =
      8 * (bench.step bits request).pulses.length)
    (served : bench.accepted = (bench.step bits request).pulses.length) :
    (bench.step bits request).Phase bits := by
  have next : (bench.step bits request).dma =
      bench.dma.clock (request.inputs (bits bench.position)) := rfl
  have count : (bench.step bits request).accepted =
      if bench.dma.accepts (request.inputs (bits bench.position)) then bench.accepted + 1
      else bench.accepted := rfl
  cases accepted : bench.dma.accepts (request.inputs (bits bench.position)) with
  | true =>
      rw [SpiDma.clock_accepted accepted] at next
      rw [accepted, if_pos rfl] at count
      have consumed := (consumed_step request (by rw [next])).trans consumed
      refine .shifting ?_ ?_ ?_ ?_ ?_ ?_ ?_ ?_
      all_goals simp only [next, first] at consumed ⊢
      · simp
      · exact consumed
      · simp
      · simp
      · rw [count, served]
  | false =>
      rw [accepted, if_neg (by simp)] at count
      cases idle : bench.dma.idles (request.inputs (bits bench.position)) with
      | true =>
          rw [SpiDma.clock_idle idle] at next
          have consumed := (consumed_step request (by rw [next])).trans consumed
          exact .ready (by rw [next]) (by rw [next]) (by rw [next]) consumed (count.trans served)
      | false =>
          rw [SpiDma.clock_held free accepted idle] at next
          have consumed := (consumed_same request (by rw [next])).trans consumed
          exact .ready (by rw [next]; exact free) (by rw [next]) (by rw [next]; exact first) consumed
            (count.trans served)

/-- One clock of a transfer. -/
theorem phase_of_shifting (request : SpiRequest) (busy : bench.dma.waitrequest = true)
    (quiet : bench.dma.readdatavalid = false) (pending : bench.dma.dataReady = false)
    (inByte : bench.dma.bitIndex.toNat ≤ 8)
    (consumed : bench.position + bench.dma.spiSCLK.toNat =
      8 * bench.pulses.length + bench.dma.bitIndex.toNat)
    (low : bench.dma.spiSCLK = false → bench.dma.bitIndex.toNat < 8)
    (sampled : ∀ index < bench.dma.bitIndex.toNat,
      bench.dma.data.getLsbD (7 - index) = bits (8 * bench.pulses.length + index))
    (served : bench.accepted = bench.pulses.length + 1) :
    (bench.step bits request).Phase bits := by
  have pulses := @pulses_of_quiet bits bench request quiet
  have accepted := @accepted_of_busy bits bench request busy
  rcases SpiDma.clock_shifting busy quiet pending with
    ⟨-, clock⟩ | ⟨inside, level, clock⟩ | ⟨inside, level, clock⟩ | ⟨full, clock⟩
  all_goals have next : (bench.step bits request).dma = _ := clock
  · have consumed := (consumed_same request (by rw [next])).trans consumed
    refine .shifting ?_ ?_ ?_ ?_ ?_ ?_ ?_ ?_
    all_goals simp only [next, pulses, accepted] at consumed ⊢
    all_goals assumption
  · -- The bus clock rises, so the card still presents the bit just sampled.
    have position : (bench.step bits request).position = bench.position := by
      simp [step, level]
    have current : bench.position = 8 * bench.pulses.length + bench.dma.bitIndex.toNat := by
      simpa [level] using consumed
    have advanced := toNat_bitIndex_succ inByte
    refine .shifting ?_ ?_ ?_ ?_ ?_ ?_ ?_ ?_
    all_goals simp only [next, pulses, accepted, position, advanced]
    · exact busy
    · exact quiet
    · exact pending
    · omega
    · rw [current, Bool.toNat_true, Nat.add_assoc]
    · simp
    · intro other inSampled
      rw [getLsbD_replaceBit _ (by omega)]
      by_cases last : other = bench.dma.bitIndex.toNat
      · rw [if_pos (by omega), last, ← current]
      · rw [if_neg (by omega)]
        exact sampled other (by omega)
    · exact served
  · have consumed := (consumed_step request (by rw [next])).trans consumed
    refine .shifting ?_ ?_ ?_ ?_ ?_ ?_ ?_ ?_
    all_goals simp only [next, pulses, accepted] at consumed ⊢
    all_goals first | assumption | exact fun _ => inside
  · have complete : bench.dma.bitIndex.toNat = 8 := by omega
    have consumed := (consumed_same request (by rw [next])).trans consumed
    rw [complete] at sampled
    refine .loaded ?_ ?_ ?_ ?_ ?_ ?_ ?_
    all_goals simp only [next, pulses, accepted] at consumed ⊢
    · exact busy
    · exact quiet
    · rw [consumed, complete]
      omega
    · exact eq_streamByte sampled
    · exact served

/-- Every clock moves a transfer along its phases. -/
theorem Phase.step (phase : bench.Phase bits) (request : SpiRequest) :
    (bench.step bits request).Phase bits := by
  cases phase with
  | ready free quiet first consumed served =>
      have pulses := @pulses_of_quiet bits bench request quiet
      exact phase_of_free request free first (by rw [pulses, consumed]) (by rw [pulses, served])
  | shifting busy quiet pending inByte consumed low sampled served =>
      exact phase_of_shifting request busy quiet pending inByte consumed low sampled served
  | loaded busy quiet ready first consumed byte served =>
      have next : (bench.step bits request).dma =
          { bench.dma with
            readdata := bench.dma.data, waitrequest := false, readdatavalid := true } :=
        SpiDma.clock_loaded busy quiet ready
      have pulses := @pulses_of_quiet bits bench request quiet
      have accepted := @accepted_of_busy bits bench request busy
      have consumed := (consumed_same request (by rw [next])).trans consumed
      refine .valid ?_ ?_ ?_ ?_ ?_ ?_
      all_goals simp only [next, pulses, accepted] at consumed ⊢
      all_goals assumption
  | valid free valid first consumed byte served =>
      have pulses := @pulses_of_valid bits bench request valid
      refine phase_of_free request free first ?_ ?_
      · rw [pulses, List.length_append, List.length_singleton, consumed]
      · rw [pulses, List.length_append, List.length_singleton, served]

/-- A byte is presented in its turn. -/
theorem InOrder.step (inOrder : bench.InOrder bits) (phase : bench.Phase bits)
    (request : SpiRequest) : (bench.step bits request).InOrder bits := by
  cases valid : bench.dma.readdatavalid with
  | false =>
      have pulses := @pulses_of_quiet bits bench request valid
      rw [InOrder, pulses]
      exact inOrder
  | true =>
      have byte : bench.dma.readdata = streamByte bits bench.pulses.length := by
        cases phase with
        | valid free valid first consumed byte served => exact byte
        | _ => simp_all
      have pulses : (bench.step bits request).pulses =
          bench.pulses ++ [streamByte bits bench.pulses.length] := by
        simp [SpiBench.step, valid, byte]
      rw [InOrder, pulses, List.length_append, List.length_singleton, List.range_succ,
        List.map_append, ← inOrder]
      rfl

end SpiBench
end DDSFunctionGen.Fpga

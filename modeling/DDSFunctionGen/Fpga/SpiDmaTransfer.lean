import DDSFunctionGen.Fpga.SpiDmaPhases
import DDSFunctionGen.Semantics.Execution
import Mathlib.Algebra.Ring.Nat

/-!
# The bytes the SPI bridge delivers

A read in progress is bounded by a progress measure that every clock decreases,
so every accepted read is answered, with the next byte of the stream.
-/

namespace DDSFunctionGen.Fpga

open DDSFunctionGen.Semantics

namespace SpiBench

variable {bits : Nat → Bool} {bench : SpiBench}

/-- Clocks until the divider lets the next bus edge happen. A wrapping counter
skips the edge at zero. -/
def slack (count : Nat) : Nat :=
  if count % 2 = 0 ∧ count ≠ 0 then 0
  else if count = 2 ^ 32 - 1 then 3
  else if count = 0 then 2
  else 1

theorem slack_le (count : Nat) : slack count ≤ 3 := by
  unfold slack
  split
  · omega
  split
  · omega
  split <;> omega

/-- A waiting divider comes closer to its edge. -/
theorem slack_waiting {dma : SpiDma} (waiting : dma.ticks = false) :
    slack (dma.counter + 1).toNat < slack dma.counter.toNat := by
  have bound := dma.counter.isLt
  have notTick : ¬ (dma.counter.toNat % 2 = 0 ∧ dma.counter.toNat ≠ 0) := by
    simpa [SpiDma.ticks, BitVec.toNat_eq] using waiting
  have next : (dma.counter + 1).toNat = (dma.counter.toNat + 1) % 2 ^ 32 := by
    rw [BitVec.toNat_add]
    rfl
  rw [next]
  revert bound notTick
  generalize dma.counter.toNat = count
  intro bound notTick
  by_cases wraps : count = 2 ^ 32 - 1
  · subst wraps
    decide
  · have small : count + 1 < 2 ^ 32 := by omega
    rw [Nat.mod_eq_of_lt small]
    by_cases zero : count = 0
    · subst zero
      decide
    · have even : (count + 1) % 2 = 0 ∧ count + 1 ≠ 0 := by omega
      rw [slack, slack, if_pos even, if_neg notTick, if_neg wraps, if_neg zero]
      omega

/-- An upper bound on the clocks until the outstanding read has its pulse. -/
def progress (bench : SpiBench) : Nat :=
  if bench.dma.readdatavalid then 1
  else if bench.dma.dataReady then 2
  else 3 + 4 * (16 - 2 * bench.dma.bitIndex.toNat + bench.dma.spiSCLK.toNat) +
    slack bench.dma.counter.toNat

theorem progress_le (bench : SpiBench) : bench.progress ≤ 74 := by
  have level := bench.dma.spiSCLK.toNat_le
  have slack := slack_le bench.dma.counter.toNat
  unfold progress
  split
  · omega
  split <;> omega

theorem progress_pos (bench : SpiBench) : 0 < bench.progress := by
  unfold progress
  split
  · omega
  split <;> omega

/-- An outstanding read gets its pulse in this clock or comes closer to it. -/
theorem Phase.advance (phase : bench.Phase bits)
    (outstanding : bench.accepted ≠ bench.pulses.length) (request : SpiRequest) :
    (bench.step bits request).pulses.length = bench.pulses.length + 1 ∨
      (bench.step bits request).pulses = bench.pulses ∧
        (bench.step bits request).accepted = bench.accepted ∧
        (bench.step bits request).progress < bench.progress := by
  cases phase with
  | ready free quiet first consumed served => exact absurd served outstanding
  | shifting busy quiet pending inByte consumed low sampled served =>
      refine .inr ⟨pulses_of_quiet request quiet, accepted_of_busy request busy, ?_⟩
      have bounded := slack_le (bench.dma.counter + 1).toNat
      have before : bench.progress = 3 + 4 * (16 - 2 * bench.dma.bitIndex.toNat +
          bench.dma.spiSCLK.toNat) + slack bench.dma.counter.toNat := by
        simp [progress, quiet, pending]
      rw [before]
      rcases SpiDma.clock_shifting busy quiet pending with
        ⟨waiting, clock⟩ | ⟨inside, level, clock⟩ | ⟨inside, level, clock⟩ | ⟨full, clock⟩
      all_goals have next : (bench.step bits request).dma = _ := clock
      all_goals simp only [progress, next, quiet, pending, Bool.false_eq_true, if_false, if_true]
      · have closer := slack_waiting waiting
        omega
      · rw [toNat_bitIndex_succ inByte, level, Bool.toNat_true, Bool.toNat_false]
        omega
      · rw [level, Bool.toNat_true, Bool.toNat_false]
        omega
      · omega
  | loaded busy quiet ready first consumed byte served =>
      have next : (bench.step bits request).dma = _ := SpiDma.clock_loaded busy quiet ready
      refine .inr ⟨pulses_of_quiet request quiet, accepted_of_busy request busy, ?_⟩
      simp [progress, next, quiet, ready]
  | valid free valid first consumed byte served =>
      exact .inl (by rw [pulses_of_valid request valid, List.length_append, List.length_singleton])

/-- A pulse lasts one clock: the bridge is free while it lasts. -/
theorem Phase.pulse_ends (phase : bench.Phase bits) (valid : bench.dma.readdatavalid = true)
    (request : SpiRequest) : (bench.step bits request).dma.readdatavalid = false := by
  have free : bench.dma.waitrequest = false := by
    cases phase with
    | valid free valid first consumed byte served => exact free
    | _ => simp_all
  change (bench.dma.clock (request.inputs (bits bench.position))).readdatavalid = false
  cases accepted : bench.dma.accepts (request.inputs (bits bench.position)) with
  | true => rw [SpiDma.clock_accepted accepted]
  | false =>
      cases idle : bench.dma.idles (request.inputs (bits bench.position)) with
      | true => rw [SpiDma.clock_idle idle]
      | false => rw [SpiDma.clock_held free accepted idle]

theorem pulses_mono (requests : List SpiRequest) :
    bench.pulses.length ≤ (run (SpiBench.step bits) bench requests).pulses.length := by
  induction requests generalizing bench with
  | nil => exact Nat.le_refl _
  | cons request rest inductionHypothesis =>
      refine Nat.le_trans ?_ inductionHypothesis
      simp only [SpiBench.step]
      split <;> simp

/-- Given enough clocks an outstanding read has its pulse. -/
theorem Phase.answered (phase : bench.Phase bits)
    (outstanding : bench.accepted ≠ bench.pulses.length) {requests : List SpiRequest}
    (enough : bench.progress ≤ requests.length) :
    bench.pulses.length + 1 ≤ (run (SpiBench.step bits) bench requests).pulses.length := by
  induction requests generalizing bench with
  | nil =>
      have positive := bench.progress_pos
      simp only [List.length_nil] at enough
      omega
  | cons request rest inductionHypothesis =>
      rcases phase.advance outstanding request with pulsed | ⟨pulses, accepted, closer⟩
      · rw [← pulsed]
        exact pulses_mono rest
      · rw [← pulses]
        refine inductionHypothesis (phase.step request) ?_ ?_
        · rw [pulses, accepted]
          exact outstanding
        · simp only [List.length_cons] at enough
          omega

/-- After reset and an idle clock the bridge is ready, its bus clock low. -/
theorem afterReset_ready (registers : SpiDma) (idle : SpiRequest) (miso : Bool) :
    (afterReset registers idle miso).Phase bits := by
  have isIdle : registers.reset.idles
      ({ idle with chipselect := false, readN := true }.inputs miso) = true := rfl
  have released : (afterReset registers idle miso).dma = _ := SpiDma.clock_idle isIdle
  refine .ready ?_ ?_ ?_ ?_ rfl
  all_goals rw [released]
  rfl

/-- For every card and every pattern of requests after reset: the bytes
presented are those of the card's stream in order; the reads accepted are the
pulses given, and at most one read more; a pulse lasts one clock; and every
accepted read has its pulse within 74 further clocks. -/
theorem reads_answered_in_order (bits : Nat → Bool) (registers : SpiDma) (idle : SpiRequest)
    (miso : Bool) (requests : List SpiRequest) :
    let bench := run (SpiBench.step bits) (afterReset registers idle miso) requests
    bench.pulses = (List.range bench.pulses.length).map (streamByte bits) ∧
    bench.pulses.length ≤ bench.accepted ∧ bench.accepted ≤ bench.pulses.length + 1 ∧
    (bench.dma.readdatavalid = true →
      ∀ request, (bench.step bits request).dma.readdatavalid = false) ∧
    ∀ more : List SpiRequest, 74 ≤ more.length →
      bench.accepted ≤ (run (SpiBench.step bits) bench more).pulses.length := by
  intro bench
  have reached : bench.Phase bits ∧ bench.InOrder bits :=
    run_invariant
      (fun bench request (invariant : Phase bits bench ∧ InOrder bits bench) _ =>
        ⟨invariant.1.step request, invariant.2.step invariant.1 request⟩)
      ⟨afterReset_ready registers idle miso, rfl⟩ (along_true _ requests)
  obtain ⟨phase, inOrder⟩ := reached
  have served : bench.accepted = bench.pulses.length ∨
      bench.accepted = bench.pulses.length + 1 := by
    cases phase with
    | ready free quiet first consumed served => exact .inl served
    | shifting busy quiet pending inByte consumed low sampled served => exact .inr served
    | loaded busy quiet ready first consumed byte served => exact .inr served
    | valid free valid first consumed byte served => exact .inr served
  refine ⟨inOrder, by omega, by omega, ?_, ?_⟩
  · intro valid request
    exact phase.pulse_ends valid request
  · intro more enough
    rcases served with none | one
    · rw [none]
      exact pulses_mono more
    · have bound := bench.progress_le
      rw [one]
      exact phase.answered (by omega) (by omega)

end SpiBench
end DDSFunctionGen.Fpga

import DDSFunctionGen.Menu.PendingInputs
import DDSFunctionGen.Sequences.Excursions
import Mathlib.Data.Int.ModEq

/-!
# The count of the encoder

The two lines of the encoder fall and rise one at a time, a quarter of a cycle
between two changes. `ISR_btnEncoder` runs at every falling edge, looks at the two
levels and keeps nothing of what it saw before.
-/

namespace DDSFunctionGen.Firmware

open DDSFunctionGen.Menu DDSFunctionGen.Semantics DDSFunctionGen.Sequences

/-- The lines of the encoder. -/
inductive EncoderLine where
  | encoder1
  | encoder0
deriving DecidableEq, Repr

/-- The levels of the lines, high or not. -/
structure EncoderLines where
  encoder1 : Bool
  encoder0 : Bool
deriving DecidableEq, Repr

namespace EncoderLines

/-- Both lines are high. -/
def detent : EncoderLines := ⟨true, true⟩

def level (lines : EncoderLines) : EncoderLine → Bool
  | .encoder1 => lines.encoder1
  | .encoder0 => lines.encoder0

/-- One line changes. -/
def change (lines : EncoderLines) : EncoderLine → EncoderLines
  | .encoder1 => { lines with encoder1 := !lines.encoder1 }
  | .encoder0 => { lines with encoder0 := !lines.encoder0 }

/-- The data of the port, with the levels of its buttons. -/
def data (lines : EncoderLines) (buttons : UInt8) : UInt8 :=
  (buttons &&& btnEncoderMask) ||| (if lines.encoder1 then Menu.encoder1 else 0) |||
    (if lines.encoder0 then Menu.encoder0 else 0)

/-- The direction of a change: forward is where `ENCODER_1` falls first. -/
def direction (lines : EncoderLines) (line : EncoderLine) : Direction :=
  if (line = .encoder1) = (lines.encoder1 = lines.encoder0) then .forward else .backward

/-- The directions of a walk. -/
def directions (lines : EncoderLines) : List EncoderLine → List Direction
  | [] => []
  | line :: rest => lines.direction line :: (lines.change line).directions rest

end EncoderLines

/-- A change of one line, and the levels of the buttons as it happens. -/
structure EncoderChange where
  line : EncoderLine
  buttons : UInt8
deriving DecidableEq, Repr

/-- The lines and the variables behind their port. -/
structure EncoderState where
  lines : EncoderLines
  pending : Pending
deriving DecidableEq, Repr

/-- A line changes; the interrupt runs if it falls. -/
def EncoderState.step (state : EncoderState) (change : EncoderChange) : EncoderState :=
  let lines := state.lines.change change.line
  { lines
    pending :=
      if state.lines.level change.line then
        state.pending.isrBtnEncoder (lines.data change.buttons)
      else state.pending }

/-- The directions of a walk from the detent. -/
def walkDirections (walk : List EncoderChange) : List Direction :=
  EncoderLines.detent.directions (walk.map EncoderChange.line)

/-- The cycles that a walk travels, forward less backward. -/
def netCycles (walk : List EncoderChange) : ℤ := displacement (walkDirections walk) / 4

/-- The excursions of a walk from the detent. -/
def detentExcursions (walk : List EncoderChange) : List Excursion :=
  excursions 4 0 (walkDirections walk)

/-! ## One change -/

/-- The interrupt counts by the levels alone, whatever the buttons. -/
theorem rotation_data (lines : EncoderLines) (buttons : UInt8) :
    rotation (~~~lines.data buttons) =
      if lines.encoder1 = lines.encoder0 then 0 else if lines.encoder0 then 1 else -1 := by
  have every : ∀ bits : BitVec 8, rotation (~~~lines.data ⟨bits⟩) =
      if lines.encoder1 = lines.encoder0 then 0 else if lines.encoder0 then 1 else -1 := by
    rcases lines with ⟨level1, level0⟩
    cases level1 <;> cases level0 <;> decide +kernel
  exact every buttons.toBitVec

/-- Only a change that leaves the detent is counted, by its direction. -/
theorem encoder_step (state : EncoderState) (change : EncoderChange) :
    (state.step change).pending.encoder = state.pending.encoder +
      Int8.ofInt (if state.lines = .detent then (state.lines.direction change.line).sign else 0) := by
  have added : (state.step change).pending.encoder = state.pending.encoder +
      if state.lines.level change.line then
        rotation (~~~(state.lines.change change.line).data change.buttons) else 0 := by
    unfold EncoderState.step
    split_ifs
    · rfl
    · simp
  rw [added, rotation_data]
  rcases state.lines with ⟨level1, level0⟩
  cases change.line with
  | encoder1 => cases level1 <;> cases level0 <;> rfl
  | encoder0 => cases level1 <;> cases level0 <;> rfl

/-- The lines at an offset from the detent. -/
def linesAt (offset : ℤ) : EncoderLines where
  encoder1 := decide (offset % 4 = 0 ∨ offset % 4 = 3)
  encoder0 := decide (offset % 4 = 0 ∨ offset % 4 = 1)

theorem linesAt_eq_detent_iff {offset : ℤ} (within : offset.natAbs < 4) :
    linesAt offset = .detent ↔ offset = 0 := by
  simp [linesAt, EncoderLines.detent]
  omega

/-- A cycle more or less leaves the lines as they are. -/
theorem linesAt_congr {first second : ℤ} (same : first % 4 = second % 4) :
    linesAt first = linesAt second := by
  rw [linesAt, linesAt, same]

/-- A change moves the lines a quarter of a cycle in its direction. -/
theorem linesAt_step (offset : ℤ) (line : EncoderLine) :
    (linesAt offset).change line =
      linesAt (nextOffset 4 offset ((linesAt offset).direction line)) := by
  have quarter : ∀ place : Fin 4, (linesAt place).change line =
      linesAt (place + ((linesAt place).direction line).sign) := by
    cases line <;> decide
  have reduced : linesAt offset = linesAt (offset % 4) := linesAt_congr (by omega)
  have moved : linesAt (nextOffset 4 offset ((linesAt offset).direction line)) =
      linesAt (offset % 4 + ((linesAt offset).direction line).sign) := by
    apply linesAt_congr
    rw [nextOffset]
    split_ifs with turned
    · omega
    · omega
  obtain ⟨place, same⟩ : ∃ place : Fin 4, offset % 4 = (place : ℕ) :=
    ⟨⟨(offset % 4).toNat, by omega⟩, by simp; omega⟩
  rw [moved, reduced, same]
  exact quarter place

/-! ## A walk -/

/-- A walk follows the offset from the detent, and the interrupt counts the departures. -/
theorem walk_counts (state : EncoderState) (walk : List EncoderChange) {offset : ℤ}
    (within : offset.natAbs < 4) (lines : state.lines = linesAt offset) :
    (run EncoderState.step state walk).lines =
        linesAt (run (nextOffset 4) offset (state.lines.directions (walk.map EncoderChange.line))) ∧
      (run EncoderState.step state walk).pending.encoder = state.pending.encoder +
        Int8.ofInt (departures 4 offset (state.lines.directions (walk.map EncoderChange.line))) := by
  induction walk generalizing state offset with
  | nil =>
      refine ⟨lines, ?_⟩
      simp [EncoderLines.directions, departures]
  | cons change rest inductionHypothesis =>
      have next : (state.step change).lines =
          linesAt (nextOffset 4 offset (state.lines.direction change.line)) := by
        rw [EncoderState.step, lines]
        exact linesAt_step offset change.line
      obtain ⟨later, counted⟩ := inductionHypothesis (state.step change)
        (nextOffset_within within _) next
      refine ⟨later, ?_⟩
      have atMark : (state.lines = .detent) = (offset = 0) := by
        rw [lines]
        exact propext (linesAt_eq_detent_iff within)
      have first := encoder_step state change
      simp only [atMark] at first
      rw [run_cons, counted, first, Int8.add_assoc, ← Int8.ofInt_add]
      rfl

/-- `int8_t` counts modulo 256. -/
theorem ofInt_eq_ofInt_iff (first second : ℤ) :
    Int8.ofInt first = Int8.ofInt second ↔ first ≡ second [ZMOD 256] := by
  have size : Int8.size = 256 := rfl
  rw [← Int8.toInt_inj, Int8.toInt_ofInt, Int8.toInt_ofInt, size, Int.ModEq, Int.bmod_def,
    Int.bmod_def]
  split_ifs <;> omega

/-- From the detent to the detent, the encoder counts the cycles of the walk and its
returns: a return that began with the fall of `ENCODER_1` is one too many, a return that
began with the fall of `ENCODER_0` one too few. -/
theorem encoder_counts_cycles_and_returns {pending : Pending} {walk : List EncoderChange}
    (returned : (run EncoderState.step ⟨.detent, pending⟩ walk).lines = .detent) :
    displacement (walkDirections walk) = 4 * netCycles walk ∧
      (run EncoderState.step ⟨.detent, pending⟩ walk).pending.encoder = pending.encoder +
        Int8.ofInt (netCycles walk + (detentExcursions walk).count ⟨.forward, false⟩ -
          (detentExcursions walk).count ⟨.backward, false⟩) ∧
      ((run EncoderState.step ⟨.detent, pending⟩ walk).pending.encoder =
          pending.encoder + Int8.ofInt (netCycles walk) ↔
        (detentExcursions walk).count ⟨.forward, false⟩ ≡
          (detentExcursions walk).count ⟨.backward, false⟩ [MOD 256]) := by
  obtain ⟨lines, counted⟩ := @walk_counts ⟨.detent, pending⟩ walk 0 (by decide) rfl
  have closed : run (nextOffset 4) 0 (walkDirections walk) = 0 := by
    have within := @run_within 4 0 (by decide) (walkDirections walk)
    exact (linesAt_eq_detent_iff within).mp (lines.symm.trans returned)
  obtain ⟨displaced, departed⟩ := closed_walk (by decide) closed
  have cycles : netCycles walk = totalTurns (detentExcursions walk) := by
    rw [netCycles, displaced]
    exact Int.mul_ediv_cancel_left _ (by decide)
  have total : departures 4 0 (walkDirections walk) = netCycles walk +
      (detentExcursions walk).count ⟨.forward, false⟩ -
        (detentExcursions walk).count ⟨.backward, false⟩ := by
    rw [departed, ← detentExcursions, totalReturns_eq_count, cycles]
    ring
  have encoder : (run EncoderState.step ⟨.detent, pending⟩ walk).pending.encoder =
      pending.encoder + Int8.ofInt (netCycles walk +
        (detentExcursions walk).count ⟨.forward, false⟩ -
          (detentExcursions walk).count ⟨.backward, false⟩) := by
    rw [counted, ← total]
    rfl
  refine ⟨?_, encoder, ?_⟩
  · rw [displaced, cycles]
    rfl
  · rw [encoder, Int8.add_right_inj, ofInt_eq_ofInt_iff]
    unfold Int.ModEq Nat.ModEq
    omega

/-- A cycle forward, with a bounce of `ENCODER_0` halfway. -/
def bouncedCycle : List EncoderChange :=
  [⟨.encoder1, 0⟩, ⟨.encoder0, 0⟩, ⟨.encoder0, 0⟩, ⟨.encoder0, 0⟩, ⟨.encoder1, 0⟩, ⟨.encoder0, 0⟩]

theorem encoder_counts_bouncedCycle :
    displacement (walkDirections bouncedCycle) = 4 * netCycles bouncedCycle ∧
      (run EncoderState.step ⟨.detent, {}⟩ bouncedCycle).pending.encoder = 0 +
        Int8.ofInt (netCycles bouncedCycle + (detentExcursions bouncedCycle).count ⟨.forward, false⟩ -
          (detentExcursions bouncedCycle).count ⟨.backward, false⟩) ∧
      ((run EncoderState.step ⟨.detent, {}⟩ bouncedCycle).pending.encoder =
          0 + Int8.ofInt (netCycles bouncedCycle) ↔
        (detentExcursions bouncedCycle).count ⟨.forward, false⟩ ≡
          (detentExcursions bouncedCycle).count ⟨.backward, false⟩ [MOD 256]) :=
  encoder_counts_cycles_and_returns (by decide)

/-- `ENCODER_1` falls and rises again: no cycle, but a count. -/
theorem encoder_counts_return :
    let after := run EncoderState.step ⟨.detent, {}⟩ [⟨.encoder1, 0⟩, ⟨.encoder1, 0⟩]
    after.lines = .detent ∧ netCycles [⟨.encoder1, 0⟩, ⟨.encoder1, 0⟩] = 0 ∧
      after.pending.encoder = 1 := by
  decide

end DDSFunctionGen.Firmware

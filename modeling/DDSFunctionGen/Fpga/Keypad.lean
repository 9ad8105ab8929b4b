import DDSFunctionGen.Semantics.Execution
import Mathlib.Tactic.ByContra
import Mathlib.Tactic.SplitIfs

/-!
# The keypad scanner

`Keypad` scans a matrix of four columns, one column a clock in four of every
eight clocks, and reports the key code it finds through a state machine that
waits for the contacts to settle. The two share nothing but `KeyCode`.
-/

namespace DDSFunctionGen.Fpga

open DDSFunctionGen.Semantics

/-- The one-hot states of the state machine. -/
inductive KeypadState where
  | idle
  | keyPressed
  | waitRelease
  | keyReleased
deriving DecidableEq, Repr

/-- The registers of `Keypad`, with their values at power-up. -/
structure Keypad where
  keyPressed : BitVec 8 := 0xFF
  keyCode : BitVec 8 := 0x00
  delayCounter : BitVec 8 := 0x00
  columnsCounter : BitVec 3 := 0
  numberInactiveRows : BitVec 3 := 0
  currentState : KeypadState := .idle
deriving DecidableEq, Repr

namespace Keypad

/-- `_KEY_PRESS_DALAY` -/
def keyPressDelay : BitVec 8 := 10

/-- `_KEY_RELEASE_DALAY` -/
def keyReleaseDelay : BitVec 8 := 20

/-- The code of the key in a column whose row is the only active one. -/
def scannedKey (column : BitVec 3) (rows : BitVec 4) : Option (BitVec 8) :=
  if column = 0 then
    if rows = 0b1110 then some 0x0D
    else if rows = 0b1101 then some 0x0C
    else if rows = 0b1011 then some 0x0B
    else if rows = 0b0111 then some 0x0A
    else none
  else if column = 1 then
    if rows = 0b1110 then some 0x10
    else if rows = 0b1101 then some 0x09
    else if rows = 0b1011 then some 0x06
    else if rows = 0b0111 then some 0x03
    else none
  else if column = 2 then
    if rows = 0b1110 then some 0x00
    else if rows = 0b1101 then some 0x08
    else if rows = 0b1011 then some 0x05
    else if rows = 0b0111 then some 0x02
    else none
  else if column = 3 then
    if rows = 0b1110 then some 0x11
    else if rows = 0b1101 then some 0x07
    else if rows = 0b1011 then some 0x04
    else if rows = 0b0111 then some 0x01
    else none
  else none

/-- `NextState` -/
def nextState (currentState : KeypadState) (keyCode delayCounter : BitVec 8) : KeypadState :=
  match currentState with
  | .idle => if keyCode ≠ 0xFF then .keyPressed else .idle
  | .keyPressed => if keyPressDelay < delayCounter then .waitRelease else .keyPressed
  | .waitRelease => if keyCode = 0xFF then .keyReleased else .waitRelease
  | .keyReleased => if keyReleaseDelay < delayCounter then .idle else .keyReleased

/-- `KeyCode` after a clock: a found key, or none after a scan without one. -/
def scannedCode (keypad : Keypad) (rows : BitVec 4) : BitVec 8 :=
  match scannedKey keypad.columnsCounter rows with
  | some code => code
  | none =>
      if keypad.columnsCounter = 4 ∧ keypad.numberInactiveRows = 4 then 0xFF else keypad.keyCode

/-- `NumberInactiveRows` after a clock. -/
def countedRows (keypad : Keypad) (rows : BitVec 4) : BitVec 3 :=
  if keypad.columnsCounter = 4 then 0
  else if keypad.columnsCounter < 4 ∧ scannedKey keypad.columnsCounter rows = none then
    keypad.numberInactiveRows + 1
  else keypad.numberInactiveRows

/-- One rising clock edge. -/
def clock (keypad : Keypad) (rows : BitVec 4) : Keypad where
  keyPressed :=
    if keypad.currentState = .waitRelease ∧ keypad.keyPressed = 0xFF then keypad.keyCode
    else if keypad.currentState = .idle then 0xFF
    else keypad.keyPressed
  keyCode := keypad.scannedCode rows
  delayCounter :=
    if keypad.currentState = .keyPressed ∨ keypad.currentState = .keyReleased then
      keypad.delayCounter + 1
    else 0
  columnsCounter := keypad.columnsCounter + 1
  numberInactiveRows := keypad.countedRows rows
  currentState := nextState keypad.currentState keypad.keyCode keypad.delayCounter

/-- The module after a number of clocks from power-up. -/
def after (rows : Nat → BitVec 4) (clocks : Nat) : Keypad := stateAt clock {} rows clocks

/-- Exactly one row is active; the rows are active low. -/
def OneActive (rows : BitVec 4) : Prop := ∃ row < 4, rows = ~~~(BitVec.twoPow 4 row)

instance (rows : BitVec 4) : Decidable (OneActive rows) :=
  inferInstanceAs (Decidable (∃ row < 4, _))

/-- A key is found in a sample with exactly one active row. -/
theorem oneActive_of_scannedKey {column : BitVec 3} {rows : BitVec 4} {code : BitVec 8}
    (found : scannedKey column rows = some code) : OneActive rows := by
  have single : ∀ (column : BitVec 3) (rows : BitVec 4),
      scannedKey column rows ≠ none → OneActive rows := by decide
  exact single column rows (by rw [found]; exact Option.some_ne_none code)

/-- No key has the code `0xFF`. -/
theorem scannedKey_ne_released (column : BitVec 3) (rows : BitVec 4) :
    scannedKey column rows ≠ some 0xFF := by
  revert column rows
  decide

variable (rows : Nat → BitVec 4) (clocks : Nat)

theorem keyPressed_after_succ :
    (after rows (clocks + 1)).keyPressed =
      if (after rows clocks).currentState = .waitRelease ∧ (after rows clocks).keyPressed = 0xFF then
        (after rows clocks).keyCode
      else if (after rows clocks).currentState = .idle then 0xFF
      else (after rows clocks).keyPressed := rfl

theorem keyCode_after_succ :
    (after rows (clocks + 1)).keyCode = (after rows clocks).scannedCode (rows clocks) := rfl

theorem delayCounter_after_succ :
    (after rows (clocks + 1)).delayCounter =
      if (after rows clocks).currentState = .keyPressed ∨
          (after rows clocks).currentState = .keyReleased then
        (after rows clocks).delayCounter + 1
      else 0 := rfl

theorem numberInactiveRows_after_succ :
    (after rows (clocks + 1)).numberInactiveRows = (after rows clocks).countedRows (rows clocks) :=
  rfl

theorem currentState_after_succ :
    (after rows (clocks + 1)).currentState =
      nextState (after rows clocks).currentState (after rows clocks).keyCode
        (after rows clocks).delayCounter := rfl

theorem columnsCounter_after :
    (after rows clocks).columnsCounter = BitVec.ofNat 3 clocks := by
  induction clocks with
  | zero => rfl
  | succ clocks inductionHypothesis =>
      show (after rows clocks).columnsCounter + 1 = _
      rw [inductionHypothesis]
      exact BitVec.ofNat_add_ofNat ..

variable {clocks}

/-- In the first half of its cycle the counter is the column being sampled. -/
theorem columnsCounter_eq_iff {column : Nat} (small : column < 8) :
    (after rows clocks).columnsCounter = BitVec.ofNat 3 column ↔ clocks % 8 = column := by
  rw [columnsCounter_after, ← BitVec.toNat_inj, BitVec.toNat_ofNat, BitVec.toNat_ofNat,
    Nat.mod_eq_of_lt (show column < 2 ^ 3 from small)]

theorem columnsCounter_lt_iff : (after rows clocks).columnsCounter < 4 ↔ clocks % 8 < 4 := by
  rw [columnsCounter_after, BitVec.lt_def, BitVec.toNat_ofNat]
  exact Iff.rfl

/-! ## The scan -/

/-- The sample of a clock finds no key. -/
def misses (rows : Nat → BitVec 4) (clocks : Nat) : Bool :=
  scannedKey (after rows clocks).columnsCounter (rows clocks) = none

/-- What such a sample adds to the inactive rows. -/
def counted (missed : Bool) : BitVec 3 := if missed then 1 else 0

theorem all_of_counted_four : ∀ first second third fourth : Bool,
    0 + counted first + counted second + counted third + counted fourth = 4 →
      first = true ∧ second = true ∧ third = true ∧ fourth = true := by
  decide

/-- In the four clocks that sample a column, the inactive rows are counted. -/
theorem counts_sampling (sampling : clocks % 8 < 4) :
    (after rows (clocks + 1)).numberInactiveRows =
      (after rows clocks).numberInactiveRows + counted (misses rows clocks) := by
  have below := (columnsCounter_lt_iff rows).mpr sampling
  have notFour : (after rows clocks).columnsCounter ≠ 4 := by
    intro four
    rw [four] at below
    exact absurd below (by decide)
  rw [numberInactiveRows_after_succ, countedRows, if_neg notFour]
  by_cases nothing : scannedKey (after rows clocks).columnsCounter (rows clocks) = none
  · rw [if_pos ⟨below, nothing⟩, misses, decide_eq_true nothing]
    rfl
  · rw [if_neg fun both => nothing both.2, misses, decide_eq_false nothing]
    exact (BitVec.add_zero _).symm

/-- Outside them, the count is cleared or stays. -/
theorem counts_resting (resting : 4 ≤ clocks % 8) :
    (after rows (clocks + 1)).numberInactiveRows =
      if clocks % 8 = 4 then 0 else (after rows clocks).numberInactiveRows := by
  have above : ¬ (after rows clocks).columnsCounter < 4 :=
    fun below => absurd ((columnsCounter_lt_iff rows).mp below) (Nat.not_lt.mpr resting)
  have four : (after rows clocks).columnsCounter = 4 ↔ clocks % 8 = 4 :=
    columnsCounter_eq_iff rows (by decide)
  rw [numberInactiveRows_after_succ, countedRows]
  by_cases phase : clocks % 8 = 4
  · rw [if_pos (four.mpr phase), if_pos phase]
  · rw [if_neg (mt four.mp phase), if_neg phase, if_neg fun both => above both.1]

/-- The count starts again with every scan. -/
theorem counts_start (scan : Nat) : (after rows (8 * scan)).numberInactiveRows = 0 := by
  cases scan with
  | zero => rfl
  | succ scan =>
      show (after rows (8 * scan + 7 + 1)).numberInactiveRows = 0
      rw [counts_resting rows (by omega), if_neg (by omega), counts_resting rows (by omega),
        if_neg (by omega), counts_resting rows (by omega), if_neg (by omega),
        counts_resting rows (by omega), if_pos (by omega)]

/-- A scan of the four columns that finds no key, before the clock that ends it. -/
structure FindsNoKey (rows : Nat → BitVec 4) (clocks : Nat) : Prop where
  scan : 4 ≤ clocks ∧ (after rows clocks).columnsCounter = 4
  samples : ∀ column < 4,
    (after rows (clocks - 4 + column)).columnsCounter = BitVec.ofNat 3 column ∧
      scannedKey (BitVec.ofNat 3 column) (rows (clocks - 4 + column)) = none

/-- Four inactive rows are counted where all four columns were without a key. -/
theorem findsNoKey_of_four (ends : (after rows clocks).columnsCounter = 4)
    (four : (after rows clocks).numberInactiveRows = 4) : FindsNoKey rows clocks := by
  have phase : clocks % 8 = 4 := (columnsCounter_eq_iff rows (by decide)).mp ends
  obtain ⟨scan, rfl⟩ : ∃ scan, clocks = 8 * scan + 4 := ⟨clocks / 8, by omega⟩
  have total : 0 + counted (misses rows (8 * scan)) + counted (misses rows (8 * scan + 1)) +
      counted (misses rows (8 * scan + 2)) + counted (misses rows (8 * scan + 3)) = 4 := by
    rw [← four]
    show _ = (after rows (8 * scan + 3 + 1)).numberInactiveRows
    rw [counts_sampling rows (by omega), counts_sampling rows (by omega),
      counts_sampling rows (by omega), counts_sampling rows (by omega), counts_start]
  obtain ⟨first, second, third, fourth⟩ := all_of_counted_four _ _ _ _ total
  refine ⟨⟨by omega, ends⟩, fun column small => ?_⟩
  rw [Nat.add_sub_cancel]
  have counter : (after rows (8 * scan + column)).columnsCounter = BitVec.ofNat 3 column :=
    (columnsCounter_eq_iff rows (by omega)).mpr (by omega)
  have missed : misses rows (8 * scan + column) = true := by
    match column, small with
    | 0, _ => exact first
    | 1, _ => exact second
    | 2, _ => exact third
    | 3, _ => exact fourth
  rw [misses, counter] at missed
  exact ⟨counter, of_decide_eq_true missed⟩

/-- `KeyCode` becomes `0xFF` by a scan that finds no key. -/
theorem findsNoKey_of_cleared (code : (after rows clocks).keyCode ≠ 0xFF)
    (cleared : (after rows (clocks + 1)).keyCode = 0xFF) : FindsNoKey rows clocks := by
  rw [keyCode_after_succ, scannedCode] at cleared
  cases found : scannedKey (after rows clocks).columnsCounter (rows clocks) with
  | some key =>
      rw [found] at cleared
      exact absurd (found.trans (congrArg some cleared)) (scannedKey_ne_released _ _)
  | none =>
      rw [found] at cleared
      simp only at cleared
      split_ifs at cleared with ends
      · exact findsNoKey_of_four rows ends.1 ends.2
      · exact absurd cleared code

end Keypad
end DDSFunctionGen.Fpga

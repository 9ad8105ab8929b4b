import DDSFunctionGen.Firmware.WaveTables

/-!
# Rewriting a table without interrupts

Left to itself, `UpdateRam` stores the 1024 samples of the wave type to a RAM and
changes nothing else, and the cached wave type follows.
-/

namespace DDSFunctionGen.Firmware.Program

open DDSFunctionGen.Menu DDSFunctionGen.Player DDSFunctionGen.SdCard DDSFunctionGen.Semantics

/-- The samples of a wave type from some word on. -/
def storeWords (scaledSine : Nat → BitVec 16) (source : Source) (waveType : WaveType)
    (first : Nat) (rams : LookupRams) : LookupRams :=
  fun other i =>
    if other = source ∧ first ≤ i ∧ i < lookupRamSize then computeSample scaledSine waveType i
    else rams other i

/-- One more word before the others. -/
theorem storeWords_storeWord (scaledSine : Nat → BitVec 16) (source : Source) (waveType : WaveType)
    {first : Nat} (inRange : first < lookupRamSize) (rams : LookupRams) :
    storeWords scaledSine source waveType (first + 1)
        (storeWord rams source first (computeSample scaledSine waveType first)) =
      storeWords scaledSine source waveType first rams := by
  funext other i
  simp only [storeWords, storeWord]
  by_cases same : i = first
  · subst same
    by_cases own : other = source
    · simp [own, inRange]
    · simp [own]
  · have above : first + 1 ≤ i ↔ first ≤ i :=
      ⟨Nat.le_of_succ_le, fun atLeast => Nat.lt_of_le_of_ne atLeast (Ne.symm same)⟩
    simp only [above, same, and_false, if_false]

variable {F : Type} [CFloat F] {program : Program F} {source : Source} {waveType : WaveType}
  {volume : Volume} {scaledSine : Nat → BitVec 16}

/-- The stores of `UpdateRam` from some word to the last. -/
theorem stores_run (count : Nat) {index : Nat} (point : program.point = .store source waveType index)
    (total : index + (count + 1) = lookupRamSize) :
    run (step volume scaledSine) program (List.replicate (count + 1) .advance) =
      { program with
        player :=
          { program.player with
            rams := storeWords scaledSine source waveType index program.player.rams }
        point := .cache source } := by
  have inRange : index < lookupRamSize := by omega
  induction count generalizing program index with
  | zero =>
      have last : ¬ index + 1 < lookupRamSize := by omega
      have past : ∀ rams, storeWords scaledSine source waveType (index + 1) rams = rams := by
        intro rams
        funext other i
        exact if_neg fun within => last (Nat.lt_of_le_of_lt within.2.1 within.2.2)
      show program.advance scaledSine = _
      rw [advance, point, ← storeWords_storeWord scaledSine source waveType inRange, past]
      simp only [if_neg last]
  | succ count inductionHypothesis =>
      have more : index + 1 < lookupRamSize := by omega
      rw [List.replicate_succ, run_cons, step, advance, point]
      simp only [if_pos more]
      rw [inductionHypothesis rfl (by omega) more]
      simp only [storeWords_storeWord scaledSine source waveType inRange]

/-- The program after a RAM has been rewritten for a changed wave type. -/
def rewritten (scaledSine : Nat → BitVec 16) (source : Source) (program : Program F) : Program F :=
  { program with
    player :=
      { program.player with
        rams := storeWords scaledSine source (wave program.dds source) 0 program.player.rams }
    cached := fun other =>
      if other = source then wave program.dds source else program.cached other
    point := afterRam source }

/-- The test, the 1024 stores and the store of the cached wave type. -/
theorem rewritten_run (point : program.point = .test source)
    (changed : wave program.dds source ≠ program.cached source) :
    run (step volume scaledSine) program
        (.advance :: (List.replicate (1023 + 1) .advance ++ [.advance])) =
      program.rewritten scaledSine source := by
  have tested : program.advance scaledSine =
      { program with point := .store source (wave program.dds source) 0 } := by
    rw [advance, point]
    simp only [if_pos changed]
  rw [run_cons, step, tested, run_append, stores_run 1023 rfl rfl]
  rfl

end DDSFunctionGen.Firmware.Program

import DDSFunctionGen.Firmware.WaveTableRewriting
import DDSFunctionGen.Firmware.WaveTablesIntact

/-!
# Wave data in a wave table

A RAM whose wave type has a table holds that table once `UpdateRamLookups` is done,
where no interrupt has refilled words of it that were rewritten already.
-/

namespace DDSFunctionGen.Firmware.Program

open DDSFunctionGen.Menu DDSFunctionGen.Player DDSFunctionGen.SdCard DDSFunctionGen.Semantics

variable {F : Type} [CFloat F]

/-- In every run from power-up whose interrupts spare what is being rewritten, the
RAMs of tabled wave types hold their tables whenever `UpdateRamLookups` is done. -/
theorem tables_held (volume : Volume) (scaledSine : Nat → BitVec 16) (rams : LookupRams)
    (events : List (ProgramEvent F))
    (spares : Along (step volume scaledSine) SparesRewritten (powerUp rams) events) :
    HoldsTables scaledSine (run (step volume scaledSine) (powerUp rams) events) := by
  have initial : Intact scaledSine (powerUp rams : Program F) :=
    { tables := fun _ _ tabled => absurd rfl tabled.2
      rewritten := nofun
      target := nofun }
  have preserved : ∀ (program : Program F) event, Intact scaledSine program →
      program.SparesRewritten event → Intact scaledSine (program.step volume scaledSine event) :=
    fun _ event intact spares => intact.step volume event spares
  exact (run_invariant preserved initial spares).holdsTables

/-! ## One channel leaves its file -/

/-- Both channels play wave files at 100 Hz. -/
def waveFiles : Channel → DDSVariables ℚ := fun _ =>
  { ddsDefaults with
    waveType := .arb
    frequency := { (ddsDefaults : DDSVariables ℚ).frequency with floatValue := 100 } }

/-- Channel 0 is a square wave. -/
def squareAndFile : Channel → DDSVariables ℚ := fun channel =>
  if channel = 0 then { waveFiles 0 with waveType := .square } else waveFiles 1

/-- The steps that rewrite a RAM. -/
def rewriteSteps : List (ProgramEvent ℚ) :=
  .advance :: (List.replicate (1023 + 1) .advance ++ [.advance])

theorem mem_rewriteSteps {event : ProgramEvent ℚ} (member : event ∈ rewriteSteps) :
    event = .advance := by
  obtain first | rest := List.mem_cons.mp member
  · exact first
  obtain stores | last := List.mem_append.mp rest
  · exact List.eq_of_mem_replicate stores
  · exact List.mem_singleton.mp last

/-- A run that goes on rewriting the next RAM. -/
theorem run_rewriteSteps {events : List (ProgramEvent ℚ)} {program : Program ℚ}
    (before : run (step toneVolume fun _ => 0) (powerUp fun _ _ => 0) events = program)
    (source : Source) (point : program.point = .test source)
    (changed : wave program.dds source ≠ program.cached source) :
    run (step toneVolume fun _ => 0) (powerUp fun _ _ => 0) (events ++ rewriteSteps) =
      program.rewritten (fun _ => 0) source := by
  rw [run_append, before]
  exact rewritten_run point changed

attribute [local irreducible] rewriteSteps

/-- All RAMs are written, a file is selected, and RAM 0 is about to be rewritten. -/
def squareSelected : List (ProgramEvent ℚ) :=
  [.edit waveFiles, .advance, .advance] ++ rewriteSteps ++ rewriteSteps ++ rewriteSteps ++
    rewriteSteps ++ rewriteSteps ++ rewriteSteps ++
    [.select toneA, .edit squareAndFile, .advance, .advance, .advance]

/-- Both lines change, and the interrupt is taken. -/
def bothChange : List (ProgramEvent ℚ) :=
  [.toggle .dds0, .toggle .dds1, .interrupt (fun _ => {}) (fun _ _ => 0)]

/-- What is left of the rewriting of RAM 0, and the tests of the other RAMs. -/
def rewriteRest (stores : Nat) : List (ProgramEvent ℚ) :=
  List.replicate (stores + 1) .advance ++ List.replicate 6 .advance

/-- The state that `squareSelected` leads to. -/
def selected : Program ℚ :=
  run (step toneVolume fun _ => 0)
    ([Source.dds0, .dds0AM, .dds0FM, .dds1, .dds1AM, .dds1FM].foldl
      (fun program source => program.rewritten (fun _ => 0) source)
      (run (step toneVolume fun _ => 0) (powerUp fun _ _ => 0) [.edit waveFiles, .advance, .advance]))
    [.select toneA, .edit squareAndFile, .advance, .advance, .advance]

theorem squareSelected_run :
    run (step toneVolume fun _ => 0) (powerUp fun _ _ => 0) squareSelected = selected := by
  have started_run : run (step toneVolume fun _ => 0) (powerUp fun _ _ => 0)
      [.edit waveFiles, .advance, .advance] =
      run (step toneVolume fun _ => 0) (powerUp fun _ _ => 0)
        [.edit waveFiles, .advance, .advance] := rfl
  have dds0 := run_rewriteSteps started_run .dds0 rfl (by decide)
  have dds0AM := run_rewriteSteps dds0 .dds0AM rfl (by decide)
  have dds0FM := run_rewriteSteps dds0AM .dds0FM rfl (by decide)
  have dds1 := run_rewriteSteps dds0FM .dds1 rfl (by decide)
  have dds1AM := run_rewriteSteps dds1 .dds1AM rfl (by decide)
  have dds1FM := run_rewriteSteps dds1AM .dds1FM rfl (by decide)
  rw [squareSelected, run_append, dds1FM]
  rfl

/-- The interrupt comes before the first word: the table is complete. -/
theorem tables_held_before_first_word :
    HoldsTables (fun _ => 0) (run (step toneVolume fun _ => 0) (powerUp fun _ _ => 0 : Program ℚ)
      (squareSelected ++ bothChange ++ rewriteRest 1023)) := by
  have calm : ∀ event : ProgramEvent ℚ, (∀ locals stack, event ≠ .interrupt locals stack) →
      ∀ program : Program ℚ, program.SparesRewritten event := by
    intro event other program
    cases event with
    | interrupt locals stack => exact absurd rfl (other locals stack)
    | edit | select | stop | advance | toggle => trivial
  apply tables_held
  rw [along_append, along_append]
  refine ⟨⟨along_of_mem fun event member => calm event ?_, ?_⟩,
    along_of_mem fun event member => calm event ?_⟩
  · rintro locals stack rfl
    simp only [squareSelected, List.mem_append, List.mem_cons, reduceCtorEq, List.not_mem_nil,
      false_or, or_false, or_self] at member
    exact nomatch mem_rewriteSteps member
  · rw [squareSelected_run]
    refine ⟨trivial, trivial, ?_, trivial⟩
    rintro source index ⟨⟩ _ _ _ _ _
    exact Nat.zero_le _
  · rintro locals stack rfl
    obtain stores | tests := List.mem_append.mp member
    · exact nomatch List.eq_of_mem_replicate stores
    · exact nomatch List.eq_of_mem_replicate tests

/-- The interrupt comes after the first word, which it replaces. -/
theorem first_word_replaced :
    ¬ ∀ (volume : Volume) (scaledSine : Nat → BitVec 16) (rams : LookupRams)
        (events : List (ProgramEvent ℚ)),
        HoldsTables scaledSine (run (step volume scaledSine) (powerUp rams) events) := by
  intro claimed
  have held := claimed toneVolume (fun _ => 0) (fun _ _ => 0)
    (squareSelected ++ ([.advance] ++ bothChange) ++ rewriteRest 1022)
  rw [run_append, run_append, squareSelected_run] at held
  have point : (run (step toneVolume fun _ => 0) selected ([.advance] ++ bothChange)).point =
      .store .dds0 .square 1 := by
    decide +kernel
  rw [rewriteRest, run_append, stores_run 1022 point rfl] at held
  have word := held (.inl (by decide +kernel)) .dds0 (by decide +kernel) 0 (by decide)
  exact absurd word (by decide +kernel)

end DDSFunctionGen.Firmware.Program

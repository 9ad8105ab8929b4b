import DDSFunctionGen.Firmware.WaveTables

/-!
# The tables while they are rewritten

The interrupt refills RAMs whose cached wave type is ARB, also while the main loop
is rewriting such a RAM for another wave type. Words it stores below the next word
to be rewritten stay; the others are overwritten by the rest of the table.
-/

namespace DDSFunctionGen.Firmware.Program

open DDSFunctionGen.Menu DDSFunctionGen.Player DDSFunctionGen.SdCard DDSFunctionGen.Semantics

variable {F : Type}

/-- The RAM being rewritten, with the number of its words that have been. -/
def rewriting (program : Program F) : Option (Source × Nat) :=
  match program.point with
  | .store source _ index => some (source, index)
  | .cache source => some (source, lookupRamSize)
  | _ => none

/-- A wave type with a table. -/
def Tabled (waveType : WaveType) : Prop := waveType ≠ .arb ∧ waveType ≠ .none

instance (waveType : WaveType) : Decidable (Tabled waveType) :=
  inferInstanceAs (Decidable (_ ∧ _))

/-- Outside `UpdateRamLookups`, the RAMs of tabled wave types hold their tables. -/
def HoldsTables (scaledSine : Nat → BitVec 16) (program : Program F) : Prop :=
  program.point = .menu ∨ program.point = .mask → ∀ source, Tabled (program.cached source) →
    ∀ index < lookupRamSize,
      program.player.rams source index = computeSample scaledSine (program.cached source) index

/-- The interrupt finds no half to refill with rewritten words in it: the source of
the RAM that is rewritten for a table does not play, the line pacing it has not
changed, there is nothing to store, or the half it has left starts where no word has
been rewritten yet. -/
def SparesRewritten (program : Program F) : ProgramEvent F → Prop
  | .interrupt _ _ => ∀ source index, program.rewriting = some (source, index) →
      Tabled (wave program.dds source) → program.irq = true → ¬ program.player.Quiet →
      program.settings.playing source = true →
      program.line (program.settings.pacedBy source) ≠
        LookupPio.bit program.previusValue (program.settings.pacedBy source) →
      index ≤ ({ source, upper := !program.line (program.settings.pacedBy source) } :
        RamHalf).offset
  | _ => True

/-! ## What the interrupt writes -/

variable {program : Program F} {source : Source} {index : Nat} {scaledSine : Nat → BitVec 16}

/-- The calls of one invocation keep the words outside all their halves. -/
theorem refills_uncovered (volume : Volume) (locals : RefillCall → HeaderLocals)
    (stack : RefillCall → Nat → UInt8) (calls : List RefillCall) (player : WavPlayer)
    (uncovered : ∀ half ∈ handedHalves calls, ¬ half.Covers source index) :
    (calls.foldl (fun player call => player.ramWavUpdate volume (call.refill locals stack))
      player).rams source index = player.rams source index := by
  induction calls generalizing player with
  | nil => rfl
  | cons call rest inductionHypothesis =>
      rw [List.foldl_cons, inductionHypothesis]
      · apply WavPlayer.ramWavUpdate_uncovered
        rintro (⟨half, left, covered⟩ | ⟨half, right, covered⟩)
        · obtain rfl := Option.some.inj left
          exact uncovered call.ramL List.mem_cons_self covered
        · have handed : half ∈ call.ramR.toList := Option.mem_toList.mpr right
          exact uncovered half (List.mem_cons_of_mem _ (List.mem_append_left _ handed)) covered
      · intro half handed
        exact uncovered half (List.mem_append_right _ handed)

theorem refills_quiet (volume : Volume) (locals : RefillCall → HeaderLocals)
    (stack : RefillCall → Nat → UInt8) (calls : List RefillCall) {player : WavPlayer}
    (quiet : player.Quiet) :
    (calls.foldl (fun player call => player.ramWavUpdate volume (call.refill locals stack))
      player).rams = player.rams := by
  induction calls generalizing player with
  | nil => rfl
  | cons call rest inductionHypothesis =>
      obtain ⟨still, kept⟩ := quiet.refill volume (call.refill locals stack)
      exact (inductionHypothesis still).trans kept

/-- A source plays only while its cached wave type is ARB. -/
theorem cached_of_playing (playing : program.settings.playing source = true) :
    program.cached source = .arb := by
  cases source with
  | dds0 | dds1 => exact of_decide_eq_true playing
  | dds0AM | dds0FM | dds1AM | dds1FM => exact (of_decide_eq_true playing).1

/-- The interrupt keeps the RAMs whose cached wave type has a table. -/
theorem interrupt_tabled (tabled : Tabled (program.cached source)) (volume : Volume)
    (locals : RefillCall → HeaderLocals) (stack : RefillCall → Nat → UInt8) :
    (program.interrupt volume locals stack).player.rams source index =
      program.player.rams source index := by
  apply refills_uncovered
  intro half handed covered
  obtain ⟨⟨playing, _⟩, _⟩ := mem_handedHalves handed
  rw [← covered.1] at playing
  exact tabled.1 (cached_of_playing playing)

/-- The interrupt keeps the rewritten words it spares. -/
theorem interrupt_rewritten {rewritten : Nat} (rewriting : program.rewriting = some (source, rewritten))
    (tabled : Tabled (wave program.dds source)) (pending : program.irq = true)
    (below : index < rewritten) {locals : RefillCall → HeaderLocals}
    {stack : RefillCall → Nat → UInt8}
    (spares : program.SparesRewritten (.interrupt locals stack)) (volume : Volume) :
    (program.interrupt volume locals stack).player.rams source index =
      program.player.rams source index := by
  by_cases quiet : program.player.Quiet
  · exact congrFun (congrFun (refills_quiet volume locals stack program.calls quiet) source) index
  · apply refills_uncovered
    rintro ⟨_, upper⟩ handed ⟨rfl, fromOffset, _⟩
    obtain ⟨⟨playing, changed⟩, left⟩ := mem_handedHalves handed
    have spared := spares source rewritten rewriting tabled pending quiet playing changed
    rw [← left] at spared
    exact absurd (Nat.le_trans spared fromOffset) (Nat.not_le.mpr below)

/-! ## The invariant -/

/-- The RAMs hold their tables, that of the RAM being rewritten up to where it has
been. -/
structure Intact (scaledSine : Nat → BitVec 16) (program : Program F) : Prop where
  tables : ∀ source, (∀ index, program.rewriting ≠ some (source, index)) →
    Tabled (program.cached source) → ∀ index < lookupRamSize,
      program.player.rams source index = computeSample scaledSine (program.cached source) index
  rewritten : ∀ source count, program.rewriting = some (source, count) →
    Tabled (wave program.dds source) → ∀ index < count,
      program.player.rams source index =
        computeSample scaledSine (wave program.dds source) index
  target : ∀ source waveType index, program.point = .store source waveType index →
    waveType = wave program.dds source ∧ index < lookupRamSize

theorem Intact.holdsTables (intact : Intact scaledSine program) :
    HoldsTables scaledSine program := by
  intro outside source
  apply intact.tables source
  intro index
  rw [rewriting]
  obtain point | point := outside
  · rw [point]
    exact nofun
  · rw [point]
    exact nofun

/-- A step that changes neither the RAMs nor their wave types, outside a rewriting. -/
theorem Intact.of_same (intact : Intact scaledSine program) {next : Program F}
    (before : program.rewriting = none) (after : next.rewriting = none)
    (rams : next.player.rams = program.player.rams) (cached : next.cached = program.cached) :
    Intact scaledSine next where
  tables source _ tabled := by
    rw [rams, cached]
    rw [cached] at tabled
    exact intact.tables source (by rw [before]; exact nofun) tabled
  rewritten source count rewriting := by
    rw [after] at rewriting
    exact nomatch rewriting
  target source waveType index point := by
    rw [Program.rewriting, point] at after
    exact nomatch after

theorem Intact.interrupt (intact : Intact scaledSine program) (volume : Volume)
    {locals : RefillCall → HeaderLocals} {stack : RefillCall → Nat → UInt8}
    (pending : program.irq = true)
    (spares : program.SparesRewritten (.interrupt locals stack)) :
    Intact scaledSine (program.interrupt volume locals stack) where
  tables source elsewhere (tabled : Tabled (program.cached source)) index inRange := by
    rw [interrupt_tabled tabled]
    exact intact.tables source elsewhere tabled index inRange
  rewritten source count (rewriting : program.rewriting = some (source, count))
      (tabled : Tabled (wave program.dds source)) index below := by
    rw [interrupt_rewritten rewriting tabled pending below spares]
    exact intact.rewritten source count rewriting tabled index below
  target := intact.target

/-! ## The main loop -/

theorem storeWord_self (rams : LookupRams) (source : Source) (index : Nat) (sample : BitVec 16) :
    storeWord rams source index sample source index = sample :=
  if_pos ⟨rfl, rfl⟩

theorem storeWord_other {rams : LookupRams} {source other : Source} {index i : Nat}
    {sample : BitVec 16} (another : other ≠ source ∨ i ≠ index) :
    storeWord rams source index sample other i = rams other i :=
  if_neg fun both => another.elim (absurd both.1) (absurd both.2)

theorem afterRam_ne_store (source other : Source) (waveType : WaveType) (index : Nat) :
    afterRam source ≠ .store other waveType index := by
  cases source with
  | _ => exact nofun

theorem rewriting_of_afterRam (point : program.point = afterRam source) :
    program.rewriting = none := by
  rw [rewriting, point]
  cases source with
  | _ => rfl

variable [CFloat F]

theorem Intact.test (intact : Intact scaledSine program) (point : program.point = .test source) :
    Intact scaledSine (program.advance scaledSine) := by
  have before : program.rewriting = none := by
    rw [rewriting, point]
  rw [advance, point]
  by_cases changed : wave program.dds source ≠ program.cached source
  · simp only [if_pos changed]
    constructor
    · intro other _
      exact intact.tables other (by rw [before]; exact nofun)
    · rintro _ _ ⟨⟩ _ index below
      exact absurd below (Nat.not_lt_zero index)
    · rintro _ _ _ ⟨⟩
      exact ⟨rfl, by decide⟩
  · simp only [if_neg changed]
    have outside : ({ program with point := afterRam source } : Program F).rewriting = none :=
      rewriting_of_afterRam rfl
    exact intact.of_same before outside rfl rfl

theorem Intact.store (intact : Intact scaledSine program) {waveType : WaveType}
    (point : program.point = .store source waveType index) :
    Intact scaledSine (program.advance scaledSine) := by
  have before : program.rewriting = some (source, index) := by
    rw [rewriting, point]
  obtain ⟨rfl, inRange⟩ := intact.target source waveType index point
  have others : ∀ other, other ≠ source → Tabled (program.cached other) →
      ∀ i < lookupRamSize,
        storeWord program.player.rams source index
            (computeSample scaledSine (wave program.dds source) index) other i =
          computeSample scaledSine (program.cached other) i := by
    intro other another tabled i within
    rw [storeWord_other (.inl another)]
    refine intact.tables other (fun count => ?_) tabled i within
    rw [before]
    rintro ⟨⟩
    exact another rfl
  have grown : Tabled (wave program.dds source) → ∀ i < index + 1,
      storeWord program.player.rams source index
          (computeSample scaledSine (wave program.dds source) index) source i =
        computeSample scaledSine (wave program.dds source) i := by
    intro tabled i below
    obtain rfl | below := Nat.eq_or_lt_of_le (Nat.le_of_lt_succ below)
    · exact storeWord_self ..
    · rw [storeWord_other (.inr (Nat.ne_of_lt below))]
      exact intact.rewritten source index before tabled i below
  rw [advance, point]
  by_cases more : index + 1 < lookupRamSize
  · simp only [if_pos more]
    constructor
    · intro other elsewhere
      apply others other
      rintro rfl
      exact elsewhere (index + 1) rfl
    · rintro _ _ ⟨⟩
      exact grown
    · rintro _ _ _ ⟨⟩
      exact ⟨rfl, more⟩
  · have full : index + 1 = lookupRamSize := Nat.le_antisymm inRange (Nat.le_of_not_lt more)
    simp only [if_neg more]
    constructor
    · intro other elsewhere
      apply others other
      rintro rfl
      exact elsewhere lookupRamSize rfl
    · rintro _ _ ⟨⟩
      rw [← full]
      exact grown
    · exact nofun

theorem Intact.cache (intact : Intact scaledSine program) (point : program.point = .cache source) :
    Intact scaledSine (program.advance scaledSine) := by
  have before : program.rewriting = some (source, lookupRamSize) := by
    rw [rewriting, point]
  rw [advance, point]
  constructor
  · intro other _
    by_cases same : other = source
    · simp only [if_pos same]
      rw [same]
      exact intact.rewritten source lookupRamSize before
    · simp only [if_neg same]
      apply intact.tables other
      intro count
      rw [before]
      rintro ⟨⟩
      exact same rfl
  · intro other count rewriting
    rw [rewriting_of_afterRam rfl] at rewriting
    exact nomatch rewriting
  · intro other waveType index next
    exact absurd next (afterRam_ne_store source other waveType index)

/-- An event keeps the tables intact where the interrupt spares what is rewritten. -/
theorem Intact.step (intact : Intact scaledSine program) (volume : Volume)
    (event : ProgramEvent F) (spares : program.SparesRewritten event) :
    Intact scaledSine (program.step volume scaledSine event) := by
  cases event with
  | toggle source => exact ⟨intact.tables, intact.rewritten, intact.target⟩
  | interrupt locals stack =>
      rw [Program.step]
      split
      · rename_i pending
        exact intact.interrupt volume pending spares
      · exact intact
  | edit dds =>
      rw [Program.step]
      split
      · rename_i point
        have outside : program.rewriting = none := by
          rw [rewriting, point]
        exact intact.of_same outside outside rfl rfl
      · exact intact
  | select file =>
      rw [Program.step]
      split
      · exact ⟨intact.tables, intact.rewritten, intact.target⟩
      · exact intact
  | stop =>
      rw [Program.step]
      split
      · exact ⟨intact.tables, intact.rewritten, intact.target⟩
      · exact intact
  | advance =>
      rw [Program.step]
      cases point : program.point with
      | menu | mask =>
          have outside : program.rewriting = none := by
            rw [rewriting, point]
          rw [advance, point]
          exact intact.of_same outside rfl rfl rfl
      | test source => exact intact.test point
      | store source waveType index => exact intact.store point
      | cache source => exact intact.cache point

end DDSFunctionGen.Firmware.Program

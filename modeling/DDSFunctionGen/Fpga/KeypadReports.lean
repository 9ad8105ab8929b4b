import DDSFunctionGen.Fpga.Keypad

/-!
# What the keypad reports

A report is a run of one key code on `o_KeyPressed`. The state machine lets one
appear only after the delay of a press, and ends it only after the delay of a
release, which a scan without a key has started.
-/

namespace DDSFunctionGen.Fpga.Keypad

variable (rows : Nat → BitVec 4)

/-- `o_KeyPressed` after a number of clocks. -/
def reported (rows : Nat → BitVec 4) (clocks : Nat) : BitVec 8 := (after rows clocks).keyPressed

/-- The scan has latched the code from an earlier sample. -/
def Latched (rows : Nat → BitVec 4) (clocks : Nat) (code : BitVec 8) : Prop :=
  ∃ earlier < clocks, OneActive (rows earlier) ∧
    scannedKey (after rows earlier).columnsCounter (rows earlier) = some code

/-- The output has not changed for a number of clocks. -/
def HeldFor (rows : Nat → BitVec 4) (count clocks : Nat) : Prop :=
  count ≤ clocks ∧ ∀ back ≤ count, reported rows (clocks - back) = reported rows clocks

/-- The longest run of a value on the output around some clock, from `first` up to
before `next`. -/
structure MaximalRun (rows : Nat → BitVec 4) (value : BitVec 8) (first next : Nat) : Prop where
  nonempty : first < next
  holds : ∀ clocks, first ≤ clocks → clocks < next → reported rows clocks = value
  starts : 0 < first → reported rows (first - 1) ≠ value
  ended : reported rows next ≠ value

/-- A report appears at a clock. -/
structure Appears (rows : Nat → BitVec 4) (clocks : Nat) : Prop where
  before : 0 < clocks ∧ reported rows (clocks - 1) = 0xFF
  now : reported rows clocks ≠ 0xFF

/-- `KeyCode` becomes `0xFF`, by a scan that finds no key. -/
structure Clears (rows : Nat → BitVec 4) (clocks : Nat) : Prop where
  before : (after rows clocks).keyCode ≠ 0xFF
  after : (after rows (clocks + 1)).keyCode = 0xFF
  scan : FindsNoKey rows clocks

/-- Reports are debounced and do not merge. -/
structure Debounced (rows : Nat → BitVec 4) : Prop where
  latched : ∀ clocks, reported rows clocks = 0xFF ∨ Latched rows clocks (reported rows clocks)
  distinct : ∀ clocks, reported rows clocks ≠ 0xFF →
    reported rows (clocks + 1) = reported rows clocks ∨ reported rows (clocks + 1) = 0xFF
  lasts : ∀ code first next, code ≠ 0xFF → MaximalRun rows code first next → 20 < next - first
  separated : ∀ code first next, code ≠ 0xFF → MaximalRun rows code first next →
    ∀ clocks, next ≤ clocks → clocks ≤ next + 10 → reported rows clocks = 0xFF
  cleared : ∀ first second, first < second → Appears rows first → Appears rows second →
    ∃ clocks, first ≤ clocks + 1 ∧ clocks + 1 < second ∧ Clears rows clocks

variable {rows} {clocks : Nat}

/-! ## One clock -/

/-- A report appears only while a release is awaited, and is the code scanned. -/
theorem reported_appears (free : reported rows clocks = 0xFF)
    (appears : reported rows (clocks + 1) ≠ 0xFF) :
    (after rows clocks).currentState = .waitRelease ∧
      reported rows (clocks + 1) = (after rows clocks).keyCode := by
  have next := keyPressed_after_succ rows clocks
  by_cases waits : (after rows clocks).currentState = .waitRelease
  · rw [if_pos ⟨waits, free⟩] at next
    exact ⟨waits, next⟩
  · rw [if_neg fun both => waits both.1] at next
    split_ifs at next
    · exact absurd next appears
    · exact absurd (next.trans free) appears

/-- A report stays until the state machine is idle. -/
theorem reported_stays (report : reported rows clocks ≠ 0xFF) :
    reported rows (clocks + 1) =
      if (after rows clocks).currentState = .idle then 0xFF else reported rows clocks := by
  have next := keyPressed_after_succ rows clocks
  rw [if_neg fun both => report both.2] at next
  exact next

/-- Outside the idle state and the awaiting of a release, the output stays. -/
theorem reported_same (notIdle : (after rows clocks).currentState ≠ .idle)
    (notWaiting : (after rows clocks).currentState ≠ .waitRelease) :
    reported rows (clocks + 1) = reported rows clocks := by
  have next := keyPressed_after_succ rows clocks
  rw [if_neg fun both => notWaiting both.1, if_neg notIdle] at next
  exact next

theorem HeldFor.zero (rows : Nat → BitVec 4) (clocks : Nat) : HeldFor rows 0 clocks := by
  refine ⟨Nat.zero_le _, fun back none => ?_⟩
  rw [Nat.le_zero.mp none, Nat.sub_zero]

theorem HeldFor.succ {count : Nat} (held : HeldFor rows count clocks)
    (same : reported rows (clocks + 1) = reported rows clocks) :
    HeldFor rows (count + 1) (clocks + 1) := by
  refine ⟨Nat.succ_le_succ held.1, fun back within => ?_⟩
  cases back with
  | zero => rfl
  | succ back =>
      rw [Nat.add_sub_add_right, same]
      exact held.2 back (Nat.le_of_succ_le_succ within)

theorem reported_of_idle (idle : (after rows clocks).currentState = .idle) :
    reported rows (clocks + 1) = 0xFF := by
  have next := keyPressed_after_succ rows clocks
  rw [if_neg (by rw [idle]; exact fun both => nomatch both.1), if_pos idle] at next
  exact next

/-! ## The delays -/

/-- The output has been held for as long as the counter says, up to a delay. -/
structure Counts (rows : Nat → BitVec 4) (delay : BitVec 8) (clocks : Nat) : Prop where
  within : (after rows clocks).delayCounter.toNat ≤ delay.toNat + 1
  held : HeldFor rows (after rows clocks).delayCounter.toNat clocks

theorem Counts.of_cleared {delay : BitVec 8} (cleared : (after rows clocks).delayCounter = 0) :
    Counts rows delay clocks where
  within := by
    rw [cleared]
    exact Nat.zero_le _
  held := by
    rw [cleared]
    exact .zero rows clocks

/-- The delay has elapsed two clocks after the counter has reached it. -/
theorem Counts.held_of_elapsed {delay : BitVec 8} (counts : Counts rows delay clocks)
    (elapsed : delay < (after rows clocks).delayCounter)
    (same : reported rows (clocks + 1) = reported rows clocks) :
    HeldFor rows (delay.toNat + 2) (clocks + 1) := by
  have full : (after rows clocks).delayCounter.toNat = delay.toNat + 1 :=
    Nat.le_antisymm counts.within (BitVec.lt_def.mp elapsed)
  have held := counts.held.succ same
  rw [full] at held
  exact held

theorem Counts.succ {delay : BitVec 8} (counts : Counts rows delay clocks)
    (short : delay.toNat < 254) (notOver : ¬ delay < (after rows clocks).delayCounter)
    (counter : (after rows (clocks + 1)).delayCounter = (after rows clocks).delayCounter + 1)
    (same : reported rows (clocks + 1) = reported rows clocks) :
    Counts rows delay (clocks + 1) := by
  have below : (after rows clocks).delayCounter.toNat ≤ delay.toNat :=
    Nat.le_of_not_lt fun above => notOver (BitVec.lt_def.mpr above)
  have counted : (after rows (clocks + 1)).delayCounter.toNat =
      (after rows clocks).delayCounter.toNat + 1 := by
    rw [counter]
    exact BitVec.toNat_add_of_lt (show _ + 1 < 256 by omega)
  constructor
  · rw [counted]
    exact Nat.succ_le_succ below
  · rw [counted]
    exact counts.held.succ same

/-- How long the output has been held in each state. -/
def Settled (rows : Nat → BitVec 4) (clocks : Nat) : Prop :=
  match (after rows clocks).currentState with
  | .idle => reported rows clocks = 0xFF ∨ HeldFor rows 22 clocks
  | .keyPressed => reported rows clocks = 0xFF ∧ Counts rows keyPressDelay clocks
  | .waitRelease => 12 ≤ clocks ∧ (reported rows clocks = 0xFF → HeldFor rows 12 clocks)
  | .keyReleased => Counts rows keyReleaseDelay clocks

theorem Settled.step (settled : Settled rows clocks) : Settled rows (clocks + 1) := by
  have next := currentState_after_succ rows clocks
  have delay := delayCounter_after_succ rows clocks
  cases state : (after rows clocks).currentState with
  | idle =>
      have free := reported_of_idle state
      rw [state, nextState] at next
      rw [if_neg (by rw [state]; decide)] at delay
      split_ifs at next
      · rw [Settled, next]
        exact ⟨free, .of_cleared delay⟩
      · rw [Settled, next]
        exact .inl free
  | keyPressed =>
      have same : reported rows (clocks + 1) = reported rows clocks :=
        reported_same (by rw [state]; decide) (by rw [state]; decide)
      rw [Settled, state] at settled
      obtain ⟨free, counts⟩ := settled
      rw [state, nextState] at next
      rw [if_pos (.inl state)] at delay
      split_ifs at next with elapsed
      · have twelve := counts.held_of_elapsed elapsed same
        rw [Settled, next]
        exact ⟨twelve.1, fun _ => twelve⟩
      · rw [Settled, next]
        exact ⟨same.trans free, counts.succ (by decide) elapsed delay same⟩
  | waitRelease =>
      rw [Settled, state] at settled
      obtain ⟨late, _⟩ := settled
      rw [state, nextState] at next
      rw [if_neg (by rw [state]; decide)] at delay
      split_ifs at next with released
      · rw [Settled, next]
        exact .of_cleared delay
      · rw [Settled, next]
        refine ⟨Nat.le_succ_of_le late, fun free => ?_⟩
        -- The code is reported at once, so the output is not free after the clock.
        have report := keyPressed_after_succ rows clocks
        by_cases before : (after rows clocks).keyPressed = 0xFF
        · rw [if_pos ⟨state, before⟩] at report
          exact absurd (report.symm.trans free) released
        · rw [if_neg fun both => before both.2, if_neg (by rw [state]; decide)] at report
          exact absurd (report.symm.trans free) before
  | keyReleased =>
      have same : reported rows (clocks + 1) = reported rows clocks :=
        reported_same (by rw [state]; decide) (by rw [state]; decide)
      rw [Settled, state] at settled
      rw [state, nextState] at next
      rw [if_pos (.inr state)] at delay
      split_ifs at next with elapsed
      · rw [Settled, next]
        exact .inr (settled.held_of_elapsed elapsed same)
      · rw [Settled, next]
        exact settled.succ (by decide) elapsed delay same

theorem settled (rows : Nat → BitVec 4) (clocks : Nat) : Settled rows clocks := by
  induction clocks with
  | zero => exact .inl rfl
  | succ clocks inductionHypothesis => exact inductionHypothesis.step

/-! ## The codes -/

theorem Latched.succ {code : BitVec 8} (latched : Latched rows clocks code) :
    Latched rows (clocks + 1) code := by
  obtain ⟨earlier, before, sample⟩ := latched
  exact ⟨earlier, Nat.lt_succ_of_lt before, sample⟩

/-- `KeyCode` is from a sample, except while the first scan has found no key yet. -/
def Sampled (rows : Nat → BitVec 4) (clocks : Nat) : Prop :=
  (after rows clocks).keyCode = 0xFF ∨ Latched rows clocks (after rows clocks).keyCode ∨
    (clocks ≤ 4 ∧ ∀ earlier < clocks, misses rows earlier = true)

/-- The first scan counts the four columns it has found without a key. -/
theorem four_of_misses (missed : ∀ earlier < 4, misses rows earlier = true) :
    (after rows 4).numberInactiveRows = 4 := by
  rw [counts_sampling rows (by decide), counts_sampling rows (by decide),
    counts_sampling rows (by decide), counts_sampling rows (by decide),
    missed 0 (by decide), missed 1 (by decide), missed 2 (by decide), missed 3 (by decide)]
  rfl

theorem Sampled.step (sampled : Sampled rows clocks) : Sampled rows (clocks + 1) := by
  have next := keyCode_after_succ rows clocks
  rw [scannedCode] at next
  cases found : scannedKey (after rows clocks).columnsCounter (rows clocks) with
  | some key =>
      rw [found] at next
      refine .inr (.inl ⟨clocks, Nat.lt_succ_self _, oneActive_of_scannedKey found, ?_⟩)
      rw [found, next]
  | none =>
      rw [found] at next
      simp only at next
      split_ifs at next with ends
      · exact .inl next
      · rw [Sampled, next]
        obtain cleared | latched | ⟨early, missed⟩ := sampled
        · exact .inl cleared
        · exact .inr (.inl latched.succ)
        · have notEnd : clocks ≠ 4 := by
            rintro rfl
            exact ends ⟨rfl, four_of_misses missed⟩
          refine .inr (.inr ⟨by omega, fun earlier before => ?_⟩)
          obtain same | before := Nat.eq_or_lt_of_le (Nat.le_of_lt_succ before)
          · rw [same, misses, decide_eq_true found]
          · exact missed earlier before

theorem sampled (rows : Nat → BitVec 4) (clocks : Nat) : Sampled rows clocks := by
  induction clocks with
  | zero => exact .inr (.inr ⟨Nat.zero_le _, fun _ before => absurd before (Nat.not_lt_zero _)⟩)
  | succ clocks inductionHypothesis => exact inductionHypothesis.step

theorem reported_latched (rows : Nat → BitVec 4) (clocks : Nat) :
    reported rows clocks = 0xFF ∨ Latched rows clocks (reported rows clocks) := by
  induction clocks with
  | zero => exact .inl rfl
  | succ clocks inductionHypothesis =>
      by_cases free : reported rows clocks = 0xFF
      · by_cases after : reported rows (clocks + 1) = 0xFF
        · exact .inl after
        · obtain ⟨waits, code⟩ := reported_appears free after
          have late := settled rows clocks
          rw [Settled, waits] at late
          rw [code] at after ⊢
          obtain cleared | latched | ⟨early, _⟩ := sampled rows clocks
          · exact absurd cleared after
          · exact .inr latched.succ
          · exact absurd (Nat.le_trans late.1 early) (by decide)
      · rw [reported_stays free]
        split_ifs
        · exact .inl rfl
        · exact .inr (inductionHypothesis.resolve_left free).succ

/-! ## The runs of a code -/

theorem reported_distinct (report : reported rows clocks ≠ 0xFF) :
    reported rows (clocks + 1) = reported rows clocks ∨ reported rows (clocks + 1) = 0xFF := by
  rw [reported_stays report]
  split_ifs
  · exact .inr rfl
  · exact .inl rfl

section Run

variable {code : BitVec 8} {first next : Nat}

/-- The last clock of a run. -/
theorem MaximalRun.last (run : MaximalRun rows code first next) :
    reported rows (next - 1) = code :=
  run.holds (next - 1) (Nat.le_sub_one_of_lt run.nonempty)
    (Nat.sub_one_lt_of_lt run.nonempty)

theorem MaximalRun.next_eq (run : MaximalRun rows code first next) : next = next - 1 + 1 :=
  (Nat.succ_pred_eq_of_pos (Nat.zero_lt_of_lt run.nonempty)).symm

/-- A run of a code ends in the idle state, with the output free again. -/
theorem MaximalRun.ends (run : MaximalRun rows code first next) (key : code ≠ 0xFF) :
    (after rows (next - 1)).currentState = .idle ∧ reported rows next = 0xFF := by
  have stays := reported_stays (run.last ▸ key)
  rw [← run.next_eq, run.last] at stays
  split_ifs at stays with idle
  · exact ⟨idle, stays⟩
  · exact absurd stays run.ended

theorem MaximalRun.lasts (run : MaximalRun rows code first next) (key : code ≠ 0xFF) :
    20 < next - first := by
  have held := settled rows (next - 1)
  rw [Settled, (run.ends key).1] at held
  obtain ⟨late, same⟩ := held.resolve_left (run.last ▸ key)
  by_contra short
  have started : 0 < first := by omega
  have earlier := same (next - first) (by omega)
  have back : next - 1 - (next - first) = first - 1 := by
    have := run.nonempty
    omega
  rw [back, run.last] at earlier
  exact run.starts started earlier

theorem MaximalRun.separated (run : MaximalRun rows code first next) (key : code ≠ 0xFF)
    (distance : Nat) (near : distance ≤ 10) : reported rows (next + distance) = 0xFF := by
  induction distance with
  | zero => exact (run.ends key).2
  | succ distance inductionHypothesis =>
      have free := inductionHypothesis (Nat.le_of_succ_le near)
      by_contra appears
      -- The output would have been free since before the end of the run.
      have held := settled rows (next + distance)
      rw [Settled, (reported_appears free appears).1] at held
      have earlier := (held.2 free).2 (distance + 1) (by omega)
      have back : next + distance - (distance + 1) = next - 1 := by omega
      rw [back, run.last, free] at earlier
      exact key earlier

end Run

/-! ## Two reports -/

/-- From one report on, no other can appear until a scan has found no key. -/
theorem clears_or_waits {first : Nat} (appears : Appears rows first) (later : Nat) :
    (∃ clocks, first ≤ clocks + 1 ∧ clocks + 1 ≤ first + later ∧ Clears rows clocks) ∨
      (after rows (first + later)).keyCode ≠ 0xFF ∧
        (after rows (first + later)).currentState = .waitRelease ∧
        reported rows (first + later) ≠ 0xFF := by
  induction later with
  | zero =>
      obtain ⟨⟨positive, free⟩, now⟩ := appears
      obtain ⟨clocks, rfl⟩ : ∃ clocks, first = clocks + 1 := ⟨first - 1, by omega⟩
      rw [Nat.add_sub_cancel] at free
      obtain ⟨waits, code⟩ := reported_appears free now
      have key : (after rows clocks).keyCode ≠ 0xFF := code ▸ now
      by_cases cleared : (after rows (clocks + 1)).keyCode = 0xFF
      · exact .inl ⟨clocks, Nat.le_refl _, Nat.le_refl _, key, cleared,
          findsNoKey_of_cleared rows key cleared⟩
      · refine .inr ⟨cleared, ?_, now⟩
        show (after rows (clocks + 1)).currentState = .waitRelease
        rw [currentState_after_succ, waits, nextState, if_neg key]
  | succ later inductionHypothesis =>
      obtain ⟨clocks, since, before, clears⟩ | ⟨key, waits, report⟩ := inductionHypothesis
      · exact .inl ⟨clocks, since, Nat.le_succ_of_le before, clears⟩
      · by_cases cleared : (after rows (first + later + 1)).keyCode = 0xFF
        · exact .inl ⟨first + later, by omega, Nat.le_refl _, key, cleared,
            findsNoKey_of_cleared rows key cleared⟩
        · refine .inr ⟨cleared, ?_, ?_⟩
          · show (after rows (first + later + 1)).currentState = .waitRelease
            rw [currentState_after_succ, waits, nextState, if_neg key]
          · show reported rows (first + later + 1) ≠ 0xFF
            rw [reported_stays report, if_neg (by rw [waits]; decide)]
            exact report

/-- **Reports are debounced.** The output is free or carries a latched code, one
report lasts and is apart from the next, and a scan without a key is between. -/
theorem keypad_reports_debounced (rows : Nat → BitVec 4) : Debounced rows where
  latched := reported_latched rows
  distinct _ report := reported_distinct report
  lasts _ _ _ key run := run.lasts key
  separated _ _ next key run clocks ended near := by
    obtain ⟨distance, rfl⟩ := Nat.exists_eq_add_of_le ended
    exact run.separated key distance (Nat.le_of_add_le_add_left near)
  cleared first second before appears again := by
    obtain ⟨later, rfl⟩ := Nat.exists_eq_add_of_lt before
    obtain ⟨clocks, since, within, clears⟩ | ⟨_, _, report⟩ := clears_or_waits appears later
    · exact ⟨clocks, since, Nat.lt_succ_of_le within, clears⟩
    · exact absurd again.before.2 report

end DDSFunctionGen.Fpga.Keypad

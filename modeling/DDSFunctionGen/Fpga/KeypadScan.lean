import DDSFunctionGen.Fpga.Keypad

/-!
# What one scan of the keypad decodes

A scan takes eight clocks: four sample the columns, the fifth closes the scan
and three rest. The registers are not cleared before it, so what the scan finds
is written as a function of its own four samples, and the code register is
shown to hold that function's value when the scan ends.
-/

namespace DDSFunctionGen.Fpga.Keypad

/-- The code that the sample of a column decodes to. -/
def found (rows : Nat → BitVec 4) (scan column : Nat) : Option (BitVec 8) :=
  scannedKey (BitVec.ofNat 3 column) (rows (8 * scan + column))

/-- The code of the last key among the first columns of a scan. -/
def lastFound (rows : Nat → BitVec 4) (scan : Nat) : Nat → Option (BitVec 8)
  | 0 => none
  | column + 1 => (found rows scan column).or (lastFound rows scan column)

variable (rows : Nat → BitVec 4) {scan column : Nat}

theorem lastFound_eq_none_iff {columns : Nat} :
    lastFound rows scan columns = none ↔ ∀ column < columns, found rows scan column = none := by
  induction columns with
  | zero => simp [lastFound]
  | succ columns inductionHypothesis =>
      rw [lastFound, Option.or_eq_none_iff, inductionHypothesis, Nat.forall_lt_succ_right,
        and_comm]

/-- A key that no later column follows is the last. -/
theorem lastFound_eq_some {code : BitVec 8} (key : found rows scan column = some code)
    {columns : Nat} (below : column < columns)
    (last : ∀ later, column < later → later < columns → found rows scan later = none) :
    lastFound rows scan columns = some code := by
  induction columns with
  | zero => exact absurd below (Nat.not_lt_zero column)
  | succ columns inductionHypothesis =>
      rw [lastFound]
      rcases Nat.lt_succ_iff_lt_or_eq.mp below with earlier | rfl
      · rw [last columns earlier (Nat.lt_succ_self columns), Option.none_or]
        apply inductionHypothesis earlier
        exact fun later after bound => last later after (Nat.lt_succ_of_lt bound)
      · rw [key, Option.some_or]

theorem lastFound_ne_released (columns : Nat) : lastFound rows scan columns ≠ some 0xFF := by
  induction columns with
  | zero => exact nofun
  | succ columns inductionHypothesis =>
      rw [lastFound]
      intro released
      rcases Option.or_eq_some_iff.mp released with key | ⟨-, earlier⟩
      · exact scannedKey_ne_released _ _ key
      · exact inductionHypothesis earlier

/-- A sample finds a key exactly when one row is active. -/
theorem found_eq_none_iff (sampled : column < 4) :
    found rows scan column = none ↔ ¬ OneActive (rows (8 * scan + column)) := by
  have decodes : ∀ column < 4, ∀ sample : BitVec 4,
      scannedKey (BitVec.ofNat 3 column) sample = none ↔ ¬ OneActive sample := by
    decide
  exact decodes column sampled _

theorem columnsCounter_in_scan (inside : column < 8) :
    (after rows (8 * scan + column)).columnsCounter = BitVec.ofNat 3 column :=
  (columnsCounter_eq_iff rows inside).mpr (by omega)

/-! ## The code register -/

/-- While the columns are sampled, the register holds the last key found, or what
an earlier scan left. -/
theorem keyCode_sampling {columns : Nat} (sampled : columns ≤ 4) :
    (after rows (8 * scan + columns)).keyCode =
      (lastFound rows scan columns).getD (after rows (8 * scan)).keyCode := by
  induction columns with
  | zero => rfl
  | succ columns inductionHypothesis =>
      have counter := @columnsCounter_in_scan rows scan columns (by omega)
      have notFour : BitVec.ofNat 3 columns ≠ 4 := by
        intro four
        have values := congrArg BitVec.toNat four
        rw [BitVec.toNat_ofNat, Nat.mod_eq_of_lt (by omega)] at values
        exact absurd values (Nat.ne_of_lt sampled)
      rw [← Nat.add_assoc, keyCode_after_succ, scannedCode, counter, lastFound, found]
      cases scannedKey (BitVec.ofNat 3 columns) (rows (8 * scan + columns)) with
      | some code => rfl
      | none =>
          rw [Option.none_or, ← inductionHypothesis (by omega)]
          exact if_neg fun both => notFour both.1

/-- As long as no column has a key, every column is counted. -/
theorem numberInactiveRows_sampling {columns : Nat} (sampled : columns ≤ 4)
    (nothing : ∀ column < columns, found rows scan column = none) :
    (after rows (8 * scan + columns)).numberInactiveRows = BitVec.ofNat 3 columns := by
  induction columns with
  | zero => exact counts_start rows scan
  | succ columns inductionHypothesis =>
      have missed : misses rows (8 * scan + columns) = true := by
        rw [misses, columnsCounter_in_scan rows (by omega)]
        exact decide_eq_true (nothing columns (Nat.lt_succ_self columns))
      rw [← Nat.add_assoc, counts_sampling rows (by omega), missed,
        inductionHypothesis (by omega) fun column below =>
          nothing column (Nat.lt_succ_of_lt below)]
      exact BitVec.ofNat_add_ofNat ..

theorem numberInactiveRows_eq_four_iff :
    (after rows (8 * scan + 4)).numberInactiveRows = 4 ↔ lastFound rows scan 4 = none := by
  rw [lastFound_eq_none_iff]
  constructor
  · intro four column sampled
    have nothing := findsNoKey_of_four rows (columnsCounter_in_scan rows (by decide)) four
    have missed := (nothing.samples column sampled).2
    rwa [Nat.add_sub_cancel] at missed
  · exact numberInactiveRows_sampling rows (by decide)

/-- The clock that closes the scan replaces what an earlier scan left. -/
theorem keyCode_closed :
    (after rows (8 * scan + 5)).keyCode = (lastFound rows scan 4).getD 0xFF := by
  have counter := @columnsCounter_in_scan rows scan 4 (by decide)
  have nothing : scannedKey (BitVec.ofNat 3 4) (rows (8 * scan + 4)) = none := rfl
  have held := @keyCode_sampling rows scan 4 (by decide)
  show (after rows (8 * scan + 4 + 1)).keyCode = _
  rw [keyCode_after_succ, scannedCode, counter, nothing, held]
  cases last : lastFound rows scan 4 with
  | none => exact if_pos ⟨rfl, (numberInactiveRows_eq_four_iff rows).mpr last⟩
  | some code =>
      refine if_neg fun both => ?_
      rw [(numberInactiveRows_eq_four_iff rows).mp both.2] at last
      exact Option.some_ne_none code last.symm

/-- The three resting clocks leave the code alone. -/
theorem keyCode_resting (resting : 5 ≤ column) (inside : column < 8) :
    (after rows (8 * scan + column + 1)).keyCode = (after rows (8 * scan + column)).keyCode := by
  have idle : ∀ column < 8, 5 ≤ column → ∀ sample : BitVec 4,
      scannedKey (BitVec.ofNat 3 column) sample = none ∧ BitVec.ofNat 3 column ≠ 4 := by
    decide
  obtain ⟨nothing, notFour⟩ := idle column inside resting (rows (8 * scan + column))
  rw [keyCode_after_succ, scannedCode, columnsCounter_in_scan rows inside, nothing]
  exact if_neg fun both => notFour both.1

/-- At its end a scan has decoded its own samples. -/
theorem keyCode_after_scan :
    (after rows (8 * scan + 8)).keyCode = (lastFound rows scan 4).getD 0xFF := by
  show (after rows (8 * scan + 7 + 1)).keyCode = _
  rw [keyCode_resting rows (by decide) (by decide)]
  show (after rows (8 * scan + 6 + 1)).keyCode = _
  rw [keyCode_resting rows (by decide) (by decide)]
  show (after rows (8 * scan + 5 + 1)).keyCode = _
  rw [keyCode_resting rows (by decide) (by decide), keyCode_closed]

theorem keyCode_released_iff :
    (after rows (8 * scan + 8)).keyCode = 0xFF ↔ lastFound rows scan 4 = none := by
  rw [keyCode_after_scan]
  cases last : lastFound rows scan 4 with
  | none => exact iff_of_true rfl rfl
  | some code =>
      refine iff_of_false (fun released => ?_) (Option.some_ne_none code)
      exact lastFound_ne_released rows 4 (last.trans (congrArg some released))

/-! ## The counter of inactive rows -/

/-- One sample adds at most one. -/
theorem toNat_add_counted_le (rowsBefore : BitVec 3) (missed : Bool) :
    (rowsBefore + counted missed).toNat ≤ rowsBefore.toNat + 1 := by
  revert rowsBefore missed
  decide

/-- The counter never passes the number of columns sampled since it was cleared. -/
theorem numberInactiveRows_le_sampled (clocks : Nat) :
    (after rows clocks).numberInactiveRows.toNat ≤ if clocks % 8 ≤ 4 then clocks % 8 else 0 := by
  induction clocks with
  | zero => exact Nat.le_refl 0
  | succ clocks inductionHypothesis =>
      by_cases sampling : clocks % 8 < 4
      · rw [counts_sampling rows sampling, if_pos (by omega)]
        have bounded := toNat_add_counted_le (after rows clocks).numberInactiveRows
          (misses rows clocks)
        rw [if_pos (by omega)] at inductionHypothesis
        omega
      · rw [counts_resting rows (by omega)]
        by_cases closing : clocks % 8 = 4
        · rw [if_pos closing]
          exact Nat.zero_le _
        · rw [if_neg closing]
          rw [if_neg (by omega)] at inductionHypothesis
          omega

theorem numberInactiveRows_le_four (clocks : Nat) :
    (after rows clocks).numberInactiveRows.toNat ≤ 4 := by
  have bounded := numberInactiveRows_le_sampled rows clocks
  split_ifs at bounded
  · omega
  · omega

/-- A clock with the counter at zero starts a scan. -/
theorem scan_of_columnsCounter {clocks : Nat} (starts : (after rows clocks).columnsCounter = 0) :
    ∃ scan, clocks = 8 * scan := by
  have phase : clocks % 8 = 0 := (columnsCounter_eq_iff rows (by decide)).mp starts
  exact ⟨clocks / 8, by omega⟩

/-- Whatever the rows have been since power-up, a scan decodes its own four
samples: no key where none has exactly one active row, else the key of the last
such column. The counter of inactive rows starts every scan at zero and never
passes four. -/
theorem scan_decodes (rows : Nat → BitVec 4) :
    (∀ start, (after rows start).columnsCounter = 0 →
      ((after rows (start + 8)).keyCode = 0xFF ↔
        ∀ column < 4, ¬ OneActive (rows (start + column))) ∧
      ∀ column < 4, OneActive (rows (start + column)) →
        (∀ later, column < later → later < 4 → ¬ OneActive (rows (start + later))) →
          scannedKey (BitVec.ofNat 3 column) (rows (start + column)) =
            some (after rows (start + 8)).keyCode) ∧
      (∀ clocks, (after rows clocks).numberInactiveRows.toNat ≤ 4) ∧
      ∀ start, (after rows start).columnsCounter = 0 →
        (after rows start).numberInactiveRows = 0 := by
  refine ⟨fun start starts => ?_, numberInactiveRows_le_four rows, fun start starts => ?_⟩
  · obtain ⟨scan, rfl⟩ := scan_of_columnsCounter rows starts
    refine ⟨?_, fun column sampled single last => ?_⟩
    · rw [keyCode_released_iff, lastFound_eq_none_iff]
      exact forall₂_congr fun column sampled => found_eq_none_iff rows sampled
    · obtain ⟨code, key⟩ := Option.ne_none_iff_exists'.mp
        (mt (found_eq_none_iff rows sampled).mp (not_not_intro single))
      have nothing : ∀ later, column < later → later < 4 → found rows scan later = none :=
        fun later after below => (found_eq_none_iff rows below).mpr (last later after below)
      rw [keyCode_after_scan, lastFound_eq_some rows key sampled nothing]
      exact key
  · obtain ⟨scan, rfl⟩ := scan_of_columnsCounter rows starts
    exact counts_start rows scan

end DDSFunctionGen.Fpga.Keypad

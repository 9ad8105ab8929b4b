import Mathlib.Algebra.Order.Round
import Mathlib.Data.List.Chain
import Mathlib.Data.List.Nodup
import Mathlib.Data.Rat.Floor
import Mathlib.Tactic.FieldSimp
import Mathlib.Tactic.Linarith

/-!
# Digital lines

A set of points joins two of them if it can be listed as a path from one to the
other, each point next to the one before, none twice and none outside their
bounding box. Rounding the points of a segment one coordinate at a time gives
such a path.
-/

namespace DDSFunctionGen.Pictures

/-- Different points that touch, at a side or at a corner. -/
def Adjacent (first second : ℤ × ℤ) : Prop :=
  first ≠ second ∧ |second.1 - first.1| ≤ 1 ∧ |second.2 - first.2| ≤ 1

theorem Adjacent.symm {first second : ℤ × ℤ} (adjacent : Adjacent first second) :
    Adjacent second first := by
  obtain ⟨different, columns, rows⟩ := adjacent
  rw [abs_sub_comm] at columns rows
  exact ⟨different.symm, columns, rows⟩

/-- The points between two corners. -/
def box (first last : ℤ × ℤ) : Set (ℤ × ℤ) :=
  {point | min first.1 last.1 ≤ point.1 ∧ point.1 ≤ max first.1 last.1 ∧
    min first.2 last.2 ≤ point.2 ∧ point.2 ≤ max first.2 last.2}

/-- A path from one point to another inside their bounding box. -/
structure PathBetween (first last : ℤ × ℤ) (path : List (ℤ × ℤ)) : Prop where
  starts : path.head? = some first
  ends : path.getLast? = some last
  connected : path.IsChain Adjacent
  nodup : path.Nodup
  inBox : ∀ point ∈ path, point ∈ box first last

/-- The set consists of the points of such a path, as many as the longer side of
the box has. -/
def Joins (first last : ℤ × ℤ) (points : Set (ℤ × ℤ)) : Prop :=
  ∃ path, PathBetween first last path ∧
    (path.length : ℤ) = max |last.1 - first.1| |last.2 - first.2| + 1 ∧
    points = {point | point ∈ path}

theorem box_comm (first last : ℤ × ℤ) : box first last = box last first := by
  ext point
  simp only [box, min_comm, max_comm, Set.mem_ofPred_eq]

theorem PathBetween.reverse {first last : ℤ × ℤ} {path : List (ℤ × ℤ)}
    (between : PathBetween first last path) : PathBetween last first path.reverse where
  starts := by rw [List.head?_reverse, between.ends]
  ends := by rw [List.getLast?_reverse, between.starts]
  connected := List.isChain_reverse.mpr (between.connected.imp fun _ _ => Adjacent.symm)
  nodup := by
    rw [List.nodup_reverse]
    exact between.nodup
  inBox := by
    intro point member
    rw [box_comm]
    exact between.inBox point (List.mem_reverse.mp member)

theorem Joins.symm {first last : ℤ × ℤ} {points : Set (ℤ × ℤ)}
    (joins : Joins first last points) : Joins last first points := by
  obtain ⟨path, between, counted, rfl⟩ := joins
  refine ⟨path.reverse, between.reverse, ?_, ?_⟩
  · rw [List.length_reverse, counted, abs_sub_comm last.1, abs_sub_comm last.2]
  · ext point
    exact List.mem_reverse.symm

/-- Rows and columns exchanged. -/
theorem Joins.mirror {first last : ℤ × ℤ} {points : Set (ℤ × ℤ)}
    (joins : Joins first last points) :
    Joins first.swap last.swap {point | point.swap ∈ points} := by
  obtain ⟨path, between, counted, rfl⟩ := joins
  refine ⟨path.map Prod.swap, ⟨?_, ?_, ?_, ?_, ?_⟩, ?_, ?_⟩
  · rw [List.head?_map, between.starts, Option.map_some]
  · rw [List.getLast?_map, between.ends, Option.map_some]
  · rw [List.isChain_map]
    refine between.connected.imp fun first second adjacent => ?_
    exact ⟨fun same => adjacent.1 (Prod.swap_injective same), adjacent.2.2, adjacent.2.1⟩
  · exact between.nodup.map Prod.swap_injective
  · intro point member
    obtain ⟨source, inPath, rfl⟩ := List.mem_map.mp member
    obtain ⟨left, right, upper, lower⟩ := between.inBox source inPath
    exact ⟨upper, lower, left, right⟩
  · rw [List.length_map, counted, max_comm]
    rfl
  · ext point
    constructor
    · intro member
      exact List.mem_map.mpr ⟨point.swap, member, Prod.swap_swap point⟩
    · intro member
      obtain ⟨source, inPath, rfl⟩ := List.mem_map.mp member
      exact inPath

/-- Both end points belong to what joins them. -/
theorem Joins.mem_last {first last : ℤ × ℤ} {points : Set (ℤ × ℤ)}
    (joins : Joins first last points) : last ∈ points := by
  obtain ⟨path, between, -, rfl⟩ := joins
  exact List.mem_of_getLast? between.ends

theorem Joins.mem_first {first last : ℤ × ℤ} {points : Set (ℤ × ℤ)}
    (joins : Joins first last points) : first ∈ points := joins.symm.mem_last

theorem Joins.subset_box {first last : ℤ × ℤ} {points : Set (ℤ × ℤ)}
    (joins : Joins first last points) : points ⊆ box first last := by
  obtain ⟨path, between, -, rfl⟩ := joins
  exact between.inBox

/-- A path given point by point. -/
theorem joins_of_steps {steps : ℕ} {point : ℕ → ℤ × ℤ}
    (injective : ∀ first ≤ steps, ∀ second ≤ steps, point first = point second → first = second)
    (near : ∀ step < steps, |(point (step + 1)).1 - (point step).1| ≤ 1 ∧
      |(point (step + 1)).2 - (point step).2| ≤ 1)
    (inBox : ∀ step ≤ steps, point step ∈ box (point 0) (point steps))
    (counted : (steps : ℤ) =
      max |(point steps).1 - (point 0).1| |(point steps).2 - (point 0).2|) :
    Joins (point 0) (point steps) {reached | ∃ step ≤ steps, reached = point step} := by
  have member : ∀ reached, reached ∈ (List.range (steps + 1)).map point ↔
      ∃ step ≤ steps, reached = point step := by
    intro reached
    simp only [List.mem_map, List.mem_range, Nat.lt_succ_iff, eq_comm]
  refine ⟨(List.range (steps + 1)).map point, ⟨?_, ?_, ?_, ?_, ?_⟩, ?_, ?_⟩
  · simp [List.range_succ_eq_map]
  · simp [List.range_succ]
  · rw [List.isChain_map, List.isChain_iff_getElem]
    intro index bound
    rw [List.length_range] at bound
    rw [List.getElem_range, List.getElem_range]
    refine ⟨fun same => ?_, near index (by omega)⟩
    have repeated := injective index (by omega) (index + 1) (by omega) same
    omega
  · refine List.Nodup.map_on ?_ List.nodup_range
    intro first inRange second inRange' same
    rw [List.mem_range] at inRange inRange'
    exact injective first (by omega) second (by omega) same
  · intro reached isMember
    obtain ⟨step, within, rfl⟩ := (member reached).mp isMember
    exact inBox step within
  · rw [← counted, List.length_map, List.length_range]
    exact Nat.cast_succ steps
  · ext reached
    exact (member reached).symm

/-! ## Rounding -/

/-- A coordinate that goes from one integer to another in equal steps, rounded. -/
def rounded (start stop : ℤ) (steps step : ℕ) : ℤ :=
  ⌊(start : ℚ) + step * ((stop - start) / steps) + 1 / 2⌋

theorem rounded_zero (start stop : ℤ) (steps : ℕ) : rounded start stop steps 0 = start := by
  rw [rounded, Nat.cast_zero, zero_mul, add_zero, Int.floor_eq_iff]
  constructor
  · linarith
  · linarith

theorem rounded_last (start stop : ℤ) {steps : ℕ} (positive : 0 < steps) :
    rounded start stop steps steps = stop := by
  have nonzero : (steps : ℚ) ≠ 0 := Nat.cast_ne_zero.mpr (Nat.ne_of_gt positive)
  have whole : (steps : ℚ) * ((stop - start) / steps) = stop - start := by field_simp
  rw [rounded, whole, Int.floor_eq_iff]
  constructor
  · linarith
  · linarith

/-- A slope of at most one moves the rounded coordinate by at most one. -/
theorem rounded_step {start stop : ℤ} {steps : ℕ} (shallow : |stop - start| ≤ steps) (step : ℕ) :
    |rounded start stop steps (step + 1) - rounded start stop steps step| ≤ 1 := by
  have slope : |((stop - start) / steps : ℚ)| ≤ 1 := by
    rw [abs_div, Nat.abs_cast]
    refine div_le_one_of_le₀ ?_ (Nat.cast_nonneg steps)
    exact_mod_cast shallow
  obtain ⟨falls, rises⟩ := abs_le.mp slope
  have above : rounded start stop steps (step + 1) ≤ rounded start stop steps step + 1 := by
    rw [rounded, rounded, ← Int.floor_add_one]
    apply Int.floor_le_floor
    push_cast
    linarith
  have below : rounded start stop steps step - 1 ≤ rounded start stop steps (step + 1) := by
    rw [rounded, rounded, ← Int.floor_sub_one]
    apply Int.floor_le_floor
    push_cast
    linarith
  rw [abs_le]
  omega

/-- The exact coordinate stays between the two integers. -/
theorem coordinate_between (start stop : ℤ) {steps step : ℕ} (within : step ≤ steps) :
    min (start : ℚ) stop ≤ start + step * ((stop - start) / steps) ∧
      (start : ℚ) + step * ((stop - start) / steps) ≤ max (start : ℚ) stop := by
  have share : (step : ℚ) * ((stop - start) / steps) = step / steps * (stop - start) := by ring
  have nonneg : (0 : ℚ) ≤ step / steps := div_nonneg (Nat.cast_nonneg _) (Nat.cast_nonneg _)
  have atMost : (step : ℚ) / steps ≤ 1 :=
    div_le_one_of_le₀ (Nat.cast_le.mpr within) (Nat.cast_nonneg _)
  rw [share]
  rcases le_total (start : ℚ) stop with rises | falls
  · rw [min_eq_left rises, max_eq_right rises]
    constructor
    · nlinarith
    · nlinarith
  · rw [min_eq_right falls, max_eq_left falls]
    constructor
    · nlinarith
    · nlinarith

/-- So does the rounded one. -/
theorem rounded_between (start stop : ℤ) {steps step : ℕ} (within : step ≤ steps) :
    min start stop ≤ rounded start stop steps step ∧
      rounded start stop steps step ≤ max start stop := by
  obtain ⟨lower, upper⟩ := coordinate_between start stop within
  constructor
  · rw [rounded, Int.le_floor]
    push_cast
    linarith
  · rw [rounded, ← Int.lt_add_one_iff, Int.floor_lt]
    push_cast
    linarith

/-! ## Lines -/

/-- A line column by column, to either side, its row rounded. -/
theorem joins_columns {x y last direction : ℤ} {steps : ℕ}
    (unit : direction = 1 ∨ direction = -1) (positive : 0 < steps)
    (shallow : |last - y| ≤ steps) :
    Joins (x, y) (x + direction * steps, last)
      {point | ∃ step ≤ steps, point = (x + direction * step, rounded y last steps step)} := by
  let point : ℕ → ℤ × ℤ := fun step => (x + direction * step, rounded y last steps step)
  have starts : point 0 = (x, y) := by simp [point, rounded_zero]
  have ends : point steps = (x + direction * steps, last) := by simp [point, rounded_last, positive]
  rw [← starts, ← ends]
  apply joins_of_steps
  · intro first _ second _ same
    have columns : x + direction * first = x + direction * second := congrArg Prod.fst same
    rcases unit with rfl | rfl
    · omega
    · omega
  · intro step _
    refine ⟨?_, rounded_step shallow step⟩
    rw [abs_le]
    simp only [point]
    rcases unit with rfl | rfl
    · omega
    · omega
  · intro step within
    obtain ⟨upper, lower⟩ := rounded_between y last within
    rw [starts, ends]
    simp only [box, point, Set.mem_ofPred_eq]
    rcases unit with rfl | rfl
    · exact ⟨by omega, by omega, upper, lower⟩
    · exact ⟨by omega, by omega, upper, lower⟩
  · have width : |direction * (steps : ℤ)| = steps := by
      rcases unit with rfl | rfl
      · rw [one_mul, Nat.abs_cast]
      · rw [neg_one_mul, abs_neg, Nat.abs_cast]
    rw [starts, ends, add_sub_cancel_left, width, max_eq_left shallow]

/-- A line row by row, downwards, its column rounded. -/
theorem joins_rows {x y last : ℤ} {steps : ℕ} (positive : 0 < steps)
    (steep : |last - x| ≤ steps) :
    Joins (x, y) (last, y + steps)
      {point | ∃ step ≤ steps, point = (rounded x last steps step, y + step)} := by
  have mirrored := (@joins_columns y x last 1 steps (.inl rfl) positive steep).mirror
  simp only [one_mul] at mirrored
  convert! mirrored using 1
  ext point
  simp only [Set.mem_ofPred_eq, Prod.ext_iff, Prod.fst_swap, Prod.snd_swap, and_comm]

end DDSFunctionGen.Pictures

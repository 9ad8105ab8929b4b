import DDSFunctionGen.Semantics.CountedLoop
import Mathlib.Order.BooleanAlgebra.Set

/-!
# Painting regions

A state holds a picture, a set of points. An operation paints a region in a
colouring if it takes the points of the region from the colouring and leaves
all others. Operations one after another, and in a loop, paint what each of
them paints.
-/

namespace DDSFunctionGen.Pictures

open DDSFunctionGen.Semantics

variable {State Point : Type}

/-- The picture a state holds, where the state is sound. -/
structure View (State Point : Type) where
  Sound : State → Prop
  picture : State → Set Point

/-- A sound operation that paints a region. -/
def View.Paints (view : View State Point) (operation : State → State)
    (region colouring : Set Point) : Prop :=
  ∀ state, view.Sound state → view.Sound (operation state) ∧
    view.picture (operation state) = region.ite colouring (view.picture state)

/-- A point of the region is coloured, any other point is kept. -/
theorem mem_ite (region colouring picture : Set Point) (point : Point) :
    point ∈ region.ite colouring picture ↔
      point ∈ region ∧ point ∈ colouring ∨ point ∉ region ∧ point ∈ picture := by
  simp only [Set.ite, Set.mem_union, Set.mem_inter_iff, Set.mem_sdiff]
  tauto

/-- A region painted after another one from the same colouring. -/
theorem ite_ite (region others colouring picture : Set Point) :
    others.ite colouring (region.ite colouring picture) =
      (others ∪ region).ite colouring picture := by
  ext point
  simp only [mem_ite, Set.mem_union]
  tauto

/-- The lines from `start` up to `stop`. -/
def swept (line : Int → Set Point) (start stop : Int) : Set Point :=
  {point | ∃ index, start ≤ index ∧ index < stop ∧ point ∈ line index}

theorem swept_empty (line : Int → Set Point) {start stop : Int} (crossed : stop ≤ start) :
    swept line start stop = ∅ := by
  ext point
  simp only [swept, Set.mem_ofPred_eq, Set.mem_empty_iff_false, iff_false]
  rintro ⟨index, above, below, -⟩
  omega

theorem swept_succ (line : Int → Set Point) {start index : Int} (above : start ≤ index) :
    swept line start (index + 1) = line index ∪ swept line start index := by
  ext point
  constructor
  · rintro ⟨i, fromStart, upTo, inLine⟩
    rcases Int.lt_or_eq_of_le (Int.lt_add_one_iff.mp upTo) with earlier | rfl
    · exact .inr ⟨i, fromStart, earlier, inLine⟩
    · exact .inl inLine
  · rintro (inLine | ⟨i, fromStart, upTo, inLine⟩)
    · exact ⟨index, above, by omega, inLine⟩
    · exact ⟨i, fromStart, by omega, inLine⟩

/-- The cells of a grid in reading order. -/
theorem swept_grid (line : Int → Set Point) (rows width : Nat) :
    swept (fun row => swept (fun column => line (row * width + column)) 0 width) 0 rows =
      swept line 0 (rows * width) := by
  ext point
  constructor
  · rintro ⟨row, fromFirst, beforeLast, column, fromLeft, beforeRight, inLine⟩
    have rowStart : 0 ≤ row * width := Int.mul_nonneg fromFirst (Int.natCast_nonneg width)
    have rowEnd : (row + 1) * width ≤ rows * width :=
      Int.mul_le_mul_of_nonneg_right beforeLast (Int.natCast_nonneg width)
    rw [Int.add_mul, Int.one_mul] at rowEnd
    exact ⟨row * width + column, by omega, by omega, inLine⟩
  · rintro ⟨index, fromFirst, beforeLast, inLine⟩
    have wide : (0 : Int) < width := by
      by_contra empty
      have zero : (width : Int) = 0 := by omega
      rw [zero, Int.mul_zero] at beforeLast
      omega
    have place : index / width * width + index % width = index := Int.ediv_mul_add_emod index width
    refine ⟨index / width, Int.ediv_nonneg fromFirst (Int.le_of_lt wide),
      Int.ediv_lt_of_lt_mul wide beforeLast, index % width, Int.emod_nonneg _ (by omega),
      Int.emod_lt_of_pos _ wide, ?_⟩
    simpa only [place] using inLine

namespace View.Paints

variable {view : View State Point} {first second : State → State}
  {region others colouring : Set Point}

/-- What an operation does outside the region of a colouring is no part of it. -/
theorem recolour {other : Set Point} (paints : view.Paints first region colouring)
    (agree : ∀ point ∈ region, point ∈ colouring ↔ point ∈ other) :
    view.Paints first region other := by
  intro state sound
  obtain ⟨soundAfter, picture⟩ := paints state sound
  refine ⟨soundAfter, picture.trans ?_⟩
  ext point
  have same := agree point
  simp only [mem_ite]
  tauto

/-- The same region, described otherwise. -/
theorem reshape (paints : view.Paints first region colouring)
    (same : ∀ point, point ∈ region ↔ point ∈ others) : view.Paints first others colouring := by
  rwa [← Set.ext same]

theorem nothing : view.Paints id ∅ colouring := by
  intro state sound
  exact ⟨sound, (Set.ite_empty colouring _).symm⟩

/-- One operation after another of the same colouring. -/
theorem andThen (before : view.Paints first region colouring)
    (after : view.Paints second others colouring) :
    view.Paints (fun state => second (first state)) (others ∪ region) colouring := by
  intro state sound
  obtain ⟨soundBetween, between⟩ := before state sound
  obtain ⟨soundAfter, painted⟩ := after (first state) soundBetween
  refine ⟨soundAfter, ?_⟩
  rw [painted, between, ite_ite]

/-- A loop paints what its passes paint. -/
theorem loop {body : Int → State → State} {line : Int → Set Point} {start stop : Int}
    (passes : ∀ index, start ≤ index → index < stop →
      view.Paints (body index) (line index) colouring) :
    view.Paints (countedLoop body start stop) (swept line start stop) colouring := by
  intro state sound
  by_cases ordered : start ≤ stop
  · let Painted : Int → State → Prop := fun index after => view.Sound after ∧
      view.picture after = (swept line start index).ite colouring (view.picture state)
    refine countedLoop_invariant Painted ordered ⟨sound, ?_⟩ ?_
    · rw [swept_empty line (Int.le_refl start), Set.ite_empty]
    · rintro index after above below ⟨soundBefore, pictureBefore⟩
      obtain ⟨soundAfter, pictureAfter⟩ := passes index above below after soundBefore
      refine ⟨soundAfter, ?_⟩
      rw [pictureAfter, pictureBefore, ite_ite, swept_succ line above]
  · have crossed : stop ≤ start := by omega
    rw [countedLoop_empty crossed, swept_empty line crossed, Set.ite_empty]
    exact ⟨sound, rfl⟩

end View.Paints
end DDSFunctionGen.Pictures

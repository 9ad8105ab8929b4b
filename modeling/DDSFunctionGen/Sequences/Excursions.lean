import DDSFunctionGen.Semantics.Execution
import Mathlib.Algebra.BigOperators.Group.List.Basic
import Mathlib.Tactic.Linarith
import Mathlib.Tactic.Ring

/-!
# Walks around a circle

A walk steps forwards and backwards around a circle of `length` places, one of
which is marked. Between two visits of the mark it makes an excursion, which goes
around the circle or comes back the way it left.
-/

namespace DDSFunctionGen.Sequences

open Semantics

/-- A step around the circle. -/
inductive Direction where
  | forward
  | backward
deriving DecidableEq, Repr

/-- Forward counts up. -/
def Direction.sign : Direction → ℤ
  | .forward => 1
  | .backward => -1

def Direction.opposite : Direction → Direction
  | .forward => .backward
  | .backward => .forward

theorem Direction.sign_cases (direction : Direction) : direction.sign = 1 ∨ direction.sign = -1 := by
  cases direction with
  | forward => exact .inl rfl
  | backward => exact .inr rfl

@[simp] theorem Direction.sign_opposite (direction : Direction) :
    direction.opposite.sign = -direction.sign := by
  cases direction with
  | forward => rfl
  | backward => rfl

@[simp] theorem Direction.sign_sign (direction : Direction) : direction.sign.sign = direction.sign := by
  cases direction with
  | forward => rfl
  | backward => rfl

/-- What a walk does between two visits of the mark: how it leaves the mark, and
whether it goes around. -/
structure Excursion where
  left : Direction
  around : Bool
deriving DecidableEq, Repr

namespace Excursion

/-- The turns that an excursion makes. -/
def turns (excursion : Excursion) : ℤ := if excursion.around then excursion.left.sign else 0

/-- The returns of an excursion, counted by how it left. -/
def returns (excursion : Excursion) : ℤ := if excursion.around then 0 else excursion.left.sign

end Excursion

variable (length : ℕ)

/-- How far the walk is from the visit of the mark that it left last. -/
def nextOffset (offset : ℤ) (direction : Direction) : ℤ :=
  if (offset + direction.sign).natAbs = length then 0 else offset + direction.sign

/-- The excursion that a step completes. -/
def completed (offset : ℤ) (direction : Direction) : Option Excursion :=
  if (offset + direction.sign).natAbs = length then some ⟨direction, true⟩
  else if offset + direction.sign = 0 then some ⟨direction.opposite, false⟩
  else none

/-- The excursions that a walk completes. -/
def excursions (offset : ℤ) : List Direction → List Excursion
  | [] => []
  | direction :: rest =>
      (completed length offset direction).toList ++
        excursions (nextOffset length offset direction) rest

/-- The steps forwards, less the steps backwards. -/
def displacement (steps : List Direction) : ℤ := (steps.map Direction.sign).sum

/-- The steps that leave the mark forwards, less those that leave it backwards. -/
def departures (offset : ℤ) : List Direction → ℤ
  | [] => 0
  | direction :: rest =>
      (if offset = 0 then direction.sign else 0) +
        departures (nextOffset length offset direction) rest

/-- The turns forwards, less the turns backwards. -/
def totalTurns (excursions : List Excursion) : ℤ := (excursions.map Excursion.turns).sum

/-- The excursions that left forwards and came back, less those that left backwards. -/
def totalReturns (excursions : List Excursion) : ℤ := (excursions.map Excursion.returns).sum

@[simp] theorem totalTurns_append (first second : List Excursion) :
    totalTurns (first ++ second) = totalTurns first + totalTurns second := by
  simp [totalTurns]

@[simp] theorem totalReturns_append (first second : List Excursion) :
    totalReturns (first ++ second) = totalReturns first + totalReturns second := by
  simp [totalReturns]

/-- The returns, counted by the way the walk left. -/
theorem totalReturns_eq_count (excursions : List Excursion) :
    totalReturns excursions =
      excursions.count ⟨.forward, false⟩ - excursions.count ⟨.backward, false⟩ := by
  induction excursions with
  | nil => rfl
  | cons excursion rest inductionHypothesis =>
      have first : totalReturns (excursion :: rest) = excursion.returns + totalReturns rest := by
        simp [totalReturns]
      rw [first, inductionHypothesis, List.count_cons, List.count_cons]
      rcases excursion with ⟨left, around⟩
      cases around <;> cases left <;> simp [Excursion.returns, Direction.sign] <;> ring

variable {length : ℕ} {offset : ℤ}

/-- A step stays within a turn of the mark. -/
theorem nextOffset_within (within : offset.natAbs < length) (direction : Direction) :
    (nextOffset length offset direction).natAbs < length := by
  have unit := direction.sign_cases
  rw [nextOffset]
  split_ifs with turned
  · omega
  · omega

/-- A walk stays within a turn of the mark that it left last. -/
theorem run_within (within : offset.natAbs < length) (steps : List Direction) :
    (run (nextOffset length) offset steps).natAbs < length := by
  induction steps generalizing offset with
  | nil => exact within
  | cons direction rest inductionHypothesis =>
      exact inductionHypothesis (nextOffset_within within direction)

/-- A walk turns in the direction of the step that completes the circle. -/
theorem turned_eq (within : offset.natAbs < length) {direction : Direction}
    (turned : (offset + direction.sign).natAbs = length) :
    offset + direction.sign = length * direction.sign := by
  rcases direction.sign_cases with unit | unit
  · rw [unit] at turned ⊢
    omega
  · rw [unit] at turned ⊢
    omega

/-- A step moves the offset, apart from the turn that it completes. -/
theorem turn_step (within : offset.natAbs < length) (direction : Direction) :
    offset + direction.sign = length * totalTurns (completed length offset direction).toList +
      nextOffset length offset direction := by
  unfold completed nextOffset
  split
  · rename_i turned
    rw [turned_eq within turned]
    simp [totalTurns, Excursion.turns]
  · split
    · simp [totalTurns, Excursion.turns]
    · simp [totalTurns]

/-- Off the mark, the sign of the offset is the way the walk left. -/
theorem sign_step (direction : Direction) (away : offset + direction.sign ≠ 0) :
    offset.sign + (if offset = 0 then direction.sign else 0) = (offset + direction.sign).sign := by
  have unit := direction.sign_cases
  rcases lt_trichotomy offset 0 with below | rfl | above
  · rw [Int.sign_eq_neg_one_of_neg below, Int.sign_eq_neg_one_of_neg (by omega), if_neg below.ne,
      add_zero]
  · simp
  · rw [Int.sign_eq_one_of_pos above, Int.sign_eq_one_of_pos (by omega), if_neg above.ne', add_zero]

/-- A step that leaves the mark begins an excursion. -/
theorem departure_step (within : offset.natAbs < length) (direction : Direction) :
    offset.sign + (if offset = 0 then direction.sign else 0) =
      totalTurns (completed length offset direction).toList +
        totalReturns (completed length offset direction).toList +
          (nextOffset length offset direction).sign := by
  by_cases turned : (offset + direction.sign).natAbs = length
  · have left : (offset + direction.sign).sign = direction.sign := by
      rw [turned_eq within turned, Int.sign_mul, Int.sign_natCast_of_ne_zero (by omega), one_mul,
        Direction.sign_sign]
    rw [sign_step direction (by omega), left, completed, nextOffset, if_pos turned, if_pos turned]
    simp [totalTurns, totalReturns, Excursion.turns, Excursion.returns]
  · by_cases back : offset + direction.sign = 0
    · have left : offset = -direction.sign := by omega
      have away : -direction.sign ≠ 0 := by
        have unit := direction.sign_cases
        omega
      rw [completed, nextOffset, if_neg turned, if_neg turned, if_pos back, back, left, if_neg away]
      simp [totalTurns, totalReturns, Excursion.turns, Excursion.returns]
    · rw [sign_step direction back, completed, nextOffset, if_neg turned, if_neg turned,
        if_neg back]
      simp [totalTurns, totalReturns]

/-- A walk is displaced by its turns, up to where it started and ended. -/
theorem displacement_eq (within : offset.natAbs < length) (steps : List Direction) :
    offset + displacement steps = length * totalTurns (excursions length offset steps) +
      run (nextOffset length) offset steps := by
  induction steps generalizing offset with
  | nil => simp [displacement, totalTurns, excursions]
  | cons direction rest inductionHypothesis =>
      have first := turn_step within direction
      have later := inductionHypothesis (nextOffset_within within direction)
      have split : displacement (direction :: rest) = direction.sign + displacement rest := by
        simp [displacement]
      rw [run_cons, split, excursions, totalTurns_append, mul_add]
      linarith

/-- The departures from the mark are the excursions, up to those under way. -/
theorem departures_eq (within : offset.natAbs < length) (steps : List Direction) :
    offset.sign + departures length offset steps =
      totalTurns (excursions length offset steps) + totalReturns (excursions length offset steps) +
        (run (nextOffset length) offset steps).sign := by
  induction steps generalizing offset with
  | nil => simp [departures, totalTurns, totalReturns, excursions]
  | cons direction rest inductionHypothesis =>
      have first := departure_step within direction
      have later := inductionHypothesis (nextOffset_within within direction)
      rw [run_cons, departures, excursions, totalTurns_append, totalReturns_append]
      linarith

/-- A walk from the mark to the mark turns as often as its displacement says, and leaves
the mark once more for every excursion that comes back. -/
theorem closed_walk (positive : 0 < length) {steps : List Direction}
    (closed : run (nextOffset length) 0 steps = 0) :
    displacement steps = length * totalTurns (excursions length 0 steps) ∧
      departures length 0 steps =
        totalTurns (excursions length 0 steps) + totalReturns (excursions length 0 steps) := by
  have displaced := @displacement_eq length 0 positive steps
  have departed := @departures_eq length 0 positive steps
  rw [closed] at displaced departed
  simp only [Int.sign_zero, zero_add, add_zero] at displaced departed
  exact ⟨displaced, departed⟩

end DDSFunctionGen.Sequences

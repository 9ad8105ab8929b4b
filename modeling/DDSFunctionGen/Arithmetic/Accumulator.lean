import Mathlib.Algebra.BigOperators.Group.List.Basic
import Mathlib.Data.Int.ModEq

/-!
# Wrap-around accumulators and balanced increments

An accumulator of width `w` adds a word per step and wraps. After any list of
steps it has advanced by the sum of their integer readings, modulo `2 ^ w`. A
list that holds every value as often as its negation is balanced: an odd
function of its values sums to zero.
-/

namespace DDSFunctionGen.Arithmetic

/-- The accumulator after a list of steps. -/
def accumulate {w : Nat} (start : BitVec w) (steps : List (BitVec w)) : BitVec w :=
  steps.foldl (· + ·) start

@[simp] theorem accumulate_nil {w : Nat} (start : BitVec w) : accumulate start [] = start := rfl

@[simp] theorem accumulate_cons {w : Nat} (start step : BitVec w) (steps : List (BitVec w)) :
    accumulate start (step :: steps) = accumulate (start + step) steps := rfl

/-- A sum of words reads, modulo `2 ^ w`, as the sum of any readings congruent to
theirs. -/
theorem toNat_add_modEq {w : Nat} {left right : BitVec w} {leftValue rightValue : Int}
    (leftReads : (left.toNat : Int) ≡ leftValue [ZMOD 2 ^ w])
    (rightReads : (right.toNat : Int) ≡ rightValue [ZMOD 2 ^ w]) :
    ((left + right).toNat : Int) ≡ leftValue + rightValue [ZMOD 2 ^ w] := by
  have wrapped : ((left + right).toNat : Int) ≡ left.toNat + right.toNat [ZMOD 2 ^ w] := by
    rw [BitVec.toNat_add]
    push_cast
    exact Int.mod_modEq _ _
  exact wrapped.trans (leftReads.add rightReads)

/-- The signed and the unsigned reading of a word are congruent. -/
theorem toNat_modEq_toInt {w : Nat} (word : BitVec w) :
    (word.toNat : Int) ≡ word.toInt [ZMOD 2 ^ w] := by
  have wrapped := @Int.bmod_emod word.toNat (2 ^ w)
  rw [Int.ModEq, BitVec.toInt_eq_toNat_bmod]
  push_cast at wrapped
  exact wrapped.symm

/-- The run of an accumulator whose steps are congruent to the values a function
gives them. -/
theorem accumulate_modEq {w : Nat} {Step : Type} (step : Step → BitVec w) (value : Step → Int)
    (reads : ∀ item, ((step item).toNat : Int) ≡ value item [ZMOD 2 ^ w])
    (items : List Step) (start : BitVec w) :
    ((accumulate start (items.map step)).toNat : Int) ≡
      start.toNat + (items.map value).sum [ZMOD 2 ^ w] := by
  induction items generalizing start with
  | nil => simp [Int.ModEq.refl]
  | cons item items inductionHypothesis =>
      have first := toNat_add_modEq (Int.ModEq.refl (start.toNat : Int)) (reads item)
      refine (inductionHypothesis (start + step item)).trans ?_
      rw [List.map_cons, List.sum_cons, ← Int.add_assoc]
      exact first.add_right _

/-- A list that holds every value as often as its negation. -/
def Balanced (values : List Int) : Prop := (values.map (- ·)).Perm values

instance (values : List Int) : Decidable (Balanced values) :=
  inferInstanceAs (Decidable (List.Perm _ _))

/-- An odd function sums to zero over a balanced list. -/
theorem Balanced.sum_odd {values : List Int} (balanced : Balanced values) {f : Int → Int}
    (odd : ∀ value, f (-value) = -f value) : (values.map f).sum = 0 := by
  have negated : ∀ list : List Int, (list.map fun value => -f value).sum = -(list.map f).sum := by
    intro list
    induction list with
    | nil => rfl
    | cons value list inductionHypothesis =>
        simp only [List.map_cons, List.sum_cons, inductionHypothesis]
        omega
  have permuted : ((values.map (- ·)).map f).sum = (values.map f).sum :=
    (balanced.map f).sum_eq
  rw [List.map_map] at permuted
  have flipped : (values.map (f ∘ (- ·))) = values.map fun value => -f value :=
    List.map_congr_left fun value _ => odd value
  rw [flipped, negated] at permuted
  omega

end DDSFunctionGen.Arithmetic

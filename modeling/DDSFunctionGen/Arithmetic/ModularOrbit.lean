import Mathlib.Data.Int.ModEq
import Mathlib.Data.Nat.Count
import Mathlib.Order.Interval.Finset.Nat
import Mathlib.Tactic.Ring

/-!
# Orbits of modular addition

Adding a step again and again modulo `modulus` returns after `modulus / g`
additions, where `g` is the greatest common divisor of the two, and on the way
passes once through every value that is congruent to the start modulo `g`. How
often a condition holds within one period is therefore counted over those
values, whatever the order of the visits.
-/

namespace DDSFunctionGen.Arithmetic

/-- The value after `count` additions of `step`. -/
def orbit (modulus step start count : Nat) : Nat := (start + count * step) % modulus

variable {modulus step : Nat}

theorem orbit_add (start first count : Nat) :
    orbit modulus step start (first + count) =
      orbit modulus step (start + first * step) count := by
  rw [orbit, orbit, Nat.add_mul, Nat.add_assoc]

theorem orbit_succ (start count : Nat) :
    orbit modulus step start (count + 1) = (orbit modulus step start count + step) % modulus := by
  rw [orbit, orbit, Nat.mod_add_mod, Nat.succ_mul, Nat.add_assoc]

/-- Two counts reach the same value exactly when a whole number of periods lies
between them. -/
theorem orbit_eq_iff (positive : 0 < modulus) (start first second : Nat) :
    orbit modulus step start first = orbit modulus step start second ↔
      first ≡ second [MOD modulus / Nat.gcd modulus step] := by
  constructor
  · intro same
    have products : step * first ≡ step * second [MOD modulus] := by
      rw [Nat.mul_comm step, Nat.mul_comm step]
      exact Nat.ModEq.add_left_cancel' start same
    exact Nat.ModEq.cancel_left_div_gcd positive products
  · intro whole
    have scaled : first * step ≡ second * step [MOD modulus / Nat.gcd modulus step * step] :=
      whole.mul_right' step
    have multiple : modulus ∣ modulus / Nat.gcd modulus step * step := by
      rw [Nat.div_mul_right_comm (Nat.gcd_dvd_left modulus step)]
      exact Nat.dvd_div_of_mul_dvd (by
        rw [Nat.mul_comm]
        exact Nat.mul_dvd_mul_left modulus (Nat.gcd_dvd_right modulus step))
    exact Nat.ModEq.add_left start (scaled.of_dvd multiple)

/-- A step moves by a multiple of the common divisor. -/
theorem orbit_mod_gcd (start count : Nat) :
    orbit modulus step start count % Nat.gcd modulus step = start % Nat.gcd modulus step := by
  rw [orbit, Nat.mod_mod_of_dvd _ (Nat.gcd_dvd_left modulus step), Nat.add_mod,
    Nat.mod_eq_zero_of_dvd ((Nat.gcd_dvd_right modulus step).mul_left count), Nat.add_zero,
    Nat.mod_mod]

theorem orbit_eq_place (start count : Nat) :
    orbit modulus step start count =
      Nat.gcd modulus step * (orbit modulus step start count / Nat.gcd modulus step) +
        start % Nat.gcd modulus step := by
  rw [← orbit_mod_gcd start count]
  exact (Nat.div_add_mod _ _).symm

/-- Within one period no two counts share a place. -/
theorem place_injOn (positive : 0 < modulus) (start : Nat) :
    Set.InjOn (fun count => orbit modulus step start count / Nat.gcd modulus step)
      (Finset.range (modulus / Nat.gcd modulus step)) := by
  intro first below second below' same
  have values : orbit modulus step start first = orbit modulus step start second := by
    rw [orbit_eq_place, orbit_eq_place start second]
    exact congrArg (fun place => Nat.gcd modulus step * place + _) same
  exact ((orbit_eq_iff positive start first second).mp values).eq_of_lt_of_lt
    (Finset.mem_range.mp below) (Finset.mem_range.mp below')

/-- The counts of one period reach every place. -/
theorem image_place (positive : 0 < modulus) (start : Nat) :
    (Finset.range (modulus / Nat.gcd modulus step)).image
        (fun count => orbit modulus step start count / Nat.gcd modulus step) =
      Finset.range (modulus / Nat.gcd modulus step) := by
  refine Finset.eq_of_subset_of_card_le ?_ ?_
  · intro place reached
    obtain ⟨count, -, rfl⟩ := Finset.mem_image.mp reached
    rw [Finset.mem_range]
    exact Nat.div_lt_div_of_lt_of_dvd (Nat.gcd_dvd_left modulus step) (Nat.mod_lt _ positive)
  · rw [Finset.card_image_of_injOn (place_injOn positive start)]

/-- A condition holds within one period as often as it holds among the values
of the orbit. -/
theorem count_orbit (positive : 0 < modulus) (start : Nat) (condition : Nat → Prop)
    [DecidablePred condition] :
    Nat.count (fun count => condition (orbit modulus step start count))
        (modulus / Nat.gcd modulus step) =
      Nat.count
        (fun place => condition (Nat.gcd modulus step * place + start % Nat.gcd modulus step))
        (modulus / Nat.gcd modulus step) := by
  rw [Nat.count_eq_card_filter_range, Nat.count_eq_card_filter_range]
  conv_rhs => rw [← image_place positive start, Finset.filter_image]
  rw [Finset.card_image_of_injOn]
  · congr 1
    refine Finset.filter_congr fun count _ => ?_
    rw [← orbit_eq_place start count]
  · exact (place_injOn positive start).mono (Finset.filter_subset _ _)

/-- Within one period the orbit takes each of its values once. -/
theorem count_orbit_eq (positive : 0 < modulus) {start value : Nat} (below : value < modulus)
    (congruent : value % Nat.gcd modulus step = start % Nat.gcd modulus step) :
    Nat.count (fun count => orbit modulus step start count = value)
      (modulus / Nat.gcd modulus step) = 1 := by
  have divisor : 0 < Nat.gcd modulus step := Nat.gcd_pos_of_pos_left step positive
  have inside : value / Nat.gcd modulus step < modulus / Nat.gcd modulus step :=
    Nat.div_lt_div_of_lt_of_dvd (Nat.gcd_dvd_left modulus step) below
  rw [count_orbit positive start (· = value),
    Nat.count_eq_card_filter_range, Finset.card_eq_one]
  refine ⟨value / Nat.gcd modulus step, ?_⟩
  ext place
  rw [Finset.mem_filter, Finset.mem_singleton, Finset.mem_range, ← congruent]
  constructor
  · rintro ⟨-, reached⟩
    rw [← reached, Nat.mul_add_div divisor,
      Nat.div_eq_of_lt (Nat.mod_lt value divisor), Nat.add_zero]
  · rintro rfl
    exact ⟨inside, Nat.div_add_mod value _⟩

/-- An interval of numbers, counted. -/
theorem count_interval {first last total : Nat} (within : last ≤ total) :
    Nat.count (fun number => first ≤ number ∧ number < last) total = last - first := by
  rw [Nat.count_eq_card_filter_range, ← Nat.card_Ico]
  congr 1
  ext number
  rw [Finset.mem_filter, Finset.mem_range, Finset.mem_Ico]
  constructor
  · rintro ⟨-, between⟩
    exact between
  · intro between
    exact ⟨by omega, between⟩

/-- The values are split into blocks of equal size, and every block is met once
for each value of the orbit it holds. -/
theorem count_orbit_block {blocks size : Nat} (positive : 0 < size)
    (divides : Nat.gcd (blocks * size) step ∣ size) (start : Nat) {block : Nat}
    (below : block < blocks) :
    Nat.count (fun count => orbit (blocks * size) step start count / size = block)
        (blocks * size / Nat.gcd (blocks * size) step) =
      size / Nat.gcd (blocks * size) step := by
  have modulusPositive : 0 < blocks * size := Nat.mul_pos (by omega) positive
  have divisor : 0 < Nat.gcd (blocks * size) step :=
    Nat.gcd_pos_of_pos_left step modulusPositive
  rw [count_orbit modulusPositive start (· / size = block)]
  generalize Nat.gcd (blocks * size) step = common at divides divisor ⊢
  obtain ⟨places, rfl⟩ := divides
  have placesPositive : 0 < places := Nat.pos_of_mul_pos_left positive
  rw [Nat.mul_div_cancel_left places divisor, Nat.mul_left_comm,
    Nat.mul_div_cancel_left _ divisor]
  -- the offset inside a place does not move it to another block
  have placed : ∀ place, (common * place + start % common) / (common * places) = block ↔
      block * places ≤ place ∧ place < (block + 1) * places := by
    intro place
    rw [← Nat.div_div_eq_div_mul, Nat.mul_add_div divisor,
      Nat.div_eq_of_lt (Nat.mod_lt start divisor), Nat.add_zero,
      Nat.div_eq_iff placesPositive, Nat.mul_comm]
    have successor : (block + 1) * places = places * block + places := by ring
    omega
  simp only [placed]
  rw [count_interval (Nat.mul_le_mul_right places below), Nat.succ_mul,
    Nat.add_sub_cancel_left]

end DDSFunctionGen.Arithmetic

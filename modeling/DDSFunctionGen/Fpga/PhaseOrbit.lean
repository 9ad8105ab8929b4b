import DDSFunctionGen.Arithmetic.ModularOrbit
import DDSFunctionGen.Fpga.WaveGenerator
import DDSFunctionGen.Semantics.Execution
import Mathlib.Algebra.Ring.Periodic
import Mathlib.Data.Nat.Prime.Basic

/-!
# The orbit of the phase accumulator

With a constant step the accumulator runs through the multiples of the greatest
common divisor of the step and `2 ^ width`. The RAM address is the block of
phases that share their top bits, so every address is read equally often as
long as the divisor fits into one block.
-/

namespace DDSFunctionGen.Fpga

open DDSFunctionGen.Arithmetic DDSFunctionGen.Semantics

namespace PhaseToAmplitude

variable {width addressWidth : Nat}

theorem toNat_ramAddress (fits : addressWidth ≤ width) (phase : BitVec width) :
    (ramAddress addressWidth phase).toNat = phase.toNat / 2 ^ (width - addressWidth) := by
  have split : 2 ^ width = 2 ^ addressWidth * 2 ^ (width - addressWidth) := by
    rw [← Nat.pow_add, Nat.add_sub_cancel' fits]
  rw [ramAddress, BitVec.extractLsb'_toNat, Nat.shiftRight_eq_div_pow, Nat.mod_eq_of_lt]
  rw [Nat.div_lt_iff_lt_mul (Nat.two_pow_pos _), ← split]
  exact phase.isLt

/-- The interrupt line is an address of one bit. -/
theorem ramIsr_iff (positive : 0 < width) (phase : BitVec width) :
    ramIsr phase = true ↔ phase.toNat / 2 ^ (width - 1) = 1 := by
  rw [ramIsr_eq_msb_ramAddress phase Nat.one_pos positive, ← toNat_ramAddress positive]
  generalize ramAddress 1 phase = address
  revert address
  decide

end PhaseToAmplitude

namespace WaveGenerator

variable {width : Nat}

/-- The generator a number of clocks after a reset, step and offset held. -/
def afterReset (generator : WaveGenerator width) (atReset : Inputs width)
    (phaseStep phaseOffset : BitVec width) : Nat → WaveGenerator width :=
  stateAt clock (generator.clock { atReset with reset := true })
    fun _ => { reset := false, phaseStep, phaseOffset }

variable (generator : WaveGenerator width) (atReset : Inputs width)
  (phaseStep phaseOffset : BitVec width)

theorem phaseRegister_eq_orbit (count : Nat) :
    (generator.afterReset atReset phaseStep phaseOffset count).phaseRegister.toNat =
      orbit (2 ^ width) phaseStep.toNat 0 count := by
  induction count with
  | zero =>
      rw [orbit, Nat.zero_mul]
      simp [afterReset, stateAt, clock, PhaseReg.clock]
  | succ count inductionHypothesis =>
      rw [orbit_succ, ← inductionHypothesis]
      exact BitVec.toNat_add _ _

/-- The offset register follows one clock behind the accumulator. -/
theorem currentPhaseOfsetted_eq_orbit (count : Nat) :
    (generator.afterReset atReset phaseStep phaseOffset
        (count + 1)).currentPhaseOfsetted.toNat =
      orbit (2 ^ width) phaseStep.toNat phaseOffset.toNat count := by
  have follows : (generator.afterReset atReset phaseStep phaseOffset
      (count + 1)).currentPhaseOfsetted =
        (generator.afterReset atReset phaseStep phaseOffset count).phaseRegister + phaseOffset :=
    rfl
  rw [follows, BitVec.toNat_add, phaseRegister_eq_orbit, orbit, orbit, Nat.zero_add,
    Nat.mod_add_mod, Nat.add_comm]

/-- The accumulator repeats after exactly the multiples of its period. -/
theorem phaseRegister_periodic_iff (period : Nat) :
    Function.Periodic
        (fun count => (generator.afterReset atReset phaseStep phaseOffset count).phaseRegister)
        period ↔
      2 ^ width / Nat.gcd phaseStep.toNat (2 ^ width) ∣ period := by
  have returns : ∀ count, (generator.afterReset atReset phaseStep phaseOffset
      (count + period)).phaseRegister =
        (generator.afterReset atReset phaseStep phaseOffset count).phaseRegister ↔
      2 ^ width / Nat.gcd phaseStep.toNat (2 ^ width) ∣ period := by
    intro count
    rw [← BitVec.toNat_inj, phaseRegister_eq_orbit, phaseRegister_eq_orbit,
      orbit_eq_iff (Nat.two_pow_pos width), Nat.gcd_comm, Nat.ModEq.comm,
      Nat.modEq_iff_dvd' (Nat.le_add_right count period), Nat.add_sub_cancel_left]
  constructor
  · intro periodic
    exact (returns 0).mp (periodic 0)
  · intro divides count
    exact (returns count).mpr divides

/-- In every window of one period the accumulator takes each multiple of the
common divisor once. -/
theorem phaseRegister_visits (first : Nat) {phase : BitVec width}
    (multiple : Nat.gcd phaseStep.toNat (2 ^ width) ∣ phase.toNat) :
    Nat.count
        (fun count => (generator.afterReset atReset phaseStep phaseOffset
          (first + count)).phaseRegister = phase)
        (2 ^ width / Nat.gcd phaseStep.toNat (2 ^ width)) = 1 := by
  have congruent : phase.toNat % Nat.gcd (2 ^ width) phaseStep.toNat =
      (0 + first * phaseStep.toNat) % Nat.gcd (2 ^ width) phaseStep.toNat := by
    rw [Nat.zero_add, Nat.mod_eq_zero_of_dvd ((Nat.gcd_dvd_right _ _).mul_left first),
      Nat.gcd_comm, Nat.mod_eq_zero_of_dvd multiple]
  simp only [← BitVec.toNat_inj, phaseRegister_eq_orbit, orbit_add]
  rw [Nat.gcd_comm]
  exact count_orbit_eq (Nat.two_pow_pos width) phase.isLt congruent

/-- The common divisor is a power of two, so it divides every block it fits. -/
theorem gcd_dvd_block {exponent : Nat}
    (fits : Nat.gcd phaseStep.toNat (2 ^ width) ≤ 2 ^ exponent) :
    Nat.gcd phaseStep.toNat (2 ^ width) ∣ 2 ^ exponent := by
  obtain ⟨power, -, equal⟩ := (Nat.dvd_prime_pow Nat.prime_two).mp
    (Nat.gcd_dvd_right phaseStep.toNat (2 ^ width))
  rw [equal] at fits ⊢
  exact Nat.pow_dvd_pow 2 ((Nat.pow_le_pow_iff_right (by omega)).mp fits)

/-- In every window of one period the offset phase meets every block of top bits
equally often. -/
theorem currentPhaseOfsetted_blocks {blockBits : Nat} (within : blockBits ≤ width)
    (fits : Nat.gcd phaseStep.toNat (2 ^ width) ≤ 2 ^ (width - blockBits)) (first : Nat)
    {block : Nat} (below : block < 2 ^ blockBits) :
    Nat.count
        (fun count => (generator.afterReset atReset phaseStep phaseOffset
          (first + 1 + count)).currentPhaseOfsetted.toNat / 2 ^ (width - blockBits) = block)
        (2 ^ width / Nat.gcd phaseStep.toNat (2 ^ width)) =
      2 ^ (width - blockBits) / Nat.gcd phaseStep.toNat (2 ^ width) := by
  have split : 2 ^ blockBits * 2 ^ (width - blockBits) = 2 ^ width := by
    rw [← Nat.pow_add, Nat.add_sub_cancel' within]
  have divides := gcd_dvd_block phaseStep fits
  simp only [Nat.add_right_comm first 1, currentPhaseOfsetted_eq_orbit, orbit_add]
  rw [Nat.gcd_comm] at divides ⊢
  rw [← split] at divides ⊢
  exact count_orbit_block (Nat.two_pow_pos _) divides _ below

/-- The least period of the accumulator. -/
theorem phaseRegister_least_period :
    IsLeast
      {period | 0 < period ∧ Function.Periodic
        (fun count => (generator.afterReset atReset phaseStep phaseOffset count).phaseRegister)
        period}
      (2 ^ width / Nat.gcd phaseStep.toNat (2 ^ width)) := by
  have divisor : 0 < Nat.gcd phaseStep.toNat (2 ^ width) :=
    Nat.gcd_pos_of_pos_right _ (Nat.two_pow_pos width)
  have common : Nat.gcd phaseStep.toNat (2 ^ width) ≤ 2 ^ width :=
    Nat.le_of_dvd (Nat.two_pow_pos width) (Nat.gcd_dvd_right _ _)
  refine ⟨⟨Nat.div_pos common divisor, ?_⟩, ?_⟩
  · exact (phaseRegister_periodic_iff generator atReset phaseStep phaseOffset _).mpr (dvd_refl _)
  · rintro period ⟨periodPositive, periodic⟩
    apply Nat.le_of_dvd periodPositive
    exact (phaseRegister_periodic_iff generator atReset phaseStep phaseOffset _).mp periodic

/-- In every window of one period the interrupt line is high for half of the clocks. -/
theorem ramIsr_half (positive : 0 < width)
    (fits : Nat.gcd phaseStep.toNat (2 ^ width) ≤ 2 ^ (width - 1)) (first : Nat) :
    2 * Nat.count
        (fun count => (generator.afterReset atReset phaseStep phaseOffset
          (first + 1 + count)).ramIsr = true)
        (2 ^ width / Nat.gcd phaseStep.toNat (2 ^ width)) =
      2 ^ width / Nat.gcd phaseStep.toNat (2 ^ width) := by
  have halves : 2 ^ width = 2 * 2 ^ (width - 1) := by
    rw [← Nat.pow_succ', Nat.succ_eq_add_one, Nat.sub_add_cancel positive]
  have half := gcd_dvd_block phaseStep fits
  simp only [ramIsr, PhaseToAmplitude.ramIsr_iff positive]
  rw [currentPhaseOfsetted_blocks generator atReset phaseStep phaseOffset positive fits first
    (by omega), ← Nat.mul_div_assoc 2 half, ← halves]

/-- The accumulator has least period `2 ^ width / g` and takes every multiple of
`g` once in it; where `g` fits into the phases of one address, every address is
read equally often and the interrupt line is high for half of the clocks. -/
theorem visits_orbit_uniformly {addressWidth : Nat} (positive : 1 ≤ addressWidth)
    (within : addressWidth ≤ width) :
    IsLeast
        {period | 0 < period ∧ Function.Periodic
          (fun count => (generator.afterReset atReset phaseStep phaseOffset count).phaseRegister)
          period}
        (2 ^ width / Nat.gcd phaseStep.toNat (2 ^ width)) ∧
      (∀ (first : Nat) (phase : BitVec width),
        Nat.gcd phaseStep.toNat (2 ^ width) ∣ phase.toNat →
          Nat.count
              (fun count => (generator.afterReset atReset phaseStep phaseOffset
                (first + count)).phaseRegister = phase)
              (2 ^ width / Nat.gcd phaseStep.toNat (2 ^ width)) = 1) ∧
      (Nat.gcd phaseStep.toNat (2 ^ width) ≤ 2 ^ (width - addressWidth) →
        ∀ first : Nat,
          (∀ address : BitVec addressWidth,
            Nat.count
                (fun count => PhaseToAmplitude.ramAddress addressWidth
                  (generator.afterReset atReset phaseStep phaseOffset
                    (first + 1 + count)).currentPhaseOfsetted = address)
                (2 ^ width / Nat.gcd phaseStep.toNat (2 ^ width)) =
              2 ^ (width - addressWidth) / Nat.gcd phaseStep.toNat (2 ^ width)) ∧
          2 * Nat.count
              (fun count => (generator.afterReset atReset phaseStep phaseOffset
                (first + 1 + count)).ramIsr = true)
              (2 ^ width / Nat.gcd phaseStep.toNat (2 ^ width)) =
            2 ^ width / Nat.gcd phaseStep.toNat (2 ^ width)) := by
  refine ⟨phaseRegister_least_period generator atReset phaseStep phaseOffset, ?_,
    fun fits first => ⟨?_, ?_⟩⟩
  · intro first phase multiple
    exact phaseRegister_visits generator atReset phaseStep phaseOffset first multiple
  · intro address
    simp only [← BitVec.toNat_inj, PhaseToAmplitude.toNat_ramAddress within]
    exact currentPhaseOfsetted_blocks generator atReset phaseStep phaseOffset within fits first
      address.isLt
  · have narrower : 2 ^ (width - addressWidth) ≤ 2 ^ (width - 1) :=
      Nat.pow_le_pow_right (by omega) (by omega)
    exact ramIsr_half generator atReset phaseStep phaseOffset (by omega) (fits.trans narrower) first

/-- A step of six over four phase bits: eight clocks a period, two for each of
four addresses. -/
theorem visits_orbit_uniformly_step_six :
    Nat.count
        (fun count => (afterReset ({} : WaveGenerator 4) ⟨true, 0, 0⟩ 6 3
          (0 + count)).phaseRegister = 10) 8 = 1 ∧
      ∀ address : BitVec 2,
        Nat.count
          (fun count => PhaseToAmplitude.ramAddress 2
            (afterReset ({} : WaveGenerator 4) ⟨true, 0, 0⟩ 6 3
              (0 + 1 + count)).currentPhaseOfsetted = address) 8 = 2 := by
  obtain ⟨-, phases, addresses⟩ :=
    @visits_orbit_uniformly 4 {} ⟨true, 0, 0⟩ 6 3 2 (by decide) (by decide)
  exact ⟨phases 0 10 (by decide), (addresses (by decide) 0).1⟩

end WaveGenerator
end DDSFunctionGen.Fpga

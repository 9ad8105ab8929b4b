import DDSFunctionGen.Arithmetic.ModularOrbit
import DDSFunctionGen.Semantics.Execution

/-!
# The pulse-width modulator

`PWM` compares a counter that runs freely through all its values with the duty
word and registers the result. Whatever value the counter starts from, one turn
of it meets every value once, so the output is high for as many clocks as there
are values below the duty word.
-/

namespace DDSFunctionGen.Fpga

open DDSFunctionGen.Arithmetic DDSFunctionGen.Semantics

/-- The registers of `PWM`, cleared at power-up; `PWM` drives `o_PWM`. -/
structure Pwm (numBit : Nat) where
  pwmCounter : BitVec numBit := 0
  pwm : Bool := false
deriving DecidableEq, Repr

namespace Pwm

variable {numBit : Nat}

/-- One rising clock edge: the output register compares the old counter. -/
def clock (module : Pwm numBit) (dutyCycle : BitVec numBit) : Pwm numBit where
  pwmCounter := module.pwmCounter + 1
  pwm := if module.pwmCounter < dutyCycle then true else false

@[simp] theorem clock_pwmCounter (module : Pwm numBit) (dutyCycle : BitVec numBit) :
    (module.clock dutyCycle).pwmCounter = module.pwmCounter + 1 := rfl

/-- The counter runs through an orbit of step one, whatever the duty words. -/
theorem pwmCounter_eq_orbit (module : Pwm numBit) (dutyCycles : Nat → BitVec numBit)
    (count : Nat) :
    (stateAt clock module dutyCycles count).pwmCounter.toNat =
      orbit (2 ^ numBit) 1 module.pwmCounter.toNat count := by
  induction count with
  | zero =>
      rw [orbit, Nat.zero_mul, Nat.add_zero, Nat.mod_eq_of_lt module.pwmCounter.isLt]
      rfl
  | succ count inductionHypothesis =>
      rw [stateAt, clock_pwmCounter, BitVec.toNat_add, inductionHypothesis, orbit_succ]
      exact Nat.add_mod_mod _ 1 _

/-- One clock later the output tells whether the counter was below the duty word. -/
theorem pwm_after_clock (module : Pwm numBit) (dutyCycles : Nat → BitVec numBit)
    (count : Nat) :
    (stateAt clock module dutyCycles (count + 1)).pwm = true ↔
      orbit (2 ^ numBit) 1 module.pwmCounter.toNat count < (dutyCycles count).toNat := by
  rw [← pwmCounter_eq_orbit module dutyCycles count, ← BitVec.lt_def, stateAt, clock]
  simp

/-- From the clock after the duty word is applied, every window of one turn of
the counter is high in exactly that many clocks. -/
theorem high_for_dutyCycle (module : Pwm numBit) (dutyCycle : BitVec numBit) (first : Nat) :
    Nat.count
        (fun count => (stateAt clock module (fun _ => dutyCycle) (first + 1 + count)).pwm = true)
        (2 ^ numBit) =
      dutyCycle.toNat := by
  have meets := @count_orbit (2 ^ numBit) 1 (Nat.two_pow_pos numBit)
    (module.pwmCounter.toNat + first * 1) (· < dutyCycle.toNat) _
  have below := @count_interval 0 dutyCycle.toNat (2 ^ numBit) (Nat.le_of_lt dutyCycle.isLt)
  simp only [Nat.gcd_one_right, Nat.div_one, Nat.one_mul, Nat.mod_one, Nat.add_zero] at meets
  simp only [Nat.zero_le, true_and, Nat.sub_zero] at below
  simp only [Nat.add_right_comm first 1, pwm_after_clock, orbit_add]
  exact meets.trans below

end Pwm
end DDSFunctionGen.Fpga

import Mathlib.Algebra.Field.ZMod
import Mathlib.Algebra.Polynomial.Div
import Mathlib.Data.List.Induction
import Mathlib.RingTheory.AdjoinRoot
import Mathlib.Tactic.Ring

/-!
# Cyclic redundancy checks

A word stands for the polynomial over GF(2) whose coefficients are its bits. A
register one bit wider than the check divides by a generator with its top bit
set: a shift multiplies by `X`, and subtracting the generator clears the top bit
again. Equalities modulo the generator are equalities in the quotient ring.
-/

namespace DDSFunctionGen.Arithmetic

open Polynomial

/-! ## Words as polynomials -/

/-- A bit as a coefficient. -/
def bitValue (bit : Bool) : ZMod 2 := bit.toNat

@[simp] theorem bitValue_false : bitValue false = 0 := rfl

@[simp] theorem bitValue_true : bitValue true = 1 := rfl

theorem bitValue_xor (left right : Bool) :
    bitValue (left ^^ right) = bitValue left + bitValue right := by
  cases left <;> cases right <;> decide

/-- The polynomial of a word: bit `i` is the coefficient of `X ^ i`. -/
noncomputable def wordPolynomial {w : Nat} (word : BitVec w) : (ZMod 2)[X] :=
  ∑ i ∈ Finset.range w, C (bitValue (word.getLsbD i)) * X ^ i

section WordPolynomial

variable {w : Nat}

theorem coeff_wordPolynomial (word : BitVec w) (i : Nat) :
    (wordPolynomial word).coeff i = bitValue (word.getLsbD i) := by
  rw [wordPolynomial, finsetSum_coeff]
  simp only [coeff_C_mul, coeff_X_pow, mul_ite, mul_one, mul_zero, Finset.sum_ite_eq,
    Finset.mem_range, ite_eq_left_iff]
  intro outside
  rw [BitVec.getLsbD_of_ge word i (Nat.not_lt.1 outside), bitValue_false]

/-- Different words are different polynomials. -/
theorem wordPolynomial_injective :
    Function.Injective (wordPolynomial : BitVec w → (ZMod 2)[X]) := by
  intro left right same
  refine BitVec.eq_of_getLsbD_eq fun i _ => ?_
  have coefficient := congrArg (fun polynomial => polynomial.coeff i) same
  simp only [coeff_wordPolynomial] at coefficient
  cases leftBit : left.getLsbD i <;> cases rightBit : right.getLsbD i <;>
    simp [leftBit, rightBit] at coefficient ⊢

@[simp] theorem wordPolynomial_zero : wordPolynomial 0#w = 0 := by
  ext i
  rw [coeff_wordPolynomial]
  simp

theorem wordPolynomial_xor (left right : BitVec w) :
    wordPolynomial (left ^^^ right) = wordPolynomial left + wordPolynomial right := by
  ext i
  rw [coeff_add, coeff_wordPolynomial, coeff_wordPolynomial, coeff_wordPolynomial,
    BitVec.getLsbD_xor, bitValue_xor]

/-- Where the top bit is clear, so is every bit from there on. -/
theorem getLsbD_of_msb_clear {word : BitVec w} (clear : word.msb = false) {i : Nat}
    (top : w ≤ i + 1) : word.getLsbD i = false := by
  by_cases beyond : w ≤ i
  · exact BitVec.getLsbD_of_ge word i beyond
  · have last : i = w - 1 := by omega
    rw [last, ← BitVec.msb_eq_getLsbD_last, clear]

/-- A shift that loses no bit multiplies by `X`. -/
theorem wordPolynomial_shiftLeft {word : BitVec w} (clear : word.msb = false) :
    wordPolynomial (word <<< 1) = X * wordPolynomial word := by
  ext i
  rw [coeff_wordPolynomial, BitVec.getLsbD_shiftLeft]
  cases i with
  | zero => simp
  | succ i =>
      rw [coeff_X_mul, coeff_wordPolynomial]
      by_cases inside : i + 1 < w
      · simp [inside]
      · simp [inside, getLsbD_of_msb_clear clear (Nat.not_lt.1 inside)]

/-- With its top bit clear, a word is a polynomial of a degree less. -/
theorem degree_wordPolynomial_lt_of_msb {d : Nat} {word : BitVec (d + 1)}
    (clear : word.msb = false) : (wordPolynomial word).degree < d := by
  rw [degree_lt_iff_coeff_zero]
  intro i outside
  rw [coeff_wordPolynomial, getLsbD_of_msb_clear clear (Nat.succ_le_succ outside), bitValue_false]

/-- The word with only the top bit set. -/
theorem wordPolynomial_twoPow {d : Nat} :
    wordPolynomial (BitVec.twoPow (d + 1) d) = X ^ d := by
  ext i
  rw [coeff_wordPolynomial, coeff_X_pow, BitVec.getLsbD_twoPow]
  by_cases same : i = d
  · simp [same]
  · simp [same, Ne.symm same]

end WordPolynomial

/-! ## Division by a generator -/

section Division

variable {d : Nat} (generator : BitVec (d + 1))

/-- A generator subtracted where the top bit is set. -/
def reduceTop (word : BitVec (d + 1)) : BitVec (d + 1) :=
  if word.msb then word ^^^ generator else word

/-- A register shifted by one bit and reduced. -/
def shiftReduce (word : BitVec (d + 1)) : BitVec (d + 1) := reduceTop generator (word <<< 1)

/-- The residue of a polynomial modulo the generator. -/
noncomputable def residue (polynomial : (ZMod 2)[X]) : AdjoinRoot (wordPolynomial generator) :=
  AdjoinRoot.mk (wordPolynomial generator) polynomial

variable {generator}

/-- A reduced word with the top bit of the generator clear. -/
theorem reduceTop_msb (monic : generator.msb = true) (word : BitVec (d + 1)) :
    (reduceTop generator word).msb = false := by
  unfold reduceTop
  split
  · rename_i top
    rw [BitVec.msb_xor, top, monic]
    rfl
  · rename_i clear
    exact Bool.not_eq_true _ ▸ clear

/-- Reducing keeps the residue. -/
theorem residue_reduceTop (word : BitVec (d + 1)) :
    residue generator (wordPolynomial (reduceTop generator word)) =
      residue generator (wordPolynomial word) := by
  unfold reduceTop
  split
  · rw [wordPolynomial_xor, residue, residue, map_add, AdjoinRoot.mk_self, add_zero]
  · rfl

theorem residue_shiftReduce {word : BitVec (d + 1)} (clear : word.msb = false) :
    residue generator (wordPolynomial (shiftReduce generator word)) =
      residue generator (X * wordPolynomial word) := by
  rw [shiftReduce, residue_reduceTop, wordPolynomial_shiftLeft clear]

/-- Shifting and reducing again and again multiplies by a power of `X`. -/
theorem residue_shiftReduce_repeat (monic : generator.msb = true) {word : BitVec (d + 1)}
    (clear : word.msb = false) (count : Nat) :
    (Nat.repeat (shiftReduce generator) count word).msb = false ∧
      residue generator (wordPolynomial (Nat.repeat (shiftReduce generator) count word)) =
        residue generator (wordPolynomial word * X ^ count) := by
  induction count with
  | zero => exact ⟨clear, by rw [pow_zero, mul_one]; rfl⟩
  | succ count inductionHypothesis =>
      obtain ⟨clear, residues⟩ := inductionHypothesis
      refine ⟨reduceTop_msb monic _, ?_⟩
      have next := @residue_shiftReduce d generator _ clear
      rw [Nat.repeat, next, residue, map_mul]
      rw [residue, residue] at residues
      rw [residues, residue, pow_succ, ← map_mul, mul_comm X, mul_assoc]

/-- The generator, its top bit set, is monic of degree `d`. -/
theorem monic_wordPolynomial (monic : generator.msb = true) :
    (wordPolynomial generator).Monic ∧ (wordPolynomial generator).degree = d := by
  have top : (wordPolynomial generator).coeff d = 1 := by
    rw [BitVec.msb_eq_getLsbD_last, Nat.add_sub_cancel] at monic
    rw [coeff_wordPolynomial, monic, bitValue_true]
  have bounded : (wordPolynomial generator).natDegree ≤ d := by
    refine natDegree_le_iff_coeff_eq_zero.2 fun i above => ?_
    rw [coeff_wordPolynomial, BitVec.getLsbD_of_ge generator i above, bitValue_false]
  have isMonic := monic_of_natDegree_le_of_coeff_eq_one d bounded top
  refine ⟨isMonic, ?_⟩
  have atLeast : d ≤ (wordPolynomial generator).natDegree :=
    le_natDegree_of_ne_zero (by rw [top]; exact one_ne_zero)
  rw [degree_eq_natDegree isMonic.ne_zero, le_antisymm bounded atLeast]

/-- A register with its top bit clear is the remainder of every polynomial with its
residue. -/
theorem wordPolynomial_eq_modByMonic (monic : generator.msb = true) {word : BitVec (d + 1)}
    (clear : word.msb = false) {polynomial : (ZMod 2)[X]}
    (residues : residue generator (wordPolynomial word) = residue generator polynomial) :
    wordPolynomial word = polynomial %ₘ wordPolynomial generator := by
  obtain ⟨isMonic, degree⟩ := monic_wordPolynomial monic
  have small : (wordPolynomial word).degree < (wordPolynomial generator).degree := by
    rw [degree]
    exact degree_wordPolynomial_lt_of_msb clear
  rw [← (modByMonic_eq_self_iff isMonic).2 small]
  exact modByMonic_eq_of_dvd_sub isMonic (AdjoinRoot.mk_eq_mk.1 residues)

end Division

/-! ## Messages -/

/-- The polynomial of a message, its most significant bit first. -/
noncomputable def messagePolynomial (bits : List Bool) : (ZMod 2)[X] :=
  bits.foldl (fun polynomial bit => X * polynomial + C (bitValue bit)) 0

@[simp] theorem messagePolynomial_nil : messagePolynomial [] = 0 := rfl

theorem messagePolynomial_concat (bits : List Bool) (bit : Bool) :
    messagePolynomial (bits ++ [bit]) = X * messagePolynomial bits + C (bitValue bit) := by
  rw [messagePolynomial, List.foldl_append]
  rfl

/-- The bit-serial check: the register takes a bit in at its top. -/
def serialCrc {d : Nat} (generator : BitVec (d + 1)) (bits : List Bool) : BitVec (d + 1) :=
  bits.foldl
    (fun crc bit =>
      reduceTop generator ((crc <<< 1) ^^^ if bit then BitVec.twoPow (d + 1) d else 0)) 0

theorem serialCrc_concat {d : Nat} (generator : BitVec (d + 1)) (bits : List Bool) (bit : Bool) :
    serialCrc generator (bits ++ [bit]) =
      reduceTop generator ((serialCrc generator bits <<< 1) ^^^
        if bit then BitVec.twoPow (d + 1) d else 0) := by
  rw [serialCrc, List.foldl_append]
  rfl

/-- The bit-serial check is the remainder of the message shifted by its width. -/
theorem serialCrc_spec {d : Nat} {generator : BitVec (d + 1)} (monic : generator.msb = true)
    (bits : List Bool) :
    (serialCrc generator bits).msb = false ∧
      wordPolynomial (serialCrc generator bits) =
        (messagePolynomial bits * X ^ d) %ₘ wordPolynomial generator := by
  have invariant : (serialCrc generator bits).msb = false ∧
      residue generator (wordPolynomial (serialCrc generator bits)) =
        residue generator (messagePolynomial bits * X ^ d) := by
    induction bits using List.reverseRecOn with
    | nil => exact ⟨BitVec.msb_zero, by simp [serialCrc]⟩
    | append_singleton bits bit inductionHypothesis =>
        obtain ⟨clear, residues⟩ := inductionHypothesis
        have taken : wordPolynomial (if bit then BitVec.twoPow (d + 1) d else 0) =
            C (bitValue bit) * X ^ d := by
          cases bit
          · simp
          · simp [wordPolynomial_twoPow]
        rw [serialCrc_concat]
        refine ⟨reduceTop_msb monic _, ?_⟩
        rw [residue_reduceTop, wordPolynomial_xor, wordPolynomial_shiftLeft clear, taken,
          messagePolynomial_concat]
        simp only [residue, map_add, map_mul] at residues ⊢
        rw [residues]
        ring
  exact ⟨invariant.1, wordPolynomial_eq_modByMonic monic invariant.1 invariant.2⟩

/-- The bits of a message of words, the most significant bit of each first. -/
def messageBits {w : Nat} (words : List (BitVec w)) : List Bool :=
  words.flatMap fun word => (List.range w).reverse.map word.getLsbD

/-- One more word. -/
theorem messagePolynomial_concat_word {w : Nat} (bits : List Bool) (word : BitVec w) :
    messagePolynomial (bits ++ (List.range w).reverse.map word.getLsbD) =
      messagePolynomial bits * X ^ w + wordPolynomial word := by
  have taken : ∀ (count : Nat) (bits : List Bool),
      messagePolynomial (bits ++ (List.range count).reverse.map word.getLsbD) =
        messagePolynomial bits * X ^ count +
          ∑ i ∈ Finset.range count, C (bitValue (word.getLsbD i)) * X ^ i := by
    intro count
    induction count with
    | zero => simp
    | succ count inductionHypothesis =>
        intro bits
        have first : bits ++ (List.range (count + 1)).reverse.map word.getLsbD =
            (bits ++ [word.getLsbD count]) ++ (List.range count).reverse.map word.getLsbD := by
          rw [List.range_succ, List.reverse_append, List.map_append, List.append_assoc]
          rfl
        rw [first, inductionHypothesis, messagePolynomial_concat, Finset.sum_range_succ]
        ring
  exact taken w bits

end DDSFunctionGen.Arithmetic

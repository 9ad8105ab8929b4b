/-!
# Little-endian words

A word of four bytes and a half word of two, lowest byte first, and the bytes a
word consists of.
-/

namespace DDSFunctionGen.Arithmetic

/-- The word of four bytes. -/
def littleWord (b0 b1 b2 b3 : BitVec 8) : BitVec 32 :=
  b0.setWidth 32 ||| b1.setWidth 32 <<< 8 ||| b2.setWidth 32 <<< 16 ||| b3.setWidth 32 <<< 24

/-- The half word of two bytes. -/
def littleHalf (b0 b1 : BitVec 8) : BitVec 16 := b0.setWidth 16 ||| b1.setWidth 16 <<< 8

/-- Byte `i` of a word. -/
def byteOf {width : Nat} (word : BitVec width) (i : Nat) : BitVec 8 :=
  (word >>> (8 * i)).setWidth 8

theorem getLsbD_byteOf {width : Nat} (word : BitVec width) (i : Nat) {bit : Nat} (inByte : bit < 8) :
    (byteOf word i).getLsbD bit = word.getLsbD (8 * i + bit) := by
  simp [byteOf, inByte]

/-- A word is the word of its bytes. -/
theorem littleWord_bytes (word : BitVec 32) :
    littleWord (byteOf word 0) (byteOf word 1) (byteOf word 2) (byteOf word 3) = word := by
  apply BitVec.eq_of_getLsbD_eq
  intro bit small
  simp only [littleWord, byteOf, BitVec.getLsbD_or, BitVec.getLsbD_shiftLeft,
    BitVec.getLsbD_setWidth, BitVec.getLsbD_ushiftRight]
  by_cases first : bit < 8
  · grind
  by_cases second : bit < 16
  · grind
  by_cases third : bit < 24
  · grind
  · grind

/-- The bytes of a word of four bytes. -/
theorem bytes_littleWord (b0 b1 b2 b3 : BitVec 8) :
    byteOf (littleWord b0 b1 b2 b3) 0 = b0 ∧ byteOf (littleWord b0 b1 b2 b3) 1 = b1 ∧
      byteOf (littleWord b0 b1 b2 b3) 2 = b2 ∧ byteOf (littleWord b0 b1 b2 b3) 3 = b3 := by
  refine ⟨?_, ?_, ?_, ?_⟩
  all_goals
    apply BitVec.eq_of_getLsbD_eq
    intro bit small
    rw [getLsbD_byteOf _ _ small]
    simp only [littleWord, BitVec.getLsbD_or, BitVec.getLsbD_shiftLeft, BitVec.getLsbD_setWidth]
    grind

/-- A half word is the half word of its bytes. -/
theorem littleHalf_bytes (half : BitVec 16) :
    littleHalf (byteOf half 0) (byteOf half 1) = half := by
  apply BitVec.eq_of_getLsbD_eq
  intro bit small
  simp only [littleHalf, byteOf, BitVec.getLsbD_or, BitVec.getLsbD_shiftLeft,
    BitVec.getLsbD_setWidth, BitVec.getLsbD_ushiftRight]
  by_cases first : bit < 8
  · grind
  · grind

/-- The bytes of a half word of two bytes. -/
theorem bytes_littleHalf (b0 b1 : BitVec 8) :
    byteOf (littleHalf b0 b1) 0 = b0 ∧ byteOf (littleHalf b0 b1) 1 = b1 := by
  refine ⟨?_, ?_⟩
  all_goals
    apply BitVec.eq_of_getLsbD_eq
    intro bit small
    rw [getLsbD_byteOf _ _ small]
    simp only [littleHalf, BitVec.getLsbD_or, BitVec.getLsbD_shiftLeft, BitVec.getLsbD_setWidth]
    grind

end DDSFunctionGen.Arithmetic

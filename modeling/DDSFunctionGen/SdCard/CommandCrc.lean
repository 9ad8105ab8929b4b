import DDSFunctionGen.Arithmetic.CyclicRedundancy
import DDSFunctionGen.SdCard.BusLog

/-!
# The CRC of a command

`GenerateCRCTable` divides each byte by the generator of CRC-7, and `CRCAdd` looks
up the division of the shifted check and the next byte. The table holds checks of
7 bits in the low bits of a byte, so the shifted check stays a byte.
-/

namespace DDSFunctionGen.SdCard

open DDSFunctionGen.Arithmetic Polynomial

universe u

/-- The bit-serial CRC-7: a feedback register of 7 bits. -/
def crc7 (bits : List Bool) : BitVec 7 :=
  bits.foldl (fun crc bit => (crc <<< 1) ^^^ if crc.msb ^^ bit then 0x09 else 0) 0

/-! ## The table -/

theorem crcPoly_msb : crcPoly.msb = true := by decide

theorem wordPolynomial_crcPoly : wordPolynomial crcPoly = X ^ 7 + X ^ 3 + 1 := by
  have bits : crcPoly.getLsbD 0 = true ∧ crcPoly.getLsbD 1 = false ∧
      crcPoly.getLsbD 2 = false ∧ crcPoly.getLsbD 3 = true ∧ crcPoly.getLsbD 4 = false ∧
      crcPoly.getLsbD 5 = false ∧ crcPoly.getLsbD 6 = false ∧ crcPoly.getLsbD 7 = true := by
    decide
  obtain ⟨bit0, bit1, bit2, bit3, bit4, bit5, bit6, bit7⟩ := bits
  simp only [wordPolynomial, Finset.sum_range_succ, Finset.sum_range_zero, bit0, bit1, bit2, bit3,
    bit4, bit5, bit6, bit7, bitValue_true, bitValue_false, map_one, map_zero, zero_mul, one_mul,
    zero_add, add_zero, pow_zero]
  ring

/-- The test of bit 7. -/
theorem and_0x80_iff (word : BitVec 8) : word &&& 0x80 ≠ 0 ↔ word.msb = true := by
  revert word
  decide +kernel

theorem crcShift_eq (entry : BitVec 8) : crcShift entry = shiftReduce crcPoly entry := by
  simp only [crcShift, shiftReduce, reduceTop, and_0x80_iff]

theorem crcTableEntry_eq (i : BitVec 8) :
    crcTableEntry i = Nat.repeat (shiftReduce crcPoly) 7 (reduceTop crcPoly i) := by
  rw [crcTableEntry, show crcShift = shiftReduce crcPoly from funext crcShift_eq]
  simp only [reduceTop, and_0x80_iff]

/-- An entry is a byte times `X ^ 7` modulo the generator. -/
theorem crcTableEntry_spec (i : BitVec 8) :
    (crcTableEntry i).msb = false ∧
      residue crcPoly (wordPolynomial (crcTableEntry i)) =
        residue crcPoly (wordPolynomial i * X ^ 7) := by
  obtain ⟨clear, residues⟩ :=
    residue_shiftReduce_repeat crcPoly_msb (reduceTop_msb crcPoly_msb i) 7
  rw [← crcTableEntry_eq] at clear residues
  refine ⟨clear, residues.trans ?_⟩
  have reduced := @residue_reduceTop 7 crcPoly i
  simp only [residue, map_mul] at reduced ⊢
  rw [reduced]

/-! ## Messages -/

/-- A check of 7 bits, shifted, indexes the table. -/
theorem crcIndex_eq {crc : BitVec 8} (clear : crc.msb = false) (messageByte : BitVec 8) :
    crcIndex crc messageByte = ((crc <<< 1) ^^^ messageByte).toNat := by
  have small : crc.toNat < 128 := by
    have top := BitVec.msb_eq_decide crc
    rw [clear] at top
    simpa using top
  rw [crcIndex, BitVec.toNat_xor, BitVec.toNat_shiftLeft, Nat.shiftLeft_eq,
    Nat.mod_eq_of_lt (by omega)]

theorem crcAdd_eq {crc : BitVec 8} (clear : crc.msb = false) (messageByte : BitVec 8) :
    crcAdd crc messageByte = crcTableEntry ((crc <<< 1) ^^^ messageByte) := by
  have inside : ((crc <<< 1) ^^^ messageByte).toNat < 256 := BitVec.isLt _
  rw [crcAdd, crcIndex_eq clear, crcTable]
  rw [Vector.getElem?_ofFn, dif_pos inside]
  rfl

theorem messageBits_concat (bytes : List (BitVec 8)) (byte : BitVec 8) :
    messageBits (bytes ++ [byte]) =
      messageBits bytes ++ (List.range 8).reverse.map byte.getLsbD := by
  rw [messageBits, List.flatMap_append, List.flatMap_singleton]
  rfl

/-- The check of a message has 7 bits and the residue of the message shifted by 7. -/
theorem foldl_crcAdd_spec (bytes : List (BitVec 8)) :
    (bytes.foldl crcAdd 0).msb = false ∧
      residue crcPoly (wordPolynomial (bytes.foldl crcAdd 0)) =
        residue crcPoly (messagePolynomial (messageBits bytes) * X ^ 7) := by
  induction bytes using List.reverseRecOn with
  | nil => exact ⟨rfl, by simp [messageBits]⟩
  | append_singleton bytes byte inductionHypothesis =>
      obtain ⟨clear, residues⟩ := inductionHypothesis
      obtain ⟨entryClear, entry⟩ := crcTableEntry_spec ((bytes.foldl crcAdd 0 <<< 1) ^^^ byte)
      rw [List.foldl_append, List.foldl_cons, List.foldl_nil, crcAdd_eq clear]
      refine ⟨entryClear, entry.trans ?_⟩
      rw [wordPolynomial_xor, wordPolynomial_shiftLeft clear, messageBits_concat,
        messagePolynomial_concat_word]
      simp only [residue, map_mul, map_add, map_pow] at residues ⊢
      rw [residues]
      ring

/-- The 7-bit register is the register of the division without its top bit. -/
theorem serialCrc_crcPoly (bits : List Bool) :
    serialCrc crcPoly bits = (crc7 bits).setWidth 8 := by
  have step : ∀ (crc : BitVec 7) (bit : Bool),
      reduceTop crcPoly ((crc.setWidth 8 <<< 1) ^^^ if bit then BitVec.twoPow 8 7 else 0) =
        ((crc <<< 1) ^^^ if crc.msb ^^ bit then 0x09 else 0 : BitVec 7).setWidth 8 := by
    decide +kernel
  induction bits using List.reverseRecOn with
  | nil => rfl
  | append_singleton bits bit inductionHypothesis =>
      rw [serialCrc_concat, inductionHypothesis, step, crc7, crc7, List.foldl_append]
      rfl

/-- The table-driven check is the remainder of the division, and the bit-serial
check. -/
theorem foldl_crcAdd_eq (bytes : List (BitVec 8)) :
    wordPolynomial (bytes.foldl crcAdd 0) =
        (messagePolynomial (messageBits bytes) * X ^ 7) %ₘ (X ^ 7 + X ^ 3 + 1) ∧
      bytes.foldl crcAdd 0 = (crc7 (messageBits bytes)).setWidth 8 := by
  obtain ⟨clear, residues⟩ := foldl_crcAdd_spec bytes
  have remainder := wordPolynomial_eq_modByMonic crcPoly_msb clear residues
  have serial := (serialCrc_spec crcPoly_msb (messageBits bytes)).2
  constructor
  · rw [remainder, wordPolynomial_crcPoly]
  · rw [← serialCrc_crcPoly]
    exact wordPolynomial_injective (remainder.trans serial.symm)

/-- The checks of all messages are CRC-7, they index inside the table, and the
sixth byte of a command carries the check of the five before it. -/
theorem command_crc_is_crc7 :
    (∀ bytes : List (BitVec 8),
      wordPolynomial (bytes.foldl crcAdd 0) =
          (messagePolynomial (messageBits bytes) * X ^ 7) %ₘ (X ^ 7 + X ^ 3 + 1) ∧
        bytes.foldl crcAdd 0 = (crc7 (messageBits bytes)).setWidth 8 ∧
        (bytes.foldl crcAdd 0).toNat < 128 ∧
        ∀ messageByte, crcIndex (bytes.foldl crcAdd 0) messageByte < 256) ∧
      ∀ {Card : Type u} (slave : SpiSlave Card) (cmdNumber : BitVec 8) (data : BitVec 32)
        (bus : SpiBus (Card × List Signal)),
        let firstFive := (0x40 ||| cmdNumber) :: argumentBytes data
        (sdSendCommand (recorded slave) cmdNumber data bus).card.2 =
          bus.card.2 ++ (firstFive ++
            [((crc7 (messageBits firstFive)).setWidth 8 <<< 1) ||| 1, 0xFF]).map .byte := by
  constructor
  · intro bytes
    obtain ⟨remainder, serial⟩ := foldl_crcAdd_eq bytes
    have clear := (foldl_crcAdd_spec bytes).1
    refine ⟨remainder, serial, ?_, fun messageByte => ?_⟩
    · rw [serial, BitVec.toNat_setWidth]
      exact Nat.lt_of_le_of_lt (Nat.mod_le _ _) (BitVec.isLt _)
    · rw [crcIndex_eq clear]
      exact BitVec.isLt _
  · intro Card slave cmdNumber data bus firstFive
    rw [sdSendCommand_record, ← (foldl_crcAdd_eq firstFive).2]
    rfl

/-- `CMD0` with argument 0 ends in `0x95`. -/
example : ((crc7 (messageBits ([0x40, 0, 0, 0, 0] : List (BitVec 8)))).setWidth 8 <<< 1) ||| 1 =
    (0x95 : BitVec 8) := by
  decide +kernel

end DDSFunctionGen.SdCard

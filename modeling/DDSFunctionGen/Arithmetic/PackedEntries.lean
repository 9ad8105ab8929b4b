import Mathlib.Data.Nat.Digits.Defs

/-!
# Entries packed into bytes

A string of bytes, the lowest first, read as one number, and the entries of a
fixed width that this number is made of, the lowest first. An entry need not
begin at a byte.
-/

namespace DDSFunctionGen.Arithmetic

/-- The number that bytes stand for, the lowest first. -/
def littleNumber (bytes : List UInt8) : Nat := Nat.ofDigits 256 (bytes.map UInt8.toNat)

/-- Entry `index` of a table of entries of `width` bits. -/
def packedEntry (width : Nat) (bytes : List UInt8) (index : Nat) : Nat :=
  littleNumber bytes / 2 ^ (width * index) % 2 ^ width

@[simp] theorem littleNumber_nil : littleNumber [] = 0 := rfl

@[simp] theorem littleNumber_cons (byte : UInt8) (bytes : List UInt8) :
    littleNumber (byte :: bytes) = byte.toNat + 256 * littleNumber bytes := by
  simp [littleNumber, Nat.ofDigits_cons]

theorem littleNumber_append (first second : List UInt8) :
    littleNumber (first ++ second) = littleNumber first + 256 ^ first.length * littleNumber second := by
  simp [littleNumber, Nat.ofDigits_append]

theorem littleNumber_lt (bytes : List UInt8) : littleNumber bytes < 256 ^ bytes.length := by
  have small : ∀ digit ∈ bytes.map UInt8.toNat, digit < 256 := by
    intro digit member
    obtain ⟨byte, -, rfl⟩ := List.mem_map.mp member
    exact byte.toNat_lt
  have bound := Nat.ofDigits_lt_base_pow_length (by decide : 1 < 256) small
  rwa [List.length_map] at bound

/-- The bytes from one on. -/
theorem littleNumber_drop (bytes : List UInt8) (start : Nat) :
    littleNumber bytes / 256 ^ start = littleNumber (bytes.drop start) := by
  have positive : 0 < 256 ^ start := Nat.pow_pos (by decide)
  by_cases inside : start ≤ bytes.length
  · have length : (bytes.take start).length = start := List.length_take_of_le inside
    have below := littleNumber_lt (bytes.take start)
    rw [length] at below
    conv_lhs => rw [← List.take_append_drop start bytes, littleNumber_append, length]
    rw [Nat.add_mul_div_left _ _ positive, Nat.div_eq_of_lt below, Nat.zero_add]
  · have below : littleNumber bytes < 256 ^ start :=
      (littleNumber_lt bytes).trans_le (Nat.pow_le_pow_right (by decide) (by omega))
    rw [Nat.div_eq_of_lt below, List.drop_eq_nil_of_le (by omega), littleNumber_nil]

/-- The first bytes. -/
theorem littleNumber_take (bytes : List UInt8) (count : Nat) :
    littleNumber bytes % 256 ^ count = littleNumber (bytes.take count) := by
  by_cases inside : count ≤ bytes.length
  · have length : (bytes.take count).length = count := List.length_take_of_le inside
    have below := littleNumber_lt (bytes.take count)
    rw [length] at below
    conv_lhs => rw [← List.take_append_drop count bytes, littleNumber_append, length]
    rw [Nat.add_mul_mod_self_left, Nat.mod_eq_of_lt below]
  · have below : littleNumber bytes < 256 ^ count :=
      (littleNumber_lt bytes).trans_le (Nat.pow_le_pow_right (by decide) (by omega))
    rw [Nat.mod_eq_of_lt below, List.take_of_length_le (by omega)]

/-- A few bytes stand for a small number. -/
theorem littleNumber_take_lt (bytes : List UInt8) (count : Nat) :
    littleNumber (bytes.take count) < 2 ^ (8 * count) := by
  rw [Nat.pow_mul, ← littleNumber_take]
  exact Nat.mod_lt _ (Nat.pow_pos (by decide))

/-- An entry is decided by the bytes it lies in. -/
theorem packedEntry_eq {width index start shift count : Nat} (bytes : List UInt8)
    (begins : width * index = 8 * start + shift) (fits : shift + width ≤ 8 * count) :
    packedEntry width bytes index =
      littleNumber ((bytes.drop start).take count) / 2 ^ shift % 2 ^ width := by
  have bytesOf (bits : Nat) : (2 : Nat) ^ (8 * bits) = 256 ^ bits := Nat.pow_mul 2 8 bits
  have split : (256 : Nat) ^ count = 2 ^ shift * 2 ^ (8 * count - shift) := by
    rw [← bytesOf, ← Nat.pow_add]
    congr 1
    omega
  have divides : (2 : Nat) ^ width ∣ 2 ^ (8 * count - shift) := Nat.pow_dvd_pow 2 (by omega)
  calc packedEntry width bytes index
      = littleNumber bytes / 256 ^ start / 2 ^ shift % 2 ^ width := by
        rw [packedEntry, begins, Nat.pow_add, bytesOf, Nat.div_div_eq_div_mul]
    _ = littleNumber (bytes.drop start) / 2 ^ shift % 2 ^ width := by rw [littleNumber_drop]
    _ = littleNumber (bytes.drop start) % 256 ^ count / 2 ^ shift % 2 ^ width := by
        rw [split, Nat.mod_mul_right_div_self, Nat.mod_mod_of_dvd _ divides]
    _ = littleNumber ((bytes.drop start).take count) / 2 ^ shift % 2 ^ width := by
        rw [littleNumber_take]

end DDSFunctionGen.Arithmetic

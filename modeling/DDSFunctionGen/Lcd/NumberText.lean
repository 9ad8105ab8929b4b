import DDSFunctionGen.Semantics.CountedLoop
import DDSFunctionGen.Sequences.TextBuffer
import Mathlib.Algebra.Group.Int.Defs
import Mathlib.Algebra.Ring.Nat
import Mathlib.Tactic.ByContra
import Mathlib.Tactic.SplitIfs

/-!
# The text of a number

`GLCD_PrintNumWithCursorI` writes a number from its last digit to its first into
an array of 27 characters. Where the last digit goes is settled beforehand, from
the requested length and from a count of the digits that takes every negative
number for one digit long.
-/

namespace DDSFunctionGen.Lcd

open DDSFunctionGen.Semantics DDSFunctionGen.Sequences

/-- `Str`, an array of 27 characters, uninitialised at first. -/
abbrev NumberBuffer := TextBuffer Char 27

/-- The loop of `IntLenght`. -/
def intLenghtFrom (numDigits num : Int) : Int :=
  if 10 ≤ num then intLenghtFrom (numDigits + 1) (num.tdiv 10) else numDigits
termination_by num.toNat
decreasing_by
  rw [Int.tdiv_eq_ediv_of_nonneg (by omega)]
  omega

/-- `IntLenght` -/
def intLenght (num : Int) : Int := intLenghtFrom 1 num

/-- `'0' + num % 10` -/
def lastDigit (num : Int) : Char := Char.ofNat ('0'.toNat + (num.tmod 10).toNat)

/-- The loop over the digits: `StrIndex` and `Str` after it. -/
def storeDigits (num strIndex : Int) (str : NumberBuffer) : Int × NumberBuffer :=
  let str := str.storeAt strIndex (lastDigit num)
  if 0 < num.tdiv 10 then storeDigits (num.tdiv 10) (strIndex - 1) str else (strIndex - 1, str)
termination_by num.toNat
decreasing_by
  rename_i more
  have positive : 0 ≤ num := by
    by_cases nonneg : 0 ≤ num
    · exact nonneg
    · have negated : (-num).tdiv 10 = -num.tdiv 10 := Int.neg_tdiv ..
      rw [Int.tdiv_eq_ediv_of_nonneg (by omega)] at negated
      omega
  rw [Int.tdiv_eq_ediv_of_nonneg positive] at more ⊢
  omega

/-- `GLCD_PrintNumWithCursorI` up to the call that prints `Str`. -/
def numberText (num length : Int) (filler : Char) (str : NumberBuffer) : NumberBuffer :=
  let strIndex := intLenght num - 1
  let strIndex := if strIndex < length then length - 1 else strIndex
  let neg := num < 0
  let num' := if neg then -num else num
  let str := if neg then str.storeAt 0 '-' else str
  let strIndex := if neg then strIndex + 1 else strIndex
  let str := str.storeAt (strIndex + 1) '\x00'
  let (strIndex, str) := storeDigits num' strIndex str
  countedLoop (fun i => TextBuffer.storeAt i filler) (if neg then 1 else 0) (strIndex + 1) str

/-! ## Digits -/

/-- The decimal digits of a number, the first one leading. -/
abbrev decimal (num : Nat) : List Char := Nat.toDigits 10 num

theorem lastDigit_eq (num : Nat) : lastDigit num = Nat.digitChar (num % 10) := by
  have character : ∀ digit < 10, Char.ofNat ('0'.toNat + digit) = Nat.digitChar digit := by decide
  rw [lastDigit, Int.tmod_eq_emod_of_nonneg (Int.natCast_nonneg num),
    ← character _ (Nat.mod_lt num (by decide))]
  congr 2

theorem lastDigit_ne_minus (num : Nat) : lastDigit num ≠ '-' := by
  have character : ∀ digit < 10, Nat.digitChar digit ≠ '-' := by decide
  rw [lastDigit_eq]
  exact character _ (Nat.mod_lt num (by decide))

theorem decimal_of_lt {num : Nat} (single : num < 10) : decimal num = [lastDigit num] := by
  rw [decimal, Nat.toDigits_of_lt_base single, lastDigit_eq, Nat.mod_eq_of_lt single]

theorem decimal_of_ge {num : Nat} (more : 10 ≤ num) :
    decimal num = decimal (num / 10) ++ [lastDigit num] := by
  rw [decimal, Nat.toDigits_of_base_le (by decide) more, lastDigit_eq]

theorem tdiv_ten (num : Nat) : (num : Int).tdiv 10 = (num / 10 : Nat) :=
  Int.tdiv_eq_ediv_of_nonneg (Int.natCast_nonneg num)

theorem intLenghtFrom_eq (numDigits : Int) (num : Nat) :
    intLenghtFrom numDigits num = numDigits + (decimal num).length - 1 := by
  induction num using Nat.strongRecOn generalizing numDigits with
  | ind num inductionHypothesis =>
      rw [intLenghtFrom]
      split
      · rename_i more
        have atLeast : 10 ≤ num := by omega
        rw [tdiv_ten, inductionHypothesis (num / 10) (by omega), decimal_of_ge atLeast,
          List.length_append, List.length_singleton]
        omega
      · rename_i single
        rw [decimal_of_lt (by omega), List.length_singleton]
        omega

/-- The digits of a number that is not negative are counted. -/
theorem intLenght_natCast (num : Nat) : intLenght num = (decimal num).length := by
  rw [intLenght, intLenghtFrom_eq]
  omega

/-- A negative number is counted as one digit. -/
theorem intLenght_of_neg {num : Int} (negative : num < 0) : intLenght num = 1 := by
  rw [intLenght, intLenghtFrom, if_neg (by omega)]

/-! ## Stores -/

variable {str : NumberBuffer} {front back : List Char}

/-- The digits go into the cells that end at the start index. -/
theorem storeDigits_cells {num : Nat} {old : List Char} (inside : str.overflowed = false)
    (room : old.length = (decimal num).length)
    (cells : str.cells.toList = front ++ old ++ back) {strIndex : Int}
    (position : strIndex = front.length + old.length - 1) :
    (storeDigits num strIndex str).1 = front.length - 1 ∧
      (storeDigits num strIndex str).2.overflowed = false ∧
      (storeDigits num strIndex str).2.cells.toList = front ++ decimal num ++ back := by
  induction num using Nat.strongRecOn generalizing old back strIndex str with
  | ind num inductionHypothesis =>
      rw [storeDigits, tdiv_ten]
      by_cases single : num < 10
      · rw [decimal_of_lt single] at room ⊢
        obtain ⟨digit, rfl⟩ := List.length_eq_one_iff.mp room
        have line : str.cells.toList = front ++ digit :: back := by simpa using cells
        have here : strIndex = front.length := by
          rw [position, List.length_singleton]
          omega
        obtain ⟨kept, stored⟩ := TextBuffer.storeAt_cells line here (lastDigit num)
        rw [if_neg (by omega)]
        exact ⟨congrArg (· - 1) here, kept.trans inside, by simpa using stored⟩
      · rw [decimal_of_ge (by omega), List.length_append, List.length_singleton] at room
        have nonempty : old ≠ [] := List.ne_nil_of_length_eq_add_one room
        obtain ⟨higher, digit, rfl⟩ : ∃ higher digit, old = higher ++ [digit] :=
          ⟨old.dropLast, old.getLast nonempty, (List.dropLast_concat_getLast nonempty).symm⟩
        rw [List.length_append, List.length_singleton] at room position
        have line : str.cells.toList = (front ++ higher) ++ digit :: back := by simpa using cells
        have here : strIndex = (front ++ higher).length := by
          rw [List.length_append]
          omega
        obtain ⟨kept, stored⟩ := TextBuffer.storeAt_cells line here (lastDigit num)
        rw [if_pos (by omega), decimal_of_ge (by omega), List.append_assoc front,
          List.append_assoc (decimal (num / 10))]
        have rest := inductionHypothesis (num / 10) (by omega) (kept.trans inside)
          (Nat.succ.inj room) stored (show strIndex - 1 = _ by omega)
        rwa [List.append_assoc] at rest

/-- With fewer cells before the start index than digits, a digit goes into the first
cell or before it. -/
theorem storeDigits_reaches_start {num : Nat} {strIndex : Int}
    (short : strIndex < (decimal num).length) (str : NumberBuffer) :
    (storeDigits num strIndex str).1 = strIndex - (decimal num).length ∧
      ((storeDigits num strIndex str).2.overflowed = true ∨
        ∃ digit rest, digit ≠ '-' ∧
          (storeDigits num strIndex str).2.cells.toList = digit :: rest) := by
  induction num using Nat.strongRecOn generalizing strIndex str with
  | ind num inductionHypothesis =>
      rw [storeDigits, tdiv_ten]
      by_cases single : num < 10
      · rw [decimal_of_lt single, List.length_singleton] at short ⊢
        rw [if_neg (by omega)]
        refine ⟨rfl, ?_⟩
        by_cases negative : strIndex < 0
        · left
          rw [TextBuffer.storeAt, if_neg (by omega)]
        · right
          obtain ⟨old, rest, cells⟩ := List.exists_cons_of_length_eq_add_one
            (str.cells.length_toList : str.cells.toList.length = 26 + 1)
          have line : str.cells.toList = [] ++ old :: rest := cells
          have here : strIndex = ([] : List Char).length := by
            simp only [List.length_nil]
            omega
          exact ⟨lastDigit num, rest, lastDigit_ne_minus num,
            (TextBuffer.storeAt_cells line here _).2⟩
      · rw [decimal_of_ge (by omega), List.length_append, List.length_singleton] at short ⊢
        rw [if_pos (by omega)]
        obtain ⟨index, start⟩ := inductionHypothesis (num / 10) (by omega)
          (show strIndex - 1 < (decimal (num / 10)).length by omega)
          (str.storeAt strIndex (lastDigit num))
        exact ⟨by omega, start⟩

/-- The loop over the cells to the left of the digits. -/
theorem fill_cells {filler : Char} {old : List Char} (inside : str.overflowed = false)
    (cells : str.cells.toList = front ++ old ++ back) {start stop : Int}
    (starts : start = front.length) (stops : stop = front.length + old.length) :
    (countedLoop (fun i => TextBuffer.storeAt i filler) start stop str).overflowed = false ∧
      (countedLoop (fun i => TextBuffer.storeAt i filler) start stop str).cells.toList =
        front ++ List.replicate old.length filler ++ back := by
  induction old generalizing str front start with
  | nil =>
      rw [countedLoop_empty (by simp at stops; omega)]
      exact ⟨inside, cells⟩
  | cons first old inductionHypothesis =>
      rw [List.length_cons] at stops
      have line : str.cells.toList = front ++ first :: (old ++ back) := by simpa using cells
      obtain ⟨kept, stored⟩ := TextBuffer.storeAt_cells line starts filler
      rw [countedLoop_step (by omega)]
      have next : (str.storeAt start filler).cells.toList = (front ++ [filler]) ++ old ++ back := by
        simpa using stored
      have rest := inductionHypothesis (kept.trans inside) next
        (show start + 1 = _ by simp [starts]) (show stop = _ by simp [stops]; omega)
      simpa [List.replicate_succ] using rest

/-- Cells for fillers, digits and a terminator. -/
theorem split_cells {digits width : Nat} {rest : List Char} (wide : digits ≤ width)
    (room : width < rest.length) :
    ∃ pad old last tail, rest = pad ++ old ++ last :: tail ∧
      pad.length = width - digits ∧ old.length = digits := by
  have behind : rest.drop width = rest[width] :: rest.drop (width + 1) :=
    List.drop_eq_getElem_cons room
  refine ⟨(rest.take width).take (width - digits), (rest.take width).drop (width - digits),
    rest[width], rest.drop (width + 1), ?_, ?_, ?_⟩
  · rw [List.take_append_drop, ← behind, List.take_append_drop]
  · rw [List.length_take, List.length_take]
    omega
  · rw [List.length_drop, List.length_take]
    omega

/-- The terminator, the digits and the fillers, stored behind what the text begins
with. -/
theorem padded_cells {num width : Nat} {filler : Char} {rest : List Char}
    (inside : str.overflowed = false) (cells : str.cells.toList = front ++ rest)
    (wide : (decimal num).length ≤ width) (room : width < rest.length) {strIndex : Int}
    (position : strIndex = front.length + width - 1) :
    let stored := storeDigits num strIndex (str.storeAt (strIndex + 1) '\x00')
    let filled := countedLoop (fun i => TextBuffer.storeAt i filler) front.length (stored.1 + 1)
      stored.2
    filled.overflowed = false ∧ ∃ after, filled.cells.toList =
      front ++ List.leftpad width filler (decimal num) ++ '\x00' :: after := by
  obtain ⟨pad, old, last, tail, rfl, padLength, oldLength⟩ := split_cells wide room
  have line : str.cells.toList = (front ++ pad ++ old) ++ last :: tail := by simpa using cells
  have behind : strIndex + 1 = (front ++ pad ++ old).length := by
    rw [List.length_append, List.length_append]
    omega
  obtain ⟨kept, terminated⟩ := TextBuffer.storeAt_cells line behind '\x00'
  have digitsEnd : strIndex = (front ++ pad).length + old.length - 1 := by
    rw [List.length_append]
    omega
  obtain ⟨index, sound, written⟩ :=
    storeDigits_cells (kept.trans inside) oldLength terminated digitsEnd
  rw [List.append_assoc _ (decimal num)] at written
  have stops : (storeDigits num strIndex (str.storeAt (strIndex + 1) '\x00')).1 + 1 =
      front.length + pad.length := by
    rw [index, List.length_append]
    omega
  obtain ⟨filledSound, filled⟩ := fill_cells sound written rfl stops
  refine ⟨filledSound, tail, ?_⟩
  rw [filled, padLength, List.leftpad]
  simp only [List.append_assoc]

/-- The text of a number: its sign, and its digits with fillers before them up to the
requested length. -/
def expectedText (num length : Int) (filler : Char) : List Char :=
  (if num < 0 then ['-'] else []) ++ List.leftpad length.toNat filler (decimal num.natAbs)

/-- Whatever `Str` held before, it holds the text and a terminator, and no store has
missed it. -/
def PrintsNumber (num length : Int) (filler : Char) : Prop :=
  ∀ str : NumberBuffer, str.overflowed = false →
    (numberText num length filler str).overflowed = false ∧
      ∃ after, (numberText num length filler str).cells.toList =
        expectedText num length filler ++ '\x00' :: after

variable {length : Int} {filler : Char}

/-- A number that is not negative is printed as wide as requested, or as its digits
need. -/
theorem printsNumber_of_nonneg {num : Nat} (positive : 1 ≤ length) (short : length ≤ 25)
    (digits : (decimal num).length ≤ 25) : PrintsNumber num length filler := by
  intro str inside
  have notNegative : ¬ (num : Int) < 0 := by omega
  have room : max (decimal num).length length.toNat < str.cells.toList.length := by
    rw [Vector.length_toList]
    omega
  have position : (if intLenght num - 1 < length then length - 1 else intLenght num - 1) =
      ([] : List Char).length + (max (decimal num).length length.toNat : Nat) - 1 := by
    rw [intLenght_natCast, List.length_nil]
    split_ifs
    · omega
    · omega
  obtain ⟨sound, after, cells⟩ := @padded_cells str [] num _ filler _ inside rfl
    (Nat.le_max_left _ _) room _ position
  simp only [numberText, if_neg notNegative]
  refine ⟨sound, after, ?_⟩
  have same : List.leftpad (max (decimal num).length length.toNat) filler (decimal num) =
      List.leftpad length.toNat filler (decimal num) := by
    have fillers : max (decimal num).length length.toNat - (decimal num).length =
        length.toNat - (decimal num).length := by omega
    rw [List.leftpad, List.leftpad, fillers]
  rw [expectedText, if_neg notNegative, Int.natAbs_natCast, ← same]
  exact cells

/-- For a negative number the requested length alone settles where the last digit goes. -/
theorem numberText_of_neg {num : Nat} (negative : 0 < num) (positive : 1 ≤ length)
    (str : NumberBuffer) :
    numberText (-num) length filler str =
      let stored := storeDigits num length ((str.storeAt 0 '-').storeAt (length + 1) '\x00')
      countedLoop (fun i => TextBuffer.storeAt i filler) 1 (stored.1 + 1) stored.2 := by
  have isNegative : -(num : Int) < 0 := by omega
  have shorter : (1 : Int) - 1 < length := by omega
  simp only [numberText, intLenght_of_neg isNegative, if_pos isNegative, if_pos shorter,
    Int.neg_neg, Int.sub_add_cancel]

/-- A negative number is printed behind its sign where its digits fit the requested
length. -/
theorem printsNumber_of_neg {num : Nat} (negative : 0 < num) (positive : 1 ≤ length)
    (short : length ≤ 25) (digits : (decimal num).length ≤ length.toNat) :
    PrintsNumber (-num) length filler := by
  intro str inside
  have isNegative : -(num : Int) < 0 := by omega
  obtain ⟨old, rest, cells⟩ := List.exists_cons_of_length_eq_add_one
    (str.cells.length_toList : str.cells.toList.length = 26 + 1)
  have total := congrArg List.length cells
  rw [Vector.length_toList, List.length_cons] at total
  have line : str.cells.toList = [] ++ old :: rest := cells
  obtain ⟨kept, signed⟩ := @TextBuffer.storeAt_cells _ _ str [] rest old line 0 rfl '-'
  have position : length = (['-'] : List Char).length + (length.toNat : Int) - 1 := by
    rw [List.length_singleton]
    omega
  obtain ⟨sound, after, printed⟩ := @padded_cells (str.storeAt 0 '-') ['-'] num length.toNat filler
    rest (kept.trans inside) signed digits (by omega) length position
  rw [numberText_of_neg negative positive, expectedText, if_pos isNegative, Int.natAbs_neg,
    Int.natAbs_natCast]
  exact ⟨sound, after, printed⟩

/-- A negative number with more digits loses its sign, or is stored before the array. -/
theorem not_printsNumber_of_neg {num : Nat} (negative : 0 < num) (positive : 1 ≤ length)
    (digits : length.toNat < (decimal num).length) : ¬ PrintsNumber (-num) length filler := by
  intro prints
  have isNegative : -(num : Int) < 0 := by omega
  let str : NumberBuffer := { cells := Vector.replicate 27 '\x00' }
  obtain ⟨sound, after, cells⟩ := prints str rfl
  obtain ⟨index, start⟩ := @storeDigits_reaches_start num length (by omega)
    ((str.storeAt 0 '-').storeAt (length + 1) '\x00')
  have none : countedLoop (fun i => TextBuffer.storeAt i filler) 1
      ((storeDigits num length ((str.storeAt 0 '-').storeAt (length + 1) '\x00')).1 + 1)
      (storeDigits num length ((str.storeAt 0 '-').storeAt (length + 1) '\x00')).2 =
        (storeDigits num length ((str.storeAt 0 '-').storeAt (length + 1) '\x00')).2 :=
    countedLoop_empty (by omega) _
  rw [numberText_of_neg negative positive] at sound cells
  simp only [none] at sound cells
  rcases start with overflowed | ⟨digit, rest, noSign, stored⟩
  · exact absurd (sound.symm.trans overflowed) Bool.false_ne_true
  · rw [expectedText, if_pos isNegative, stored] at cells
    exact noSign (List.cons.inj cells).1

/-- Exactly when a number is printed as it should be: it is not negative, or it has no
more digits than were requested. -/
theorem printsNumber_iff {num : Int} (above : -2 ^ 31 < num) (below : num < 2 ^ 31)
    (positive : 1 ≤ length) (short : length ≤ 25) (filler : Char) :
    PrintsNumber num length filler ↔ 0 ≤ num ∨ num.natAbs < 10 ^ length.toNat := by
  by_cases nonneg : 0 ≤ num
  · obtain ⟨num, rfl⟩ := Int.eq_ofNat_of_zero_le nonneg
    have digits : (decimal num).length ≤ 25 :=
      (Nat.length_toDigits_le_iff (by decide) (by decide)).mpr (by omega)
    exact iff_of_true (printsNumber_of_nonneg positive short digits) (.inl nonneg)
  · obtain ⟨num, rfl⟩ : ∃ magnitude : Nat, num = -magnitude := ⟨num.natAbs, by omega⟩
    have negative : 0 < num := by omega
    have fits : (decimal num).length ≤ length.toNat ↔ num < 10 ^ length.toNat :=
      Nat.length_toDigits_le_iff (by decide) (by omega)
    rw [Int.natAbs_neg, Int.natAbs_natCast, or_iff_right nonneg, ← fits]
    constructor
    · intro prints
      by_contra more
      exact not_printsNumber_of_neg negative positive (by omega) prints
    · exact printsNumber_of_neg negative positive short

/-- Two digits of a negative number over a width of four. -/
theorem printsNumber_minus_twelve : PrintsNumber (-12) 4 '0' :=
  (printsNumber_iff (by decide) (by decide) (by decide) (by decide) '0').mpr (by decide)

/-- Two digits over a width of one, and three, of which the first is stored before the
array. -/
theorem not_printsNumber_minus_twelve :
    ¬ PrintsNumber (-12) 1 ' ' ∧ ¬ PrintsNumber (-123) 1 ' ' :=
  ⟨@not_printsNumber_of_neg 1 ' ' 12 (by decide) (by decide) (by decide),
    @not_printsNumber_of_neg 1 ' ' 123 (by decide) (by decide) (by decide)⟩

end DDSFunctionGen.Lcd

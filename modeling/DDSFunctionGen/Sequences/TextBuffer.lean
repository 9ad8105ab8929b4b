import DDSFunctionGen.Sequences.Segments

/-!
# Terminated texts in arrays

A text is kept in an array of fixed size and ends at the first terminator. It is
edited in place: `append` writes from the terminator on without looking at the
size, and `cutAtLast` turns the last separator into the terminator.
-/

namespace DDSFunctionGen.Sequences

universe u

/-- An array of `size` cells. `overflowed` records that a store missed it; what
lies behind it is not modelled. -/
structure TextBuffer (α : Type u) (size : Nat) where
  cells : Vector α size
  overflowed : Bool := false

namespace TextBuffer

variable {α : Type u} {size : Nat}

/-- One symbol stored. -/
def store (index : Nat) (symbol : α) (buffer : TextBuffer α size) : TextBuffer α size :=
  if index < size then { buffer with cells := buffer.cells.setIfInBounds index symbol }
  else { buffer with overflowed := true }

/-- One symbol stored at a computed index, which may be negative. -/
def storeAt (index : Int) (symbol : α) (buffer : TextBuffer α size) : TextBuffer α size :=
  if 0 ≤ index then buffer.store index.toNat symbol else { buffer with overflowed := true }

/-- A text and its terminator stored from an index on. -/
def write (terminator : α) : Nat → List α → TextBuffer α size → TextBuffer α size
  | index, [], buffer => buffer.store index terminator
  | index, symbol :: rest, buffer => write terminator (index + 1) rest (buffer.store index symbol)

section Writing

variable {terminator : α} {buffer : TextBuffer α size}

/-- A store inside the array replaces one cell. -/
theorem store_cells {front rest : List α} {old : α}
    (cells : buffer.cells.toList = front ++ old :: rest) (symbol : α) :
    (buffer.store front.length symbol).overflowed = buffer.overflowed ∧
      (buffer.store front.length symbol).cells.toList = front ++ symbol :: rest := by
  have total := congrArg List.length cells
  simp only [Vector.length_toList, List.length_append, List.length_cons] at total
  have inside : front.length < size := by omega
  rw [store, if_pos inside]
  refine ⟨rfl, ?_⟩
  rw [Vector.toList_setIfInBounds, cells]
  simp

theorem storeAt_cells {front rest : List α} {old : α}
    (cells : buffer.cells.toList = front ++ old :: rest) {index : Int}
    (position : index = front.length) (symbol : α) :
    (buffer.storeAt index symbol).overflowed = buffer.overflowed ∧
      (buffer.storeAt index symbol).cells.toList = front ++ symbol :: rest := by
  rw [storeAt, if_pos (by omega), position, Int.toNat_natCast]
  exact store_cells cells symbol

/-- A text that fits is written in place of the cells it covers. -/
theorem write_cells {added front back : List α} (cells : buffer.cells.toList = front ++ back)
    (fits : added.length < back.length) :
    (buffer.write terminator front.length added).overflowed = buffer.overflowed ∧
      ∃ rest, (buffer.write terminator front.length added).cells.toList =
        front ++ added ++ terminator :: rest := by
  induction added generalizing buffer front back with
  | nil =>
      cases back with
      | nil => exact absurd fits (by simp)
      | cons old rest =>
          obtain ⟨overflowed, stored⟩ := store_cells cells terminator
          exact ⟨overflowed, rest, by simpa [write] using stored⟩
  | cons symbol added inductionHypothesis =>
      cases back with
      | nil => exact absurd fits (by simp)
      | cons old rest =>
          obtain ⟨overflowed, stored⟩ := store_cells cells symbol
          have next : (buffer.store front.length symbol).cells.toList =
              (front ++ [symbol]) ++ rest := by simp [stored]
          have written := inductionHypothesis next (by simpa using fits)
          simpa [write, overflowed] using written

theorem write_overflowed {index : Nat} {added : List α}
    (missed : buffer.overflowed = true ∨ size ≤ index + added.length) :
    (buffer.write terminator index added).overflowed = true := by
  induction added generalizing buffer index with
  | nil =>
      rw [write, store]
      split
      · rename_i inside
        exact missed.resolve_right (by simpa using inside)
      · rfl
  | cons symbol added inductionHypothesis =>
      rw [write]
      apply inductionHypothesis
      rcases missed with before | beyond
      · left
        rw [store]
        split
        · exact before
        · rfl
      · right
        simp only [List.length_cons] at beyond
        omega

end Writing

variable [DecidableEq α] (terminator : α)

/-- The number of cells before the first terminator. -/
def textLength (buffer : TextBuffer α size) : Nat := buffer.cells.toList.idxOf terminator

/-- A text written over the terminator of the one before it. -/
def append (buffer : TextBuffer α size) (added : List α) : TextBuffer α size :=
  buffer.write terminator (buffer.textLength terminator) added

/-- The text cut at the last separator at an index in `1 .. index`. -/
def cutAtLast (separator : α) (buffer : TextBuffer α size) : Nat → TextBuffer α size
  | 0 => buffer
  | index + 1 =>
      if buffer.cells[index + 1]? = some separator then buffer.store (index + 1) terminator
      else cutAtLast separator buffer index

/-- The text, if it ends within the array and no store has missed the array. -/
def text (buffer : TextBuffer α size) : Option (List α) :=
  if buffer.overflowed = false ∧ terminator ∈ buffer.cells.toList then
    some (buffer.cells.toList.takeWhile (· ≠ terminator))
  else none

variable {terminator} {buffer : TextBuffer α size} {held : List α}

theorem takeWhile_terminated {front : List α} (absent : terminator ∉ front) (rest : List α) :
    (front ++ terminator :: rest).takeWhile (· ≠ terminator) = front := by
  rw [List.takeWhile_append_of_pos]
  · simp
  · intro symbol member
    simp only [ne_eq, decide_not, Bool.not_eq_true', decide_eq_false_iff_not]
    rintro rfl
    exact absent member

/-- A text is what stands before the first terminator. -/
theorem text_eq_some :
    buffer.text terminator = some held ↔ buffer.overflowed = false ∧ terminator ∉ held ∧
      ∃ rest, buffer.cells.toList = held ++ terminator :: rest := by
  constructor
  · intro found
    unfold text at found
    split at found
    · rename_i terminated
      obtain ⟨front, rest, cells, absent⟩ := List.eq_append_cons_of_mem terminated.2
      rw [cells, takeWhile_terminated absent] at found
      obtain rfl := Option.some.inj found
      exact ⟨terminated.1, absent, rest, cells⟩
    · exact absurd found (by simp)
  · rintro ⟨inside, absent, rest, cells⟩
    rw [text, cells, if_pos ⟨inside, by simp⟩, takeWhile_terminated absent]

theorem text_of_overflowed (overflowed : buffer.overflowed = true) :
    buffer.text terminator = none := by
  simp [text, overflowed]

theorem textLength_eq (isHeld : buffer.text terminator = some held) :
    buffer.textLength terminator = held.length := by
  obtain ⟨-, absent, rest, cells⟩ := text_eq_some.mp isHeld
  rw [textLength, cells, List.idxOf_append, if_neg absent, List.idxOf_cons_self, Nat.zero_add]

/-- A text is shorter than the array. -/
theorem length_lt_of_text (isHeld : buffer.text terminator = some held) : held.length < size := by
  obtain ⟨-, -, rest, cells⟩ := text_eq_some.mp isHeld
  have total := congrArg List.length cells
  simp only [Vector.length_toList, List.length_append, List.length_cons] at total
  omega

/-- A text written from the start replaces the one before it. -/
theorem text_write (inside : buffer.overflowed = false) {added : List α}
    (absent : terminator ∉ added) (fits : added.length < size) :
    (buffer.write terminator 0 added).text terminator = some added := by
  have whole : buffer.cells.toList = [] ++ buffer.cells.toList := rfl
  have room : added.length < buffer.cells.toList.length := by
    rw [Vector.length_toList]
    exact fits
  obtain ⟨kept, rest, written⟩ := write_cells whole room
  exact text_eq_some.mpr ⟨kept.trans inside, absent, rest, written⟩

/-- An appended text is held exactly if it fits with its terminator. -/
theorem text_append (isHeld : buffer.text terminator = some held) {added : List α}
    (absent : terminator ∉ added) :
    (buffer.append terminator added).text terminator =
      if held.length + added.length < size then some (held ++ added) else none := by
  rw [append, textLength_eq isHeld]
  split
  · rename_i fits
    obtain ⟨inside, heldAbsent, rest, cells⟩ := text_eq_some.mp isHeld
    have total := congrArg List.length cells
    simp only [Vector.length_toList, List.length_append, List.length_cons] at total
    have room : added.length < (terminator :: rest).length := by
      simp only [List.length_cons]
      omega
    obtain ⟨kept, after, written⟩ := write_cells cells room
    refine text_eq_some.mpr ⟨kept.trans inside, ?_, after, written⟩
    simp [heldAbsent, absent]
  · rename_i beyond
    exact text_of_overflowed (write_overflowed (.inr (by omega)))

/-- Cutting in place cuts the text. -/
theorem text_cutAtLast (isHeld : buffer.text terminator = some held) {separator : α}
    (differs : separator ≠ terminator) {index : Nat} (within : index ≤ held.length) :
    (buffer.cutAtLast terminator separator index).text terminator =
      some (Sequences.cutAtLast separator held index) := by
  obtain ⟨inside, absent, rest, cells⟩ := text_eq_some.mp isHeld
  induction index with
  | zero => exact isHeld
  | succ index inductionHypothesis =>
      have same : buffer.cells[index + 1]? = some separator ↔
          held[index + 1]? = some separator := by
        rw [← Vector.getElem?_toList, cells]
        rcases Nat.lt_or_ge (index + 1) held.length with before | atEnd
        · rw [List.getElem?_append_left before]
        · have last : index + 1 = held.length := Nat.le_antisymm within atEnd
          simp [last, differs.symm]
      rw [cutAtLast, Sequences.cutAtLast]
      by_cases separates : held[index + 1]? = some separator
      · rw [if_pos (same.mpr separates), if_pos separates]
        obtain ⟨before, found⟩ := List.getElem?_eq_some_iff.mp separates
        have parts : buffer.cells.toList = held.take (index + 1) ++ held[index + 1] ::
            (held.drop (index + 2) ++ terminator :: rest) := by
          rw [cells, ← List.cons_append, ← List.drop_eq_getElem_cons, ← List.append_assoc,
            List.take_append_drop]
        obtain ⟨kept, stored⟩ := store_cells parts terminator
        rw [List.length_take, Nat.min_eq_left within] at kept stored
        refine text_eq_some.mpr ⟨kept.trans inside, ?_, _, stored⟩
        exact fun member => absent (List.mem_of_mem_take member)
      · rw [if_neg (fun found => separates (same.mp found)), if_neg separates]
        exact inductionHypothesis (Nat.le_of_succ_le within)

end TextBuffer
end DDSFunctionGen.Sequences

import Mathlib.Data.List.Basic

/-!
# Blocks of one size laid end to end

Blocks of equal length, concatenated: where a block begins, which block an
element is in, and what a read inside one block or over whole blocks takes.
-/

namespace DDSFunctionGen.Sequences

universe u

variable {α : Type u} {size : Nat} {blocks : List (List α)}

/-- Every block has this length. -/
def Uniform (size : Nat) (blocks : List (List α)) : Prop :=
  ∀ block ∈ blocks, block.length = size

namespace Uniform

theorem tail {block : List α} (uniform : Uniform size (block :: blocks)) : Uniform size blocks :=
  fun later member => uniform later (List.mem_cons_of_mem block member)

/-- Blocks made of the elements of a list. -/
theorem map {β : Type u} {block : β → List α} {list : List β}
    (uniform : ∀ element ∈ list, (block element).length = size) : Uniform size (list.map block) := by
  intro made member
  obtain ⟨element, inList, rfl⟩ := List.mem_map.mp member
  exact uniform element inList

theorem length_flatten (uniform : Uniform size blocks) :
    blocks.flatten.length = size * blocks.length := by
  induction blocks with
  | nil => rfl
  | cons block rest inductionHypothesis =>
      rw [List.flatten_cons, List.length_append, uniform block List.mem_cons_self,
        inductionHypothesis uniform.tail, List.length_cons, Nat.mul_succ, Nat.add_comm]

/-- Block `i` begins at `size * i`. -/
theorem drop_flatten (uniform : Uniform size blocks) (i : Nat) :
    blocks.flatten.drop (size * i) = (blocks.drop i).flatten := by
  induction i generalizing blocks with
  | zero => rfl
  | succ i inductionHypothesis =>
      cases blocks with
      | nil => simp
      | cons block rest =>
          have first := uniform block List.mem_cons_self
          rw [List.drop_succ_cons, ← inductionHypothesis uniform.tail, List.flatten_cons,
            Nat.mul_succ, Nat.add_comm, ← List.drop_drop, ← first, List.drop_left]

/-- The first `count` blocks. -/
theorem take_flatten (uniform : Uniform size blocks) (count : Nat) :
    blocks.flatten.take (size * count) = (blocks.take count).flatten := by
  induction count generalizing blocks with
  | zero => simp
  | succ count inductionHypothesis =>
      cases blocks with
      | nil => simp
      | cons block rest =>
          have first := uniform block List.mem_cons_self
          rw [List.take_succ_cons, List.flatten_cons, List.flatten_cons,
            ← inductionHypothesis uniform.tail, Nat.mul_succ, Nat.add_comm, ← first,
            List.take_length_add_append]

/-- Whole blocks from block `i` on. -/
theorem flatten_blocks (uniform : Uniform size blocks) (i count : Nat) :
    (blocks.flatten.drop (size * i)).take (size * count) =
      ((blocks.drop i).take count).flatten := by
  have rest : Uniform size (blocks.drop i) := fun block member =>
    uniform block (List.mem_of_mem_drop member)
  rw [uniform.drop_flatten, rest.take_flatten]

/-- A part of one block. -/
theorem flatten_within (uniform : Uniform size blocks) {i : Nat} {block : List α}
    (isBlock : blocks[i]? = some block) {offset count : Nat} (fits : offset + count ≤ size) :
    (blocks.flatten.drop (size * i + offset)).take count = (block.drop offset).take count := by
  obtain ⟨inside, rfl⟩ := List.getElem?_eq_some_iff.mp isBlock
  have length : blocks[i].length = size := uniform blocks[i] (List.getElem_mem inside)
  rw [← List.drop_drop, uniform.drop_flatten, List.drop_eq_getElem_cons inside,
    List.flatten_cons, List.drop_append_of_le_length (by omega),
    List.take_append_of_le_length (by rw [List.length_drop]; omega)]

/-- The element at a position. -/
theorem getElem?_flatten (uniform : Uniform size blocks) {i : Nat} {block : List α}
    (isBlock : blocks[i]? = some block) {offset : Nat} (fits : offset < size) :
    blocks.flatten[size * i + offset]? = block[offset]? := by
  have enough : offset + 1 ≤ size := fits
  have part := uniform.flatten_within isBlock enough
  have first := congrArg (·[0]?) part
  simpa [List.getElem?_take, List.getElem?_drop] using first

end Uniform
end DDSFunctionGen.Sequences

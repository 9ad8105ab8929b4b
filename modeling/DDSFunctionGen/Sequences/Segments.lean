import Mathlib.Algebra.Ring.Nat
import Mathlib.Data.List.Induction

/-!
# Paths as separated segments

A path is a list of symbols; its segments are the maximal runs between
separators, empty runs skipped. `joined` puts one separator before each name,
and `cutAtLast` removes the last separator with what follows it.
-/

namespace DDSFunctionGen.Sequences

universe u

variable {α : Type u} (separator : α)

/-- Every name after a separator of its own. -/
def joined (names : List (List α)) : List α := names.flatMap (separator :: ·)

variable {separator}

@[simp] theorem joined_snoc (front : List (List α)) (name : List α) :
    joined separator (front ++ [name]) = joined separator front ++ separator :: name := by
  simp [joined]

/-- Each name takes its symbols and a separator. -/
theorem length_joined (names : List (List α)) :
    (joined separator names).length = (names.map fun name => name.length + 1).sum := by
  simp [joined, List.length_flatMap]

variable [DecidableEq α] (separator)

/-- The segments of a path, `current` being the run read so far. -/
def segmentsFrom (current : List α) : List α → List (List α)
  | [] => if current = [] then [] else [current]
  | symbol :: rest =>
      if symbol = separator then
        (if current = [] then [] else [current]) ++ segmentsFrom [] rest
      else segmentsFrom (current ++ [symbol]) rest

/-- The segments of a path. -/
def segments (path : List α) : List (List α) := segmentsFrom separator [] path

/-- A name that is one segment. -/
structure Plain (name : List α) : Prop where
  nonempty : name ≠ []
  unseparated : separator ∉ name

/-- The path cut at its last separator at an index in `1 .. index`. -/
def cutAtLast (path : List α) : Nat → List α
  | 0 => path
  | index + 1 =>
      if path[index + 1]? = some separator then path.take (index + 1) else cutAtLast path index

variable {separator}

theorem segmentsFrom_append (current first second : List α) :
    segmentsFrom separator current (first ++ separator :: second) =
      segmentsFrom separator current first ++ segments separator second := by
  induction first generalizing current with
  | nil => simp [segmentsFrom, segments]
  | cons symbol rest inductionHypothesis =>
      by_cases separates : symbol = separator
      · simp [segmentsFrom, separates, inductionHypothesis]
      · simp [segmentsFrom, separates, inductionHypothesis]

/-- A separator ends the segments before it. -/
theorem segments_append (first second : List α) :
    segments separator (first ++ separator :: second) =
      segments separator first ++ segments separator second :=
  segmentsFrom_append [] first second

@[simp] theorem segments_nil : segments separator [] = [] := by
  simp [segments, segmentsFrom]

theorem segmentsFrom_of_unseparated {name : List α} (unseparated : separator ∉ name)
    (current : List α) :
    segmentsFrom separator current name =
      if current ++ name = [] then [] else [current ++ name] := by
  induction name generalizing current with
  | nil => simp [segmentsFrom]
  | cons symbol rest inductionHypothesis =>
      rw [List.mem_cons, not_or] at unseparated
      have differs : ¬ symbol = separator := fun same => unseparated.1 same.symm
      simp [segmentsFrom, differs, inductionHypothesis unseparated.2]

/-- A plain name is its own only segment. -/
theorem segments_of_plain {name : List α} (plain : Plain separator name) :
    segments separator name = [name] := by
  rw [segments, segmentsFrom_of_unseparated plain.unseparated, List.nil_append,
    if_neg plain.nonempty]

@[simp] theorem segments_separator (path : List α) :
    segments separator (separator :: path) = segments separator path := by
  simp [segments, segmentsFrom]

/-- Appending a separated plain name appends one segment. -/
theorem segments_snoc (path : List α) {name : List α} (plain : Plain separator name) :
    segments separator (path ++ separator :: name) = segments separator path ++ [name] := by
  rw [segments_append, segments_of_plain plain]

/-- The segments of joined names are those names. -/
theorem segments_joined {names : List (List α)}
    (plain : ∀ name ∈ names, Plain separator name) :
    segments separator (joined separator names) = names := by
  induction names using List.reverseRecOn with
  | nil => rfl
  | append_singleton front name inductionHypothesis =>
      have frontPlain : ∀ other ∈ front, Plain separator other :=
        fun other member => plain other (List.mem_append_left _ member)
      rw [joined_snoc, segments_snoc _ (plain name (by simp)), inductionHypothesis frontPlain]

/-- Cutting removes the last separated name. -/
theorem cutAtLast_snoc {front name : List α} (nonempty : front ≠ [])
    (unseparated : separator ∉ name) {index : Nat} (reaches : front.length ≤ index) :
    cutAtLast separator (front ++ separator :: name) index = front := by
  induction index with
  | zero => exact absurd (List.length_eq_zero_iff.mp (Nat.le_zero.mp reaches)) nonempty
  | succ index inductionHypothesis =>
      by_cases atSeparator : front.length = index + 1
      · simp [cutAtLast, ← atSeparator]
      · have after : (front ++ separator :: name)[index + 1]? = name[index - front.length]? := by
          rw [List.getElem?_append_right (by omega),
            show index + 1 - front.length = index - front.length + 1 by omega,
            List.getElem?_cons_succ]
        have other : ¬ name[index - front.length]? = some separator :=
          fun found => unseparated (List.mem_of_getElem? found)
        rw [cutAtLast, after, if_neg other]
        exact inductionHypothesis (by omega)

/-- Without a separator after its first symbol a path is kept. -/
theorem cutAtLast_of_unseparated {path : List α} (unseparated : separator ∉ path.tail)
    (index : Nat) : cutAtLast separator path index = path := by
  induction index with
  | zero => rfl
  | succ index inductionHypothesis =>
      have other : ¬ path[index + 1]? = some separator := by
        intro found
        rw [← List.getElem?_tail] at found
        exact unseparated (List.mem_of_getElem? found)
      rw [cutAtLast, if_neg other, inductionHypothesis]

end DDSFunctionGen.Sequences

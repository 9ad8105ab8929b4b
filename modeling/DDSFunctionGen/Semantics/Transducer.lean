/-!
# Transducers

A transducer answers every input with one output. `transfer` feeds it a list of
inputs, and `Presents` says which outputs it gives while one and the same input
is repeated.
-/

namespace DDSFunctionGen.Semantics

universe u v w

variable {State : Type u} {Input : Type v} {Output : Type w}
  {respond : State → Input → Output × State}

/-- The outputs for a list of inputs, and the state after them. -/
def transfer (respond : State → Input → Output × State) (state : State) :
    List Input → List Output × State
  | [] => ([], state)
  | input :: rest =>
      ((respond state input).1 :: (transfer respond (respond state input).2 rest).1,
        (transfer respond (respond state input).2 rest).2)

@[simp] theorem transfer_nil (state : State) : transfer respond state [] = ([], state) := rfl

@[simp] theorem transfer_cons (state : State) (input : Input) (rest : List Input) :
    transfer respond state (input :: rest) =
      ((respond state input).1 :: (transfer respond (respond state input).2 rest).1,
        (transfer respond (respond state input).2 rest).2) := rfl

@[simp] theorem transfer_length (state : State) (inputs : List Input) :
    (transfer respond state inputs).1.length = inputs.length := by
  induction inputs generalizing state with
  | nil => rfl
  | cons input rest inductionHypothesis => simp [inductionHypothesis]

theorem transfer_append (state : State) (first second : List Input) :
    transfer respond state (first ++ second) =
      ((transfer respond state first).1 ++
          (transfer respond (transfer respond state first).2 second).1,
        (transfer respond (transfer respond state first).2 second).2) := by
  induction first generalizing state with
  | nil => rfl
  | cons input rest inductionHypothesis => simp [inductionHypothesis]

/-- The state after `count` times the same input. -/
def stateAfter (respond : State → Input → Output × State) (input : Input) (count : Nat)
    (state : State) : State :=
  (transfer respond state (List.replicate count input)).2

/-- The outputs given while `input` is repeated. -/
def Presents (respond : State → Input → Output × State) (input : Input) (state : State)
    (outputs : List Output) : Prop :=
  (transfer respond state (List.replicate outputs.length input)).1 = outputs

variable {input : Input} {state : State} {first second : List Output}

theorem stateAfter_add (before after : Nat) :
    stateAfter respond input (before + after) state =
      stateAfter respond input after (stateAfter respond input before state) := by
  rw [stateAfter, ← List.replicate_append_replicate, transfer_append]
  rfl

theorem presents_cons {output : Output} :
    Presents respond input state (output :: first) ↔
      (respond state input).1 = output ∧ Presents respond input (respond state input).2 first := by
  simp [Presents, List.replicate_succ]

theorem presents_append :
    Presents respond input state (first ++ second) ↔
      Presents respond input state first ∧
        Presents respond input (stateAfter respond input first.length state) second := by
  rw [Presents, List.length_append, ← List.replicate_append_replicate, transfer_append]
  constructor
  · intro both
    exact List.append_inj both (by simp)
  · rintro ⟨before, after⟩
    exact (congrArg (· ++ _) before).trans (congrArg (first ++ ·) after)

end DDSFunctionGen.Semantics

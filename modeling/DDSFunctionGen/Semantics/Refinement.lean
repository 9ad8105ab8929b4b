import DDSFunctionGen.Semantics.Transducer

/-!
# Refinement of a transducer by what may be answered

A specification says which answers are allowed to an input and what each leaves behind.
A transducer refines it when a relation between the states is kept by every input that
the specification expects.
-/

namespace DDSFunctionGen.Semantics

universe u v w x y

variable {State : Type u} {Input : Type v} {Output : Type w} {Spec : Type x} {Answer : Type y}
  {respond : State → Input → Output × State} {Step : Spec → Input → Answer → Spec → Prop}

/-- The answers are allowed to the inputs, one after the other. -/
inductive Answers (Step : Spec → Input → Answer → Spec → Prop) :
    Spec → List Input → List Answer → Prop where
  | nil (spec : Spec) : Answers Step spec [] []
  | cons {spec next : Spec} {input : Input} {answer : Answer} {inputs : List Input}
      {answers : List Answer} (step : Step spec input answer next)
      (later : Answers Step next inputs answers) :
      Answers Step spec (input :: inputs) (answer :: answers)

/-- Each input is expected in every state that the allowed answers before it may leave. -/
def Expects (Step : Spec → Input → Answer → Spec → Prop) (Expected : Spec → Input → Prop) :
    Spec → List Input → Prop
  | _, [] => True
  | spec, input :: rest =>
      Expected spec input ∧
        ∀ answer next, Step spec input answer next → Expects Step Expected next rest

/-- A transducer whose expected inputs keep a relation to the specification gives allowed
answers. -/
theorem transfer_refines {Related : State → Spec → Prop} {Expected : Spec → Input → Prop}
    (view : Output → Answer)
    (keeps : ∀ state spec input, Related state spec → Expected spec input → ∃ next,
      Step spec input (view (respond state input).1) next ∧ Related (respond state input).2 next)
    {state : State} {spec : Spec} (related : Related state spec) {inputs : List Input}
    (expected : Expects Step Expected spec inputs) :
    Answers Step spec inputs ((transfer respond state inputs).1.map view) := by
  induction inputs generalizing state spec with
  | nil => exact .nil spec
  | cons input rest inductionHypothesis =>
      obtain ⟨first, later⟩ := expected
      obtain ⟨next, step, kept⟩ := keeps state spec input related first
      exact .cons step (inductionHypothesis kept (later _ next step))

/-- The inputs that are expected along the one run of a specification by a function. -/
def ExpectsAlong (specify : Spec → Input → Answer × Spec) (Expected : Spec → Input → Prop) :
    Spec → List Input → Prop
  | _, [] => True
  | spec, input :: rest =>
      Expected spec input ∧ ExpectsAlong specify Expected (specify spec input).2 rest

theorem expectsAlong_append {specify : Spec → Input → Answer × Spec}
    {Expected : Spec → Input → Prop} (spec : Spec) (first second : List Input) :
    ExpectsAlong specify Expected spec (first ++ second) ↔
      ExpectsAlong specify Expected spec first ∧
        ExpectsAlong specify Expected (transfer specify spec first).2 second := by
  induction first generalizing spec with
  | nil => exact (and_iff_right trivial).symm
  | cons input rest inductionHypothesis =>
      exact (and_congr_right fun _ => inductionHypothesis _).trans and_assoc.symm

section Deterministic

variable {specify : Spec → Input → Answer × Spec}
  (only : ∀ spec input answer next, Step spec input answer next →
    (answer, next) = specify spec input)
include only

/-- The only answers to a specification that allows one are its own. -/
theorem Answers.eq_transfer {spec : Spec} {inputs : List Input} {answers : List Answer}
    (allowed : Answers Step spec inputs answers) : answers = (transfer specify spec inputs).1 := by
  induction allowed with
  | nil => rfl
  | cons step _ inductionHypothesis =>
      rw [transfer_cons, ← only _ _ _ _ step, inductionHypothesis]

/-- Then the inputs have to be expected along its run only. -/
theorem ExpectsAlong.expects {Expected : Spec → Input → Prop} {spec : Spec} {inputs : List Input}
    (along : ExpectsAlong specify Expected spec inputs) : Expects Step Expected spec inputs := by
  induction inputs generalizing spec with
  | nil => trivial
  | cons input rest inductionHypothesis =>
      refine ⟨along.1, fun answer next step => ?_⟩
      obtain rfl : next = (specify spec input).2 := congrArg Prod.snd (only _ _ _ _ step)
      exact inductionHypothesis along.2

end Deterministic

section Always

variable {Expected : Spec → Input → Prop} {inputs : List Input}
  (always : ∀ input ∈ inputs, ∀ spec, Expected spec input)
include always

/-- Inputs that are expected in every state. -/
theorem Expects.of_forall (spec : Spec) : Expects Step Expected spec inputs := by
  induction inputs generalizing spec with
  | nil => trivial
  | cons input rest inductionHypothesis =>
      obtain ⟨first, later⟩ := List.forall_mem_cons.mp always
      exact ⟨first spec, fun _ next _ => inductionHypothesis later next⟩

theorem ExpectsAlong.of_forall (specify : Spec → Input → Answer × Spec) (spec : Spec) :
    ExpectsAlong specify Expected spec inputs := by
  induction inputs generalizing spec with
  | nil => trivial
  | cons input rest inductionHypothesis =>
      obtain ⟨first, later⟩ := List.forall_mem_cons.mp always
      exact ⟨first spec, inductionHypothesis later _⟩

end Always

end DDSFunctionGen.Semantics

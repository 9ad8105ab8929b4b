/-!
# Finite executions of a deterministic step function

`run` folds a step function over a list of events and `Along` states a
condition at every step of such a run, on the state before the step and the
event taken. An inductive invariant lifts a condition of single steps to whole
runs; `along_iff_of_invariant` lifts an exact condition in both directions.
-/

namespace DDSFunctionGen.Semantics

universe u v

variable {State : Type u} {Event : Type v} {step : State → Event → State}

/-- The state reached from `state` by a list of events. -/
def run (step : State → Event → State) (state : State) : List Event → State
  | [] => state
  | event :: rest => run step (step state event) rest

/-- The state that a sequence of events has reached after a number of them. -/
def stateAt (step : State → Event → State) (state : State) (events : Nat → Event) : Nat → State
  | 0 => state
  | count + 1 => step (stateAt step state events count) (events count)

/-- Some number of events takes one state to the other, whatever the events. -/
def Reaches (step : State → Event → State) (first second : State) : Prop :=
  ∃ count, ∀ events : List Event, events.length = count → run step first events = second

/-- `condition` holds at every step of the run, before the step is taken. -/
def Along (step : State → Event → State) (condition : State → Event → Prop)
    (state : State) : List Event → Prop
  | [] => True
  | event :: rest => condition state event ∧ Along step condition (step state event) rest

@[simp] theorem run_nil (state : State) : run step state [] = state := rfl

@[simp] theorem run_cons (state : State) (event : Event) (rest : List Event) :
    run step state (event :: rest) = run step (step state event) rest := rfl

@[simp] theorem run_append (state : State) (first second : List Event) :
    run step state (first ++ second) = run step (run step state first) second := by
  induction first generalizing state with
  | nil => rfl
  | cons event rest inductionHypothesis => exact inductionHypothesis (step state event)

/-- A run of an event that may not take place. -/
theorem run_optional (state : State) (event : Event) (condition : Prop) [Decidable condition] :
    run step state (if condition then [event] else []) =
      if condition then step state event else state := by
  split
  · rfl
  · rfl

theorem Reaches.refl (state : State) : Reaches step state state :=
  ⟨0, fun events empty => by rw [List.length_eq_zero_iff.mp empty, run_nil]⟩

/-- A step that does not depend on its event. -/
theorem Reaches.of_step {first second : State} (steps : ∀ event, step first event = second) :
    Reaches step first second := by
  refine ⟨1, fun events single => ?_⟩
  obtain ⟨event, rfl⟩ := List.length_eq_one_iff.mp single
  exact steps event

theorem Reaches.trans {first middle last : State} (before : Reaches step first middle)
    (after : Reaches step middle last) : Reaches step first last := by
  obtain ⟨countBefore, before⟩ := before
  obtain ⟨countAfter, after⟩ := after
  refine ⟨countBefore + countAfter, fun events total => ?_⟩
  rw [← List.take_append_drop countBefore events, run_append, before _ (by simp [total]),
    after _ (by simp [total])]

@[simp] theorem along_nil (condition : State → Event → Prop) (state : State) :
    Along step condition state [] := trivial

@[simp] theorem along_cons (condition : State → Event → Prop) (state : State) (event : Event)
    (rest : List Event) :
    Along step condition state (event :: rest) ↔
      condition state event ∧ Along step condition (step state event) rest := Iff.rfl

theorem along_optional {condition : State → Event → Prop} (state : State) (event : Event)
    (takesPlace : Prop) [Decidable takesPlace] :
    Along step condition state (if takesPlace then [event] else []) ↔
      (takesPlace → condition state event) := by
  split
  · rename_i holds
    simp [holds]
  · rename_i fails
    simp [fails]

/-- A condition along a concatenated run splits at the meeting state. -/
theorem along_append {condition : State → Event → Prop} (state : State)
    (first second : List Event) :
    Along step condition state (first ++ second) ↔
      Along step condition state first ∧
        Along step condition (run step state first) second := by
  induction first generalizing state with
  | nil => simp
  | cons event rest inductionHypothesis =>
      simp [inductionHypothesis (step state event), and_assoc]

/-- An invariant preserved by the steps a run takes holds at its end. -/
theorem run_invariant {Invariant : State → Prop} {Guard : State → Event → Prop}
    (preserved : ∀ state event, Invariant state → Guard state event →
      Invariant (step state event))
    {state : State} {events : List Event} (initial : Invariant state)
    (guarded : Along step Guard state events) : Invariant (run step state events) := by
  induction events generalizing state with
  | nil => exact initial
  | cons event rest inductionHypothesis =>
      exact inductionHypothesis (preserved state event initial guarded.1) guarded.2

/-- Where every guarded step from a sound state is a step of the abstract machine,
every guarded run is one of its runs. -/
theorem run_refines {Abstract : Type u} (Sound : State → Prop) (abstraction : State → Abstract)
    (abstractStep : Abstract → Event → Abstract) {Guard : Event → Prop}
    (refines : ∀ state event, Sound state → Guard event → Sound (step state event) ∧
      abstraction (step state event) = abstractStep (abstraction state) event)
    {state : State} {events : List Event} (sound : Sound state)
    (guarded : ∀ event ∈ events, Guard event) :
    Sound (run step state events) ∧
      abstraction (run step state events) = run abstractStep (abstraction state) events := by
  induction events generalizing state with
  | nil => exact ⟨sound, rfl⟩
  | cons event rest inductionHypothesis =>
      obtain ⟨stillSound, same⟩ := refines state event sound (guarded event List.mem_cons_self)
      rw [run_cons, run_cons, ← same]
      apply inductionHypothesis stillSound
      exact fun later member => guarded later (List.mem_cons_of_mem event member)

/-- A condition implied at every step by the invariant and the guard holds along
every guarded run. -/
theorem along_of_invariant {Invariant : State → Prop} {Guard condition : State → Event → Prop}
    (preserved : ∀ state event, Invariant state → Guard state event →
      Invariant (step state event))
    (implied : ∀ state event, Invariant state → Guard state event → condition state event)
    {state : State} {events : List Event} (initial : Invariant state)
    (guarded : Along step Guard state events) : Along step condition state events := by
  induction events generalizing state with
  | nil => trivial
  | cons event rest inductionHypothesis =>
      exact ⟨implied state event initial guarded.1,
        inductionHypothesis (preserved state event initial guarded.1) guarded.2⟩

/-- Where the guard is exactly what one step needs, it is exactly what a run
needs. -/
theorem along_iff_of_invariant {Invariant : State → Prop}
    {Guard condition : State → Event → Prop}
    (preserved : ∀ state event, Invariant state → Guard state event →
      Invariant (step state event))
    (exact : ∀ state event, Invariant state → (condition state event ↔ Guard state event))
    {state : State} {events : List Event} (initial : Invariant state) :
    Along step condition state events ↔ Along step Guard state events := by
  induction events generalizing state with
  | nil => exact Iff.rfl
  | cons event rest inductionHypothesis =>
      rw [along_cons, along_cons, exact state event initial]
      refine and_congr_right fun guarded => ?_
      exact inductionHypothesis (preserved state event initial guarded)

/-- A condition that the listed events meet in every state holds along the run. -/
theorem along_of_mem {condition : State → Event → Prop} {state : State} {events : List Event}
    (meets : ∀ event ∈ events, ∀ state, condition state event) :
    Along step condition state events := by
  induction events generalizing state with
  | nil => trivial
  | cons event rest inductionHypothesis =>
      refine ⟨meets event List.mem_cons_self state, inductionHypothesis fun later member => ?_⟩
      exact meets later (List.mem_cons_of_mem event member)

/-- Two conditions along a run hold together. -/
theorem Along.and {first second : State → Event → Prop} {state : State} {events : List Event}
    (holdsFirst : Along step first state events) (holdsSecond : Along step second state events) :
    Along step (fun state event => first state event ∧ second state event) state events := by
  induction events generalizing state with
  | nil => trivial
  | cons event rest inductionHypothesis =>
      exact ⟨⟨holdsFirst.1, holdsSecond.1⟩, inductionHypothesis holdsFirst.2 holdsSecond.2⟩

/-- Every step of an unguarded run meets the trivial guard. -/
theorem along_true (state : State) (events : List Event) :
    Along step (fun _ _ => True) state events := by
  induction events generalizing state with
  | nil => trivial
  | cons event rest inductionHypothesis => exact ⟨trivial, inductionHypothesis (step state event)⟩

/-- The last step of a run meets every condition that holds along it. -/
theorem Along.last {condition : State → Event → Prop} {state : State} {events : List Event}
    {event : Event} (holds : Along step condition state (events ++ [event])) :
    condition (run step state events) event :=
  ((along_append state events [event]).mp holds).2.1

end DDSFunctionGen.Semantics

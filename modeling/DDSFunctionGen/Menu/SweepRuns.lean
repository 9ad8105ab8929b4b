import DDSFunctionGen.Menu.Ranges
import DDSFunctionGen.Menu.SweepCompute

/-!
# What happens to the variables of a sweep

`Compute`, the ON button, edits of the parameters of a sweep, and edits of the
variables made elsewhere. The events of the menu amount to runs of these, and the
two channels do not interfere.
-/

namespace DDSFunctionGen.Menu

open DDSFunctionGen.Semantics
open Relation

/-- What happens to the variables of a sweep: `Compute` runs, ON is pressed, the
parameters of a sweep are edited, or the variables of a channel are, elsewhere. -/
inductive SweepEvent (F : Type) where
  | compute
  | toggle (channel : Channel)
  | parameters (channel : Channel) (change : SweepVariables F → SweepVariables F)
  | edit (channel : Channel) (change : DDSVariables F → DDSVariables F)

/-- ON is pressed for the channel. -/
def SweepEvent.toggles {F : Type} (channel : Channel) : SweepEvent F → Bool
  | .toggle toggled => toggled = channel
  | .compute | .parameters _ _ | .edit _ _ => false

variable {F : Type} [CFloat F]

namespace MenuState

/-- One event. Editing the parameters leaves the sweep on or off. -/
def sweepStep (menu : MenuState F) : SweepEvent F → MenuState F
  | .compute => menu.compute
  | .toggle channel =>
      { menu with globals := menu.globals.setSweep channel (menu.globals.sweep channel).toggle }
  | .parameters channel change =>
      let sweep := menu.globals.sweep channel
      { menu with globals := menu.globals.setSweep channel { change sweep with on := sweep.on } }
  | .edit channel change => menu.modifyDDS channel change

/-- The two agree on the variables of a channel and what is saved of them. -/
structure AgreesOn (channel : Channel) (menu other : MenuState F) : Prop where
  dds : menu.globals.dds channel = other.globals.dds channel
  sweep : menu.globals.sweep channel = other.globals.sweep channel
  saved : menu.savedDDSVariables channel = other.savedDDSVariables channel

/-- One event treats a channel the same in menus that agree on it. -/
theorem AgreesOn.step {channel : Channel} {menu other : MenuState F}
    (agrees : AgreesOn channel menu other) (event : SweepEvent F) :
    AgreesOn channel (menu.sweepStep event) (other.sweepStep event) := by
  cases event with
  | compute =>
      rw [sweepStep, sweepStep, compute_channelwise, compute_channelwise]
      refine ⟨?_, agrees.sweep, ?_⟩
      · simp only [agrees.dds, agrees.sweep, agrees.saved]
      · simp only [agrees.dds, agrees.sweep, agrees.saved]
  | toggle toggled =>
      refine ⟨agrees.dds, ?_, agrees.saved⟩
      simp only [sweepStep, Globals.setSweep]
      split_ifs with same
      · rw [← same, agrees.sweep]
      · exact agrees.sweep
  | parameters edited change =>
      refine ⟨agrees.dds, ?_, agrees.saved⟩
      simp only [sweepStep, Globals.setSweep]
      split_ifs with same
      · rw [← same, agrees.sweep]
      · exact agrees.sweep
  | edit edited change =>
      refine ⟨?_, agrees.sweep, agrees.saved⟩
      simp only [sweepStep, modifyDDS, Globals.setDDS]
      split_ifs with same
      · rw [← same, agrees.dds]
      · exact agrees.dds

/-- A toggle of one channel does not touch the other. -/
theorem AgreesOn.toggle {channel toggled : Channel} {menu other : MenuState F}
    (agrees : AgreesOn channel menu other) (another : channel ≠ toggled) :
    AgreesOn channel (menu.sweepStep (.toggle toggled)) other := by
  refine ⟨agrees.dds, ?_, agrees.saved⟩
  simp only [sweepStep, Globals.setSweep, if_neg another]
  exact agrees.sweep

/-- Without the toggles of another channel, a run leaves a channel the same. -/
theorem AgreesOn.run {channel toggled : Channel} {menu other : MenuState F}
    (agrees : AgreesOn channel menu other) (another : channel ≠ toggled)
    (events : List (SweepEvent F)) :
    AgreesOn channel (Semantics.run sweepStep menu events)
      (Semantics.run sweepStep other (events.filter fun event => !event.toggles toggled)) := by
  induction events generalizing menu other with
  | nil => exact agrees
  | cons event rest inductionHypothesis =>
      cases toggles : event.toggles toggled with
      | false =>
          rw [List.filter_cons_of_pos (by rw [toggles]; rfl)]
          exact inductionHypothesis (agrees.step event)
      | true =>
          rw [List.filter_cons_of_neg (by rw [toggles]; decide)]
          refine inductionHypothesis ?_
          cases event with
          | toggle other =>
              obtain rfl : other = toggled := of_decide_eq_true toggles
              exact agrees.toggle another
          | compute | parameters | edit => exact nomatch toggles

omit [CFloat F] in
theorem AgreesOn.trans {channel : Channel} {first second third : MenuState F}
    (left : AgreesOn channel first second) (right : AgreesOn channel second third) :
    AgreesOn channel first third :=
  ⟨left.dds.trans right.dds, left.sweep.trans right.sweep, left.saved.trans right.saved⟩

/-! ## The menu as a source of these events -/

/-- A write is an edit of the variables or of a sweep, or a toggle. -/
theorem write_simulated (menu : MenuState F) {before after : Globals F}
    (write : Write before after) :
    ∃ events, ∀ channel, AgreesOn channel { menu with globals := after }
      (Semantics.run sweepStep { menu with globals := before } events) := by
  cases write with
  | value ref revises =>
      rename_i value
      cases ref with
      | dds channel field =>
          exact ⟨[.edit channel fun dds => dds.setValue field value], fun _ => ⟨rfl, rfl, rfl⟩⟩
      | sweep channel field =>
          refine ⟨[.parameters channel fun sweep => sweep.setValue field value], fun other => ?_⟩
          refine ⟨rfl, ?_, rfl⟩
          simp only [run_cons, run_nil, sweepStep, Globals.setValue,
            ← SweepVariables.setValue_on (before.sweep channel) field value]
      | backlight => exact ⟨[], fun _ => ⟨rfl, rfl, rfl⟩⟩
  | outputEmpedance channel value =>
      refine ⟨[.edit channel fun dds => { dds with
        outputEmpedance := addToStringArray dds.outputEmpedance value }], fun _ => ⟨rfl, rfl, rfl⟩⟩
  | switches channel switches =>
      rename_i dds
      exact ⟨[.edit channel fun _ => dds], fun _ => ⟨rfl, rfl, rfl⟩⟩
  | sweep channel => exact ⟨[.toggle channel], fun _ => ⟨rfl, rfl, rfl⟩⟩

theorem AgreesOn.runs {menu other : MenuState F} (agrees : ∀ channel, AgreesOn channel menu other)
    (events : List (SweepEvent F)) (channel : Channel) :
    AgreesOn channel (Semantics.run sweepStep menu events)
      (Semantics.run sweepStep other events) := by
  induction events generalizing menu other with
  | nil => exact agrees channel
  | cons event rest inductionHypothesis =>
      exact inductionHypothesis fun channel => (agrees channel).step event

theorem writes_simulated (menu : MenuState F) {after : Globals F}
    (writes : ReflTransGen Write menu.globals after) :
    ∃ events, ∀ channel, AgreesOn channel { menu with globals := after }
      (Semantics.run sweepStep menu events) := by
  induction writes with
  | refl => exact ⟨[], fun _ => ⟨rfl, rfl, rfl⟩⟩
  | tail _ write inductionHypothesis =>
      obtain ⟨before, reached⟩ := inductionHypothesis
      obtain ⟨last, written⟩ := menu.write_simulated write
      refine ⟨before ++ last, fun channel => ?_⟩
      rw [run_append]
      exact (written channel).trans (AgreesOn.runs reached last channel)

/-- An event of the menu does to the variables what some of these events do. -/
theorem step_simulated (card : SdCard.Card) (menu : MenuState F) (event : MenuEvent) :
    ∃ events, ∀ channel, AgreesOn channel (menu.step card event)
      (Semantics.run sweepStep menu events) := by
  rcases menu.step_computes_or_writes card event with ⟨-, -, globals, saved⟩ | writes
  · refine ⟨[.compute], fun channel => ⟨?_, ?_, ?_⟩⟩
    · exact congrArg (fun globals => globals.dds channel) globals
    · exact congrArg (fun globals => globals.sweep channel) globals
    · exact congrFun saved channel
  · obtain ⟨events, simulated⟩ := menu.writes_simulated writes.globals
    refine ⟨events, fun channel => ?_⟩
    have written : AgreesOn channel (menu.step card event)
        { menu with globals := (menu.step card event).globals } :=
      ⟨rfl, rfl, congrFun writes.saved channel⟩
    exact written.trans (simulated channel)

/-- Every run of the menu is, on the variables, a run of these events. -/
theorem menu_simulated (card : SdCard.Card) (menu : MenuState F) (events : List MenuEvent) :
    ∃ sweepEvents, ∀ channel, AgreesOn channel (Semantics.run (step card) menu events)
      (Semantics.run sweepStep menu sweepEvents) := by
  induction events generalizing menu with
  | nil => exact ⟨[], fun _ => ⟨rfl, rfl, rfl⟩⟩
  | cons event rest inductionHypothesis =>
      obtain ⟨first, stepped⟩ := menu.step_simulated card event
      obtain ⟨later, reached⟩ := inductionHypothesis (menu.step card event)
      refine ⟨first ++ later, fun channel => ?_⟩
      rw [run_append, run_cons]
      exact (reached channel).trans (AgreesOn.runs stepped later channel)

end MenuState

end DDSFunctionGen.Menu

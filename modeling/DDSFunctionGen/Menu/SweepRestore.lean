import DDSFunctionGen.Menu.SweepRuns

/-!
# Turning a sweep off

`Compute` saves the variables of a channel as a sweep is first applied to it and
copies all of them back as the sweep is off again. Between the two, the other
pages and `ISR_btnEnable` edit the same variables.
-/

namespace DDSFunctionGen.Menu

open DDSFunctionGen.Semantics

/-- The variables with the five that a sweep overwrites taken from the second. -/
def DDSVariables.withSwept {F : Type} (dds swept : DDSVariables F) : DDSVariables F :=
  { dds with
    frequency := swept.frequency
    fmFrequencyDeviation := swept.fmFrequencyDeviation
    fmModulationFrequency := swept.fmModulationFrequency
    fmModulationWaveType := swept.fmModulationWaveType
    fmModulationON := swept.fmModulationON }

variable {F : Type} [CFloat F]

/-- A run of a sweep, with the variables each channel had as its sweep was first
applied. -/
structure SweepSession (F : Type) where
  menu : MenuState F
  applied : Channel → Bool
  before : Channel → DDSVariables F

namespace SweepSession

open MenuState

/-- No sweep is applied at power-up. -/
def powerUp (rams : Firmware.LookupRams) : SweepSession F where
  menu := .powerUp rams
  applied _ := false
  before _ := ddsDefaults

/-- One event. A sweep is applied as `Compute` finds it on, for the first time
where it was not applied before. -/
def step (session : SweepSession F) (event : SweepEvent F) : SweepSession F :=
  let menu := session.menu.sweepStep event
  match event with
  | .compute =>
      { menu
        applied := fun channel => decide (session.menu.globals.sweep channel).isOn
        before := fun channel =>
          if (session.menu.globals.sweep channel).isOn ∧ session.applied channel = false then
            session.menu.globals.dds channel
          else session.before channel }
  | .toggle _ | .parameters _ _ | .edit _ _ => { session with menu }

/-- The event is the `Compute` that follows turning the channel's sweep off. -/
def TakesOff (session : SweepSession F) (channel : Channel) : SweepEvent F → Prop
  | .compute =>
      session.applied channel = true ∧ ¬ (session.menu.globals.sweep channel).isOn
  | .toggle _ | .parameters _ _ | .edit _ _ => False

/-- The fields the sweep overwrote are as before it, and the others as they are. -/
def Restores (session : SweepSession F) (event : SweepEvent F) : Prop :=
  ∀ channel, session.TakesOff channel event →
    (session.step event).menu.globals.dds channel =
      (session.menu.globals.dds channel).withSwept (session.before channel)

/-- The fields the sweep does not overwrite are as before it. -/
def EditsCancel (session : SweepSession F) (event : SweepEvent F) : Prop :=
  ∀ channel, session.TakesOff channel event →
    session.menu.globals.dds channel =
      (session.before channel).withSwept (session.menu.globals.dds channel)

/-- Turning a sweep off restores what it overwrote along the run, and a channel is
what it would be without the toggles of the other one. -/
def RestoresOnlySwept (session : SweepSession F) (events : List (SweepEvent F)) : Prop :=
  Along step Restores session events ∧
    ∀ channel other, other ≠ channel →
      AgreesOn other (run sweepStep session.menu events)
        (run sweepStep session.menu (events.filter fun event => !event.toggles channel))

/-- `Compute` has saved the variables of the channels whose sweep is applied. -/
def SavesBefore (session : SweepSession F) : Prop :=
  ∀ channel, session.menu.savedDDSVariables channel =
    if session.applied channel then some (session.before channel) else none

theorem SavesBefore.step {session : SweepSession F} (saves : session.SavesBefore)
    (event : SweepEvent F) : (session.step event).SavesBefore := by
  cases event with
  | toggle | parameters | edit => exact saves
  | compute =>
      intro channel
      simp only [SweepSession.step, sweepStep, compute_channelwise, computedSaved, saves channel]
      by_cases on : (session.menu.globals.sweep channel).isOn
      · cases applied : session.applied channel with
        | false => simp [on]
        | true => simp [on]
      · simp [on]

omit [CFloat F] in
theorem withSwept_symm {first second : DDSVariables F} (same : first = second.withSwept first) :
    second = first.withSwept second := by
  rw [same]
  rfl

/-- The `Compute` restores what it should exactly if the edits made since have
cancelled. -/
theorem SavesBefore.restores_iff {session : SweepSession F} (saves : session.SavesBefore)
    (event : SweepEvent F) : session.Restores event ↔ session.EditsCancel event := by
  refine forall_congr' fun channel => ?_
  cases event with
  | toggle | parameters | edit => exact iff_of_true False.elim False.elim
  | compute =>
      refine imp_congr_right fun ⟨applied, off⟩ => ?_
      have restored : (session.step .compute).menu.globals.dds channel = session.before channel := by
        simp only [SweepSession.step, sweepStep, compute_channelwise, computedDDS, if_neg off,
          saves channel, if_pos applied, Option.getD_some]
      rw [restored]
      exact ⟨withSwept_symm, withSwept_symm⟩

/-- From power-up, turning a sweep off restores only what turning it on took
exactly in the runs whose edits of the other fields cancel. -/
theorem restores_only_swept_iff (rams : Firmware.LookupRams) (events : List (SweepEvent F)) :
    (powerUp rams : SweepSession F).RestoresOnlySwept events ↔
      Along step EditsCancel (powerUp rams : SweepSession F) events := by
  have separate : ∀ channel other : Channel, other ≠ channel →
      AgreesOn other (run sweepStep (powerUp rams : SweepSession F).menu events)
        (run sweepStep (powerUp rams : SweepSession F).menu
          (events.filter fun event => !event.toggles channel)) :=
    fun channel other another => AgreesOn.run ⟨rfl, rfl, rfl⟩ another events
  refine Iff.trans (and_iff_left separate) ?_
  have initial : (powerUp rams : SweepSession F).SavesBefore := fun _ => rfl
  exact along_iff_of_invariant (fun _ event saves _ => saves.step event)
    (fun _ event saves => saves.restores_iff event) initial

/-- A sweep is turned on and off, and the relay of its channel is switched off in
between. -/
theorem relay_switched_on_again :
    ¬ ∀ (rams : Firmware.LookupRams) (events : List (SweepEvent ℚ)),
        (powerUp rams : SweepSession ℚ).RestoresOnlySwept events := by
  intro claimed
  have restored := (claimed (fun _ _ => 0)
    ([.edit 0 fun dds => { dds with outputRelay := !dds.outputRelay }, .toggle 0, .compute,
      .edit 0 fun dds => { dds with outputRelay := !dds.outputRelay }, .toggle 0] ++
      [.compute])).1.last
  have switched := congrArg DDSVariables.outputRelay (restored 0 ⟨rfl, by decide +kernel⟩)
  exact nomatch switched

end SweepSession
end DDSFunctionGen.Menu

import DDSFunctionGen.Menu.Changes
import DDSFunctionGen.Menu.PageMoves

/-!
# What `Compute` does

The two passes of its loop work on separate channels, so one description by
channel covers both. An event that does not compute makes writes.
-/

namespace DDSFunctionGen.Menu

open Relation

variable {F : Type} [CFloat F]

/-- The sweep of the channel is on. -/
def SweepVariables.isOn (sweep : SweepVariables F) : Prop := sweep.on.selected = 1

instance (sweep : SweepVariables F) : Decidable sweep.isOn :=
  inferInstanceAs (Decidable (sweep.on.selected = 1))

namespace MenuState

/-- The variables of a channel after `Compute`. -/
def computedDDS (sweep : SweepVariables F) (dds : DDSVariables F)
    (saved : Option (DDSVariables F)) : DDSVariables F :=
  if sweep.isOn then sweptVariables sweep dds else saved.getD dds

/-- What `Compute` keeps saved of a channel. -/
def computedSaved (sweep : SweepVariables F) (dds : DDSVariables F)
    (saved : Option (DDSVariables F)) : Option (DDSVariables F) :=
  if sweep.isOn then some (saved.getD dds) else none

/-- One pass of the loop of `Compute`, by channel. -/
theorem computeChannel_channelwise (menu : MenuState F) (channel : Channel) :
    menu.computeChannel channel =
      { menu with
        globals := menu.globals.setDDS channel
          (computedDDS (menu.globals.sweep channel) (menu.globals.dds channel)
            (menu.savedDDSVariables channel))
        savedDDSVariables := fun other =>
          if other = channel then
            computedSaved (menu.globals.sweep channel) (menu.globals.dds channel)
              (menu.savedDDSVariables channel)
          else menu.savedDDSVariables other } := by
  have sameSaved {saved : Option (DDSVariables F)} (kept : menu.savedDDSVariables channel = saved) :
      (fun other => if other = channel then saved else menu.savedDDSVariables other) =
        menu.savedDDSVariables := by
    ext1 other
    split_ifs with same
    · rw [same, kept]
    · rfl
  by_cases on : (menu.globals.sweep channel).isOn
  · have selected : (menu.globals.sweep channel).on.selected = 1 := on
    cases saved : menu.savedDDSVariables channel with
    | none => simp only [computeChannel, saved, selected, computedDDS, computedSaved, on, if_true,
        modifyDDS, Option.getD_none]
    | some dds =>
        simp only [computeChannel, saved, selected, computedDDS, computedSaved, on, if_true,
          modifyDDS, Option.getD_some, sameSaved saved]
  · have selected : ¬ (menu.globals.sweep channel).on.selected = 1 := on
    cases saved : menu.savedDDSVariables channel with
    | none =>
        simp only [computeChannel, saved, selected, computedDDS, computedSaved, on, if_false,
          Option.getD_none, Globals.setDDS_self, sameSaved saved]
    | some dds =>
        simp only [computeChannel, saved, selected, computedDDS, computedSaved, on, if_false,
          modifyDDS, Option.getD_some]

/-- `Compute` by channel. -/
theorem compute_channelwise (menu : MenuState F) :
    menu.compute =
      { menu with
        globals := { menu.globals with
          dds := fun channel =>
            computedDDS (menu.globals.sweep channel) (menu.globals.dds channel)
              (menu.savedDDSVariables channel) }
        savedDDSVariables := fun channel =>
          computedSaved (menu.globals.sweep channel) (menu.globals.dds channel)
            (menu.savedDDSVariables channel) } := by
  rw [compute, computeChannel_channelwise, computeChannel_channelwise]
  simp only [Globals.setDDS]
  congr 1
  · congr 2
    ext1 channel
    revert channel
    rw [Fin.forall_fin_two]
    exact ⟨rfl, rfl⟩
  · ext1 channel
    revert channel
    rw [Fin.forall_fin_two]
    exact ⟨rfl, rfl⟩

/-- `Compute` reads nothing but the variables and what it saved. -/
theorem compute_congr {menu other : MenuState F} (globals : other.globals = menu.globals)
    (saved : other.savedDDSVariables = menu.savedDDSVariables) :
    other.compute.globals = menu.compute.globals ∧
      other.compute.savedDDSVariables = menu.compute.savedDDSVariables := by
  rw [compute_channelwise, compute_channelwise]
  simp only [globals, saved, and_self]

omit [CFloat F] in
theorem init_variables (menu : MenuState F) :
    menu.init.globals = menu.globals ∧ menu.init.savedDDSVariables = menu.savedDDSVariables := by
  rw [init]
  cases menu.menuPage.page with
  | main | graphicMenu | settings | phaseOffset | sweep | amModulation | fmModulation | sd =>
      exact ⟨rfl, rfl⟩

/-- On the sweep page a redraw computes; on any other it leaves the variables. -/
theorem redraw_variables (card : SdCard.Card) (menu : MenuState F) :
    let drawn := if menu.menuPage.page = .sweep then menu.compute else menu
    (menu.redraw card).globals = drawn.globals ∧
      (menu.redraw card).savedDDSVariables = drawn.savedDDSVariables := by
  have draws (before : MenuState F) (page : before.menuPage.page = menu.menuPage.page)
      (globals : before.globals = menu.globals)
      (saved : before.savedDDSVariables = menu.savedDDSVariables) :
      let drawn := if menu.menuPage.page = .sweep then menu.compute else menu
      (before.draw card).globals = drawn.globals ∧
        (before.draw card).savedDDSVariables = drawn.savedDDSVariables := by
    rw [draw, page]
    cases menu.menuPage.page with
    | sweep => exact compute_congr globals saved
    | main | graphicMenu | settings | phaseOffset | amModulation | fmModulation | sd =>
        exact ⟨globals, saved⟩
  by_cases initialized : menu.menuPage.menuInitialized = true
  · simp only [redraw, if_pos initialized]
    exact draws menu rfl rfl rfl
  · simp only [redraw, if_neg initialized]
    refine draws _ ?_ menu.init_variables.1 menu.init_variables.2
    exact congrArg (fun place => place.1.page) menu.init_place

/-! ## Writes -/

/-- The menu changes its variables by writes, and what `Compute` saved stays. -/
structure WritesTo (menu after : MenuState F) : Prop where
  globals : ReflTransGen Write menu.globals after.globals
  saved : after.savedDDSVariables = menu.savedDDSVariables

variable {menu after : MenuState F}

theorem WritesTo.of_eq (globals : after.globals = menu.globals)
    (saved : after.savedDDSVariables = menu.savedDDSVariables) : menu.WritesTo after :=
  ⟨globals ▸ .refl, saved⟩

theorem Changes.writes (changes : menu.Changes after) : menu.WritesTo after := by
  induction changes with
  | refl => exact .of_eq rfl rfl
  | tail _ change wrote =>
      cases change with
      | write write => exact ⟨wrote.globals.tail write, wrote.saved⟩
      | typing | select | fill | point | other => exact ⟨wrote.globals, wrote.saved⟩

theorem processKeypadPress_writes (editor : Editor F) (keyPressed : UInt8) :
    ReflTransGen Write editor.globals (editor.processKeypadPress keyPressed).globals := by
  rw [Editor.processKeypadPress]
  split
  · cases editor.target with
    | none => exact .refl
    | some ref => exact .single (.value editor.globals ref (.typeKey _ _ keyPressed))
  · exact .refl

theorem btnKeypad_writes (menu : MenuState F) (keyPressed : UInt8) :
    menu.WritesTo (menu.btnKeypad keyPressed) := by
  cases page : menu.menuPage.page with
  | main | phaseOffset | sweep | amModulation | fmModulation =>
      rw [btnKeypad, page]
      exact ⟨processKeypadPress_writes menu.toEditor keyPressed, rfl⟩
  | graphicMenu | settings | sd =>
      rw [btnKeypad, page]
      exact .of_eq rfl rfl

/-- A redraw that does not compute writes nothing. -/
theorem redraw_writes (card : SdCard.Card) (page : menu.menuPage.page ≠ .sweep) :
    menu.WritesTo (menu.redraw card) := by
  obtain ⟨globals, saved⟩ := menu.redraw_variables card
  rw [if_neg page] at globals saved
  exact .of_eq globals saved

/-- Every event that does not compute makes writes. -/
theorem step_writes (card : SdCard.Card) (menu : MenuState F) {event : MenuEvent}
    (noCompute : event = .redraw → menu.menuPage.page ≠ .sweep) :
    menu.WritesTo (menu.step card event) := by
  cases event with
  | keypad keyPressed =>
      have wrote := menu.btnKeypad_writes keyPressed
      exact ⟨wrote.globals, wrote.saved⟩
  | redraw => exact redraw_writes card (noCompute rfl)
  | encoder | display | enable => exact Changes.writes (menu.step_changes card nofun nofun)

/-- An event computes the sweeps or makes writes. -/
theorem step_computes_or_writes (card : SdCard.Card) (menu : MenuState F) (event : MenuEvent) :
    (event = .redraw ∧ menu.menuPage.page = .sweep ∧
      (menu.step card event).globals = menu.compute.globals ∧
      (menu.step card event).savedDDSVariables = menu.compute.savedDDSVariables) ∨
    menu.WritesTo (menu.step card event) := by
  by_cases computes : event = .redraw ∧ menu.menuPage.page = .sweep
  · obtain ⟨rfl, page⟩ := computes
    have computed := menu.redraw_variables card
    rw [if_pos page] at computed
    exact .inl ⟨rfl, page, computed⟩
  · exact .inr (menu.step_writes card fun redraws page => computes ⟨redraws, page⟩)

end MenuState
end DDSFunctionGen.Menu

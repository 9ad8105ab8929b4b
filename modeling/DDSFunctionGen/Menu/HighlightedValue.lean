import DDSFunctionGen.Menu.Edits
import DDSFunctionGen.Menu.SdSelection

/-!
# Keys edit what is highlighted

Pages are left and re-entered without being initialised, and the FM page does
not reset the screen when it is. Along exactly the runs whose events conform, an
enabled screen points to the highlighted value, and the encoder and the keypad
edit nothing else.
-/

namespace DDSFunctionGen.Menu

open DDSFunctionGen.Semantics

namespace MenuState

variable {F : Type}

/-- The events after which the screen follows the highlight. -/
def Conforms (menu : MenuState F) : MenuEvent → Prop
  | .display button => ¬menu.Strands button
  | .encoder _ encoder =>
      ¬(menu.menuPage.page = .settings ∧ menu.element = .unset ∧ encoder ≠ 0)
  | .redraw =>
      ¬(menu.menuPage.page = .fmModulation ∧ menu.menuPage.menuInitialized = false ∧
        menu.typingScreen.enabled = true)
  | .keypad _ | .enable _ => True

/-- Initialising a page keeps the screen on the highlight, except on the FM
page, whose `init` leaves the screen as it is. -/
theorem init_follows_iff [CFloat F] {menu : MenuState F} (follows : menu.Follows) :
    menu.init.Follows ↔
      ¬(menu.menuPage.page = .fmModulation ∧ menu.typingScreen.enabled = true) := by
  cases page : menu.menuPage.page with
  | fmModulation =>
      have dropped : menu.fmInit.highlighted = none := by
        simp [highlighted, fmInit, page, FMParameter.field]
      rw [init, page]
      refine Iff.trans (follows_iff_disabled dropped follows.faulted) ?_
      simp [fmInit]
  | phaseOffset =>
      refine iff_of_true ?_ (by simp)
      rw [init, page]
      have highlights : menu.phaseOffsetInit.highlighted = some (.dds 0 .phaseOffset) := by
        simp [highlighted, phaseOffsetInit, typePhaseOffset, resetTypingScreen, page]
      exact .of_points follows.faulted highlights rfl
  | sd =>
      refine iff_of_true ?_ (by simp)
      rw [init, page]
      exact follows.of_keeps rfl rfl ⟨rfl, rfl⟩
  | main | graphicMenu | settings | sweep | amModulation =>
      refine iff_of_true ?_ (by simp)
      rw [init, page]
      exact .of_disabled follows.faulted rfl

/-- The redrawn menu, up to what drawing changes. -/
theorem redraw_follows_iff [CFloat F] (card : SdCard.Card) {menu : MenuState F}
    (follows : menu.Follows) :
    (menu.redraw card).Follows ↔
      ¬(menu.menuPage.page = .fmModulation ∧ menu.menuPage.menuInitialized = false ∧
        menu.typingScreen.enabled = true) := by
  have drawn (before : MenuState F) :
      ({ before.draw card with redrawScreen := false } : MenuState F).Follows ↔
        before.Follows := by
    obtain ⟨globals, saved, sdPage, drawn⟩ := before.draw_eq card
    rw [drawn]
    exact follows_congr rfl rfl rfl
  have marks (before : MenuState F) :
      ({ before with
        menuPage := { before.menuPage with menuInitialized := true } } : MenuState F).Follows ↔
        before.Follows :=
    follows_congr rfl rfl rfl
  simp only [redraw]
  rw [drawn]
  split_ifs with initialized
  · simp [initialized, follows]
  · rw [marks, init_follows_iff follows]
    simp [initialized]

/-! ## Runs -/

/-- The menu between the events of a run that conforms. -/
structure Sound (menu : MenuState F) : Prop where
  follows : menu.Follows
  placed : menu.Placed

/-- The encoder and the keypad change at most what is marked. -/
def EditsMarked [CFloat F] (card : SdCard.Card) (menu : MenuState F) : MenuEvent → Prop
  | .encoder button encoder =>
      ChangesAtMost menu.globals (menu.step card (.encoder button encoder)).globals menu.marked
  | .keypad keyPressed =>
      ChangesAtMost menu.globals (menu.step card (.keypad keyPressed)).globals menu.marked
  | .display _ | .redraw | .enable _ => True

theorem powerUp_sound [CFloat F] (rams : Firmware.LookupRams) :
    (powerUp rams : MenuState F).Sound where
  follows := .of_disabled rfl rfl
  placed := powerUp_placed rams

theorem redrawScreen_follows_iff (menu : MenuState F) (redrawScreen : Bool) :
    ({ menu with redrawScreen } : MenuState F).Follows ↔ menu.Follows :=
  follows_congr rfl rfl rfl

/-- One event keeps the screen on the highlight exactly if it conforms. -/
theorem step_follows_iff [CFloat F] (card : SdCard.Card) {menu : MenuState F}
    (sound : menu.Sound) (event : MenuEvent) :
    (menu.step card event).Follows ↔ menu.Conforms event := by
  cases event with
  | encoder button encoder =>
      rw [step, redrawScreen_follows_iff]
      exact btnEncoder_follows_iff sound.placed sound.follows button encoder
  | display button =>
      rw [step, redrawScreen_follows_iff]
      exact btnDisplay_follows_iff sound.placed sound.follows button
  | keypad keyPressed =>
      rw [step, redrawScreen_follows_iff]
      exact iff_of_true (btnKeypad_follows sound.follows keyPressed) trivial
  | redraw => exact redraw_follows_iff card sound.follows
  | enable value =>
      refine iff_of_true ?_ trivial
      simp only [step, isrBtnEnable]
      split_ifs
      all_goals exact sound.follows.of_keeps rfl rfl ⟨rfl, rfl⟩

theorem Sound.edits [CFloat F] {menu : MenuState F} (sound : menu.Sound) (card : SdCard.Card)
    (event : MenuEvent) : menu.EditsMarked card event := by
  cases event with
  | encoder button encoder => exact btnEncoder_changesAtMost sound.follows button encoder
  | keypad keyPressed => exact btnKeypad_changesAtMost sound.follows keyPressed
  | display | redraw | enable => trivial

/-- The screen follows the highlight before a run and after each of its events,
and the encoder and the keypad edit only what is marked. -/
def EditsOnlyHighlighted [CFloat F] (card : SdCard.Card) (menu : MenuState F)
    (events : List MenuEvent) : Prop :=
  menu.Follows ∧
    Along (step card)
      (fun menu event => (menu.step card event).Follows ∧ menu.EditsMarked card event) menu events

/-- From power-up, the keys edit only what is highlighted exactly in the runs all
of whose events conform. -/
theorem edits_only_highlighted_iff [CFloat F] (card : SdCard.Card) (rams : Firmware.LookupRams)
    (events : List MenuEvent) :
    (powerUp rams : MenuState F).EditsOnlyHighlighted card events ↔
      Along (step card) Conforms (powerUp rams : MenuState F) events := by
  have preserved (menu : MenuState F) (event : MenuEvent) (sound : menu.Sound)
      (conforms : menu.Conforms event) : (menu.step card event).Sound :=
    ⟨(step_follows_iff card sound event).mpr conforms, step_placed card sound.placed event⟩
  refine Iff.trans (and_iff_right (powerUp_sound rams).follows) ?_
  refine along_iff_of_invariant preserved (fun menu event sound => ?_) (powerUp_sound rams)
  rw [step_follows_iff card sound event]
  exact and_iff_left (sound.edits card event)

/-- On the sweep page, START and then the other channel: the screen still edits
the first channel, and nothing is highlighted. -/
theorem sweep_channel_strands_typing :
    ¬ ∀ (card : SdCard.Card) (rams : Firmware.LookupRams) (events : List MenuEvent),
        (powerUp rams : MenuState ℚ).EditsOnlyHighlighted card events := by
  intro claimed
  have stranded := claimed SdPage.songCard (fun _ _ => 0)
    ([.redraw, .display btnDisplay1, .redraw, .display btnDisplay4, .redraw,
      .display btnDisplay4, .redraw, .display btnDisplay5, .redraw, .display btnDisplay3,
      .redraw] ++ [.display btnDisplay1])
  obtain ⟨ref, highlighted, -⟩ := stranded.2.last.1.points rfl
  exact nomatch highlighted

end MenuState
end DDSFunctionGen.Menu

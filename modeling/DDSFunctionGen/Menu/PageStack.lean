import DDSFunctionGen.Menu.Changes
import DDSFunctionGen.Menu.PageMoves

/-!
# The stack of pages

A page is entered from the page under it and left to it, so the page fixes what
lies on the stack. Every event keeps this, and the FM page points to its channel
from its first event on.
-/

namespace DDSFunctionGen.Menu

namespace MenuState

variable {F : Type}

/-- The pages that lie on the stack under a page, from the top. -/
def pagesUnder : Page → List Page
  | .main => []
  | .graphicMenu => [.main]
  | _ => [.graphicMenu, .main]

/-- The stack fits the page, and the FM page points to its channel if anywhere. -/
structure Placed (menu : MenuState F) : Prop where
  callStack : menu.menuPage.menuPageCallStack = true
  stack : menu.pageStack.map MenuPage.page = pagesUnder menu.menuPage.page
  selectedDDS : menu.fmSelectedDDS = none ∨ menu.fmSelectedDDS = some menu.fmChannel

theorem powerUp_placed [CFloat F] (rams : Firmware.LookupRams) :
    (powerUp rams : MenuState F).Placed :=
  ⟨rfl, rfl, .inl rfl⟩

@[simp] theorem pushPage_typingScreen (menu : MenuState F) (page : Page) :
    (menu.pushPage page).typingScreen = menu.typingScreen := by
  simp only [pushPage]
  split_ifs
  · rfl
  · rfl

@[simp] theorem popPage_typingScreen (menu : MenuState F) :
    menu.popPage.typingScreen = menu.typingScreen := by
  simp only [popPage]
  split_ifs
  · cases menu.pageStack with
    | nil => rfl
    | cons top rest => rfl
  · rfl

theorem pushPage_globals (menu : MenuState F) (page : Page) :
    (menu.pushPage page).globals = menu.globals := by
  simp only [pushPage]
  split_ifs
  · rfl
  · rfl

theorem Placed.pushPage_faulted {menu : MenuState F} (placed : menu.Placed) (page : Page) :
    (menu.pushPage page).faulted = menu.faulted := by
  rw [pushPage, if_pos placed.callStack]

theorem Placed.popPage_faulted {menu : MenuState F} (placed : menu.Placed) :
    menu.popPage.faulted = menu.faulted := by
  rw [popPage, if_pos placed.callStack]
  cases menu.pageStack with
  | nil => rfl
  | cons top rest => rfl

/-- Popping leads to the page under the current one, if there is one. -/
theorem Placed.popPage_page {menu : MenuState F} (placed : menu.Placed) :
    menu.popPage.menuPage.page = (pagesUnder menu.menuPage.page).headD menu.menuPage.page := by
  rw [← placed.stack, popPage, if_pos placed.callStack]
  cases menu.pageStack with
  | nil => rfl
  | cons top rest => rfl

/-! ## The pages on the stack -/

theorem pagesUnder_of_cons {page top : Page} {rest : List Page}
    (under : top :: rest = pagesUnder page) : rest = pagesUnder top := by
  cases page with
  | main => exact nomatch under
  | graphicMenu | settings | phaseOffset | sweep | amModulation | fmModulation | sd =>
      obtain ⟨rfl, rfl⟩ := List.cons.inj under
      rfl

theorem menuPages_under {selectedIcon : Nat} {page : Page}
    (entry : menuPages selectedIcon = some page) : pagesUnder page = [.graphicMenu, .main] := by
  match selectedIcon, entry with
  | 0, rfl | 1, rfl | 2, rfl | 3, rfl | 4, rfl | 5, rfl => rfl

/-- A page is entered from the page under it. -/
theorem entered_under {menu : MenuState F} {event : MenuEvent} {page : Page}
    (enters : menu.entered event = some page) :
    pagesUnder page = menu.menuPage.page :: pagesUnder menu.menuPage.page := by
  cases event with
  | display button =>
      rw [entered] at enters
      cases current : menu.menuPage.page with
      | main =>
          simp only [current] at enters
          split_ifs at enters
          obtain rfl := Option.some.inj enters
          rfl
      | graphicMenu =>
          simp only [current] at enters
          split_ifs at enters
          exact menuPages_under enters
      | settings | phaseOffset | sweep | amModulation | fmModulation | sd =>
          rw [current] at enters
          cases enters
  | encoder button encoder =>
      rw [entered] at enters
      split_ifs at enters with turned
      rw [menuPages_under enters, turned.1]
      rfl
  | keypad | redraw | enable => cases enters

/-- An event keeps the stack fitting the page. -/
theorem Placed.step_stack [CFloat F] (card : SdCard.Card) {menu : MenuState F}
    (placed : menu.Placed) (event : MenuEvent) :
    (menu.step card event).menuPage.menuPageCallStack = true ∧
      (menu.step card event).pageStack.map MenuPage.page =
        pagesUnder (menu.step card event).menuPage.page := by
  obtain ⟨callStack, moves⟩ := step_moves card placed.callStack event
  refine ⟨callStack, ?_⟩
  obtain ⟨enters, pageStack⟩ | ⟨top, stack, page⟩ | ⟨page, pageStack⟩ := moves
  · rw [pageStack, entered_under enters, ← placed.stack]
    rfl
  · have under := placed.stack
    rw [stack] at under
    rw [page]
    exact pagesUnder_of_cons under
  · rw [page, pageStack]
    exact placed.stack

/-! ## The pointer of the FM page -/

/-- The FM page points to its channel, if anywhere. -/
def PointsToChannel (menu : MenuState F) : Prop :=
  menu.fmSelectedDDS = none ∨ menu.fmSelectedDDS = some menu.fmChannel

theorem Changes.points [CFloat F] {menu after : MenuState F} (changes : menu.Changes after)
    (points : menu.PointsToChannel) : after.PointsToChannel := by
  induction changes with
  | refl => exact points
  | tail _ change points =>
      cases change with
      | write | typing | select | fill | other => exact points
      | point => exact .inr rfl

theorem btnKeypad_points [CFloat F] {menu : MenuState F} (points : menu.PointsToChannel)
    (keyPressed : UInt8) : (menu.btnKeypad keyPressed).PointsToChannel := by
  cases page : menu.menuPage.page with
  | main | phaseOffset | sweep | amModulation | fmModulation | graphicMenu | settings | sd =>
      rw [btnKeypad, page]
      exact points

theorem redraw_points [CFloat F] (card : SdCard.Card) {menu : MenuState F}
    (points : menu.PointsToChannel) : (menu.redraw card).PointsToChannel := by
  obtain ⟨before, changes, redraws⟩ := menu.redraw_changes card
  obtain ⟨globals, saved, sdPage, drawn⟩ := before.draw_eq card
  rw [redraws, drawn]
  exact changes.points points

theorem step_points [CFloat F] (card : SdCard.Card) {menu : MenuState F}
    (points : menu.PointsToChannel) (event : MenuEvent) :
    (menu.step card event).PointsToChannel := by
  cases event with
  | keypad keyPressed => exact btnKeypad_points points keyPressed
  | redraw => exact redraw_points card points
  | encoder | display | enable => exact Changes.points (menu.step_changes card nofun nofun) points

theorem step_placed [CFloat F] (card : SdCard.Card) {menu : MenuState F} (placed : menu.Placed)
    (event : MenuEvent) : (menu.step card event).Placed := by
  obtain ⟨callStack, stack⟩ := placed.step_stack card event
  exact ⟨callStack, stack, step_points card placed.selectedDDS event⟩

end MenuState
end DDSFunctionGen.Menu

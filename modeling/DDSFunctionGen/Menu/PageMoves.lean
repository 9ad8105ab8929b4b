import DDSFunctionGen.Menu.Draw

/-!
# How events move between pages

Two buttons and the encoder enter a page, RETURN leaves one, and no other event
touches the current page or the stack, apart from the redraw that initialises
the page.
-/

namespace DDSFunctionGen.Menu

open DDSFunctionGen.Semantics

namespace MenuState

variable {F : Type}

/-- The current page and the pages on the stack. -/
def place (menu : MenuState F) : MenuPage × List MenuPage := (menu.menuPage, menu.pageStack)

/-- The place after entering a page. -/
def pushed (menu : MenuState F) (page : Page) : MenuPage × List MenuPage :=
  ({ page, menuInitialized := false, menuPageCallStack := true }, menu.menuPage :: menu.pageStack)

/-- The place after leaving the page. -/
def popped (menu : MenuState F) : MenuPage × List MenuPage :=
  match menu.pageStack with
  | [] => menu.place
  | top :: rest => ({ top with menuPageCallStack := true }, rest)

/-- The icon the encoder turns to. -/
def turnedIcon (menu : MenuState F) (encoder : Int8) : Nat :=
  let newSelectedIcon := menu.selectedIcon + encoder.toInt
  if encoder ≠ 0 then
    (if newSelectedIcon < 0 then 0 else if 9 ≤ newSelectedIcon then 8 else newSelectedIcon).toNat
  else menu.selectedIcon

/-- The page an event enters: the page of icons from the main page, and the page
of the selected icon from there. -/
def entered (menu : MenuState F) : MenuEvent → Option Page
  | .display button =>
      match menu.menuPage.page with
      | .main => if button = btnDisplay1 then some .graphicMenu else none
      | .graphicMenu => if button = btnDisplay5 then menuPages menu.selectedIcon else none
      | _ => none
  | .encoder button encoder =>
      if menu.menuPage.page = .graphicMenu ∧ button = btnEncoderPB then
        menuPages (menu.turnedIcon encoder)
      else none
  | .keypad _ | .redraw | .enable _ => none

/-- RETURN, on every page but the main one. -/
def leaves (menu : MenuState F) : MenuEvent → Bool
  | .display button => menu.menuPage.page ≠ .main ∧ button = btnDisplay0
  | .encoder _ _ | .keypad _ | .redraw | .enable _ => false

/-- The place after an event. -/
def moved (menu : MenuState F) (event : MenuEvent) : MenuPage × List MenuPage :=
  match menu.entered event with
  | some page => menu.pushed page
  | none => if menu.leaves event then menu.popped else menu.place

theorem place_pushPage {menu : MenuState F} (callStack : menu.menuPage.menuPageCallStack = true)
    (page : Page) : (menu.pushPage page).place = menu.pushed page := by
  rw [pushPage, if_pos callStack]
  rfl

theorem place_popPage {menu : MenuState F} (callStack : menu.menuPage.menuPageCallStack = true) :
    menu.popPage.place = menu.popped := by
  rw [popPage, if_pos callStack, popped]
  cases menu.pageStack with
  | nil => rfl
  | cons top rest => rfl

theorem place_openIcon {menu : MenuState F} (callStack : menu.menuPage.menuPageCallStack = true) :
    menu.openIcon.place =
      match menuPages menu.selectedIcon with
      | some page => menu.pushed page
      | none => menu.place := by
  rw [openIcon]
  cases menuPages menu.selectedIcon with
  | none => rfl
  | some page => exact place_pushPage callStack page

theorem place_addToMenuElement [CFloat F] (menu : MenuState F) (menuElement : MenuElement)
    (value : F) : (menu.addToMenuElement menuElement value).place = menu.place := by
  cases menuElement with
  | unset | editableValue | outputEmpedance => rfl

theorem place_modifySelectedDDS (menu : MenuState F) (change : DDSVariables F → DDSVariables F) :
    (menu.modifySelectedDDS change).place = menu.place := by
  rw [modifySelectedDDS]
  cases menu.fmSelectedDDS with
  | none => rfl
  | some channel => rfl

/-! ## The handlers -/

section Display

variable {menu : MenuState F} (callStack : menu.menuPage.menuPageCallStack = true)
  (button : UInt8)

include callStack

theorem mainBtnDisplay_place :
    (menu.mainBtnDisplay button).place =
      if button = btnDisplay1 then menu.pushed .graphicMenu else menu.place := by
  by_cases enters : button = btnDisplay1
  · rw [if_pos enters, enters]
    exact place_pushPage callStack .graphicMenu
  · rw [if_neg enters, mainBtnDisplay, if_neg enters]
    split_ifs
    all_goals rfl

theorem graphicBtnDisplay_place :
    (menu.graphicBtnDisplay button).place =
      if button = btnDisplay0 then menu.popped
      else if button = btnDisplay5 then menu.openIcon.place
      else menu.place := by
  by_cases returns : button = btnDisplay0
  · rw [if_pos returns, graphicBtnDisplay, if_pos returns]
    exact place_popPage callStack
  by_cases opens : button = btnDisplay5
  · rw [if_neg returns, if_pos opens, opens]
    rfl
  · rw [if_neg returns, if_neg opens, graphicBtnDisplay]
    simp only [if_neg returns, if_neg opens]
    split_ifs
    all_goals rfl

theorem settingsBtnDisplay_place [CFloat F] :
    (menu.settingsBtnDisplay button).place =
      if button = btnDisplay0 then menu.popped else menu.place := by
  rw [settingsBtnDisplay]
  split_ifs
  · exact place_popPage callStack
  all_goals first
    | rfl
    | exact menu.place_addToMenuElement menu.element _

theorem phaseOffsetBtnDisplay_place [CFloat F] :
    (menu.phaseOffsetBtnDisplay button).place =
      if button = btnDisplay0 then menu.popped else menu.place := by
  simp only [phaseOffsetBtnDisplay]
  split_ifs
  · exact place_popPage callStack
  all_goals rfl

theorem sweepBtnDisplay_place [CFloat F] :
    (menu.sweepBtnDisplay button).place =
      if button = btnDisplay0 then menu.popped else menu.place := by
  simp only [sweepBtnDisplay]
  split_ifs
  · exact place_popPage callStack
  all_goals rfl

theorem amBtnDisplay_place [CFloat F] :
    (menu.amBtnDisplay button).place =
      if button = btnDisplay0 then menu.popped else menu.place := by
  simp only [amBtnDisplay]
  split_ifs
  · exact place_popPage callStack
  all_goals rfl

theorem fmBtnDisplay_place [CFloat F] :
    (menu.fmBtnDisplay button).place =
      if button = btnDisplay0 then menu.popped else menu.place := by
  simp only [fmBtnDisplay]
  split_ifs
  · exact place_popPage callStack
  · rfl
  · exact place_modifySelectedDDS _ _
  · exact place_modifySelectedDDS _ _
  all_goals rfl

theorem sdBtnDisplay_place :
    (menu.sdBtnDisplay button).place =
      if button = btnDisplay0 then menu.popped else menu.place := by
  rw [sdBtnDisplay]
  split_ifs
  · exact place_popPage callStack
  · rfl

theorem btnDisplay_place [CFloat F] :
    (menu.btnDisplay button).place = menu.moved (.display button) := by
  have entersNothing : ∀ page : Page, menu.menuPage.page = page → page ≠ .main →
      page ≠ .graphicMenu →
      menu.moved (.display button) = if button = btnDisplay0 then menu.popped else menu.place := by
    rintro page current notMain notGraphic
    cases page with
    | main => exact absurd rfl notMain
    | graphicMenu => exact absurd rfl notGraphic
    | settings | phaseOffset | sweep | amModulation | fmModulation | sd =>
        simp [moved, entered, leaves, current]
  cases page : menu.menuPage.page with
  | main =>
      rw [btnDisplay, page]
      refine (mainBtnDisplay_place callStack button).trans ?_
      split_ifs with enters
      · simp [moved, entered, page, enters]
      · simp [moved, entered, leaves, page, enters]
  | graphicMenu =>
      rw [btnDisplay, page]
      refine (graphicBtnDisplay_place callStack button).trans ?_
      split_ifs with returns opens
      · simp [moved, entered, leaves, page, returns, btnDisplay0, btnDisplay5]
      · rw [place_openIcon callStack]
        simp [moved, entered, leaves, page, opens, btnDisplay0, btnDisplay5]
      · simp [moved, entered, leaves, page, returns, opens]
  | settings =>
      rw [entersNothing .settings page nofun nofun, btnDisplay, page]
      exact settingsBtnDisplay_place callStack button
  | phaseOffset =>
      rw [entersNothing .phaseOffset page nofun nofun, btnDisplay, page]
      exact phaseOffsetBtnDisplay_place callStack button
  | sweep =>
      rw [entersNothing .sweep page nofun nofun, btnDisplay, page]
      exact sweepBtnDisplay_place callStack button
  | amModulation =>
      rw [entersNothing .amModulation page nofun nofun, btnDisplay, page]
      exact amBtnDisplay_place callStack button
  | fmModulation =>
      rw [entersNothing .fmModulation page nofun nofun, btnDisplay, page]
      exact fmBtnDisplay_place callStack button
  | sd =>
      rw [entersNothing .sd page nofun nofun, btnDisplay, page]
      exact sdBtnDisplay_place callStack button

end Display

theorem graphicBtnEncoder_turned (menu : MenuState F) (button : UInt8) (encoder : Int8) :
    menu.graphicBtnEncoder button encoder =
      if button = btnEncoderPB then { menu with selectedIcon := menu.turnedIcon encoder }.openIcon
      else { menu with selectedIcon := menu.turnedIcon encoder } := by
  by_cases turned : encoder ≠ 0
  · simp only [graphicBtnEncoder, turnedIcon, if_pos turned]
  · simp only [graphicBtnEncoder, turnedIcon, if_neg turned]

theorem btnEncoder_place [CFloat F] {menu : MenuState F}
    (callStack : menu.menuPage.menuPageCallStack = true) (button : UInt8) (encoder : Int8) :
    (menu.btnEncoder button encoder).place = menu.moved (.encoder button encoder) := by
  have entersNothing : menu.menuPage.page ≠ .graphicMenu →
      menu.moved (.encoder button encoder) = menu.place := by
    intro elsewhere
    simp [moved, entered, leaves, elsewhere]
  cases page : menu.menuPage.page with
  | graphicMenu =>
      rw [btnEncoder, page]
      simp only [graphicBtnEncoder_turned]
      split_ifs with pushes
      · refine Eq.trans (place_openIcon callStack) ?_
        simp only [moved, entered, leaves, page, pushes, and_self, if_true, Bool.false_eq_true,
          if_false]
        rfl
      · simp only [moved, entered, leaves, pushes, and_false, if_false, Bool.false_eq_true]
        rfl
  | settings =>
      rw [entersNothing (by rw [page]; decide), btnEncoder, page]
      simp only [settingsBtnEncoder]
      split_ifs
      · exact menu.place_addToMenuElement menu.element _
      · rfl
  | phaseOffset =>
      rw [entersNothing (by rw [page]; decide), btnEncoder, page]
      simp only [phaseOffsetBtnEncoder]
      split_ifs
      · rfl
      · rfl
  | main | sweep | amModulation | fmModulation | sd =>
      rw [entersNothing (by rw [page]; decide), btnEncoder, page]
      rfl

theorem btnKeypad_place [CFloat F] (menu : MenuState F) (keyPressed : UInt8) :
    (menu.btnKeypad keyPressed).place = menu.place := by
  cases page : menu.menuPage.page with
  | main | phaseOffset | sweep | amModulation | fmModulation =>
      rw [btnKeypad, page]
      rfl
  | graphicMenu | settings | sd => rw [btnKeypad, page]

theorem init_place [CFloat F] (menu : MenuState F) : menu.init.place = menu.place := by
  cases page : menu.menuPage.page with
  | main | graphicMenu | settings | phaseOffset | sweep | amModulation | fmModulation | sd =>
      rw [init, page]
      rfl

/-- A redraw marks the current page as initialised. -/
theorem redraw_place [CFloat F] (card : SdCard.Card) (menu : MenuState F) :
    (menu.redraw card).place = ({ menu.menuPage with menuInitialized := true }, menu.pageStack) := by
  have drawn (before : MenuState F) :
      ({ before.draw card with redrawScreen := false } : MenuState F).place = before.place := by
    obtain ⟨globals, saved, sdPage, drawn⟩ := before.draw_eq card
    rw [drawn]
    rfl
  simp only [redraw]
  rw [drawn]
  split_ifs with initialized
  · rw [← initialized]
    rfl
  · have initialised := menu.init_place
    rw [place, place, Prod.mk.injEq] at initialised
    simp only [place, initialised.1, initialised.2]

/-- Where one event leads: a redraw marks the page as initialised, any other
event moves. -/
theorem step_place [CFloat F] (card : SdCard.Card) {menu : MenuState F}
    (callStack : menu.menuPage.menuPageCallStack = true) (event : MenuEvent) :
    (menu.step card event).place =
      match event with
      | .redraw => ({ menu.menuPage with menuInitialized := true }, menu.pageStack)
      | _ => menu.moved event := by
  cases event with
  | encoder button encoder => exact btnEncoder_place callStack button encoder
  | display button => exact btnDisplay_place callStack button
  | keypad keyPressed => exact menu.btnKeypad_place keyPressed
  | redraw => exact menu.redraw_place card
  | enable value =>
      simp only [step, isrBtnEnable]
      split_ifs
      all_goals rfl

/-- Any event but a redraw enters a page, leaves one or stays. -/
theorem step_cases [CFloat F] (card : SdCard.Card) {menu : MenuState F}
    (callStack : menu.menuPage.menuPageCallStack = true) {event : MenuEvent}
    (noRedraw : event ≠ .redraw) :
    (∃ page, menu.entered event = some page ∧
      (menu.step card event).menuPage =
        { page, menuInitialized := false, menuPageCallStack := true } ∧
      (menu.step card event).pageStack = menu.menuPage :: menu.pageStack) ∨
    menu.entered event = none ∧
      ((∃ top rest, menu.pageStack = top :: rest ∧
        (menu.step card event).menuPage = { top with menuPageCallStack := true } ∧
        (menu.step card event).pageStack = rest) ∨
      (menu.step card event).menuPage = menu.menuPage ∧
        (menu.step card event).pageStack = menu.pageStack) := by
  have moves : (menu.step card event).place = menu.moved event := by
    have place := step_place card callStack event
    cases event with
    | redraw => exact absurd rfl noRedraw
    | encoder | display | keypad | enable => exact place
  rw [place, moved] at moves
  cases enters : menu.entered event with
  | some page =>
      rw [enters] at moves
      obtain ⟨menuPage, pageStack⟩ := Prod.ext_iff.mp moves
      exact .inl ⟨page, rfl, menuPage, pageStack⟩
  | none =>
      refine .inr ⟨rfl, ?_⟩
      simp only [enters] at moves
      by_cases leaves : menu.leaves event = true
      · rw [if_pos leaves, popped] at moves
        cases stack : menu.pageStack with
        | nil =>
            simp only [stack] at moves
            obtain ⟨menuPage, pageStack⟩ := Prod.ext_iff.mp moves
            exact .inr ⟨menuPage, pageStack.trans stack⟩
        | cons top rest =>
            simp only [stack] at moves
            obtain ⟨menuPage, pageStack⟩ := Prod.ext_iff.mp moves
            exact .inl ⟨top, rest, rfl, menuPage, pageStack⟩
      · rw [if_neg leaves] at moves
        obtain ⟨menuPage, pageStack⟩ := Prod.ext_iff.mp moves
        exact .inr ⟨menuPage, pageStack⟩

/-- Any event enters a page, leads to the one on top of the stack or stays on the
page, and the page it leads to points to the stack. -/
theorem step_moves [CFloat F] (card : SdCard.Card) {menu : MenuState F}
    (callStack : menu.menuPage.menuPageCallStack = true) (event : MenuEvent) :
    (menu.step card event).menuPage.menuPageCallStack = true ∧
    ((menu.entered event = some (menu.step card event).menuPage.page ∧
        (menu.step card event).pageStack = menu.menuPage :: menu.pageStack) ∨
      (∃ top, menu.pageStack = top :: (menu.step card event).pageStack ∧
        (menu.step card event).menuPage.page = top.page) ∨
      ((menu.step card event).menuPage.page = menu.menuPage.page ∧
        (menu.step card event).pageStack = menu.pageStack)) := by
  by_cases redraws : event = .redraw
  · have menuPage : (menu.step card .redraw).menuPage =
        { menu.menuPage with menuInitialized := true } :=
      congrArg Prod.fst (menu.redraw_place card)
    rw [redraws, menuPage]
    exact ⟨callStack, .inr (.inr ⟨rfl, congrArg Prod.snd (menu.redraw_place card)⟩)⟩
  · obtain ⟨page, enters, menuPage, pageStack⟩ |
      ⟨-, ⟨top, rest, stack, menuPage, pageStack⟩ | ⟨menuPage, pageStack⟩⟩ :=
      step_cases card callStack redraws
    · rw [menuPage]
      exact ⟨rfl, .inl ⟨enters, pageStack⟩⟩
    · rw [menuPage, pageStack]
      exact ⟨rfl, .inr (.inl ⟨top, stack, rfl⟩)⟩
    · rw [menuPage]
      exact ⟨callStack, .inr (.inr ⟨rfl, pageStack⟩)⟩

end MenuState
end DDSFunctionGen.Menu

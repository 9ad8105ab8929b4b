import DDSFunctionGen.Menu.Changes

/-!
# The pointers that `init` sets

The settings fill in their elements and the FM page sets `selectedDDS` when they
are initialised. Once set, they stay set under every event.
-/

namespace DDSFunctionGen.Menu

namespace MenuState

variable {F : Type}

/-- Every element that the settings can select is filled in. -/
structure ElementsSet (menu : MenuState F) : Prop where
  count : menu.menuElementsArray.length = 3
  set : MenuElement.unset ∉ menu.menuElementsArray
  selected : menu.selectedElement < 3

/-- What the first state has set, the second has set. -/
structure KeepsPointers (menu after : MenuState F) : Prop where
  elements : menu.ElementsSet → after.ElementsSet
  selectedDDS : menu.fmSelectedDDS ≠ none → after.fmSelectedDDS ≠ none

/-- What `init` of the page sets is set. -/
def PointersSet (menu : MenuState F) : Page → Prop
  | .settings => menu.ElementsSet
  | .fmModulation => menu.fmSelectedDDS ≠ none
  | .main | .graphicMenu | .phaseOffset | .sweep | .amModulation | .sd => True

theorem ElementsSet.element {menu : MenuState F} (elementsSet : menu.ElementsSet) :
    menu.element ≠ .unset := by
  have inBounds : menu.selectedElement < menu.menuElementsArray.length := by
    rw [elementsSet.count]
    exact elementsSet.selected
  rw [MenuState.element, List.getElem?_eq_getElem inBounds, Option.getD_some]
  intro unset
  exact elementsSet.set (unset ▸ List.getElem_mem inBounds)

namespace KeepsPointers

variable {menu after : MenuState F}

theorem refl (menu : MenuState F) : KeepsPointers menu menu := ⟨id, id⟩

theorem trans {last : MenuState F} (first : KeepsPointers menu after)
    (second : KeepsPointers after last) : KeepsPointers menu last :=
  ⟨second.elements ∘ first.elements, second.selectedDDS ∘ first.selectedDDS⟩

theorem pointersSet (keeps : KeepsPointers menu after) {page : Page}
    (set : menu.PointersSet page) : after.PointersSet page := by
  cases page with
  | settings => exact keeps.elements set
  | fmModulation => exact keeps.selectedDDS set
  | main | graphicMenu | phaseOffset | sweep | amModulation | sd => trivial

/-- A change that touches none of the pointers. -/
theorem of_eq (elements : after.menuElementsArray = menu.menuElementsArray)
    (selected : after.selectedElement = menu.selectedElement)
    (selectedDDS : after.fmSelectedDDS = menu.fmSelectedDDS) : KeepsPointers menu after := by
  refine ⟨fun elementsSet => ⟨?_, ?_, ?_⟩, fun set => ?_⟩
  · rw [elements, elementsSet.count]
  · rw [elements]
    exact elementsSet.set
  · rw [selected]
    exact elementsSet.selected
  · rw [selectedDDS]
    exact set

/-- What changes of the menu keep. -/
theorem of_changes [CFloat F] (changes : menu.Changes after) : KeepsPointers menu after := by
  induction changes with
  | refl => exact ⟨id, id⟩
  | tail _ change kept =>
      refine kept.trans ?_
      cases change with
      | write | typing | other => exact .of_eq rfl rfl rfl
      | select inBounds =>
          refine ⟨fun elementsSet => ?_, id⟩
          exact ⟨elementsSet.count, elementsSet.set, inBounds elementsSet.selected⟩
      | fill => exact ⟨fun _ => ⟨rfl, by simp, Nat.zero_lt_succ 2⟩, id⟩
      | point fmChannel =>
          refine ⟨fun elementsSet => ?_, fun _ => Option.some_ne_none fmChannel⟩
          exact ⟨elementsSet.count, elementsSet.set, elementsSet.selected⟩

end KeepsPointers

theorem btnKeypad_keepsPointers [CFloat F] (menu : MenuState F) (keyPressed : UInt8) :
    KeepsPointers menu (menu.btnKeypad keyPressed) := by
  cases page : menu.menuPage.page with
  | main | phaseOffset | sweep | amModulation | fmModulation | graphicMenu | settings | sd =>
      rw [btnKeypad, page]
      exact .of_eq rfl rfl rfl

/-- `init` sets the pointers of its page. -/
theorem init_pointersSet [CFloat F] (menu : MenuState F) :
    menu.init.PointersSet menu.menuPage.page := by
  cases page : menu.menuPage.page with
  | settings =>
      rw [init, page]
      exact ⟨rfl, by simp [settingsInit, disableTyping], Nat.zero_lt_succ 2⟩
  | fmModulation =>
      rw [init, page]
      exact Option.some_ne_none _
  | main | graphicMenu | phaseOffset | sweep | amModulation | sd => trivial

/-- The redraw sets no fewer pointers than `init`, where it calls it. -/
theorem redraw_keepsPointers [CFloat F] (card : SdCard.Card) (menu : MenuState F) :
    KeepsPointers (if menu.menuPage.menuInitialized then menu else menu.init)
      (menu.redraw card) := by
  have drawn (before : MenuState F) :
      KeepsPointers before { before.draw card with redrawScreen := false } := by
    obtain ⟨globals, saved, sdPage, drawn⟩ := before.draw_eq card
    rw [drawn]
    exact .of_eq rfl rfl rfl
  simp only [redraw]
  split_ifs
  · exact drawn menu
  · refine KeepsPointers.trans ?_ (drawn _)
    exact .of_eq rfl rfl rfl

/-- Every event keeps the pointers. -/
theorem step_keepsPointers [CFloat F] (card : SdCard.Card) (menu : MenuState F)
    (event : MenuEvent) : KeepsPointers menu (menu.step card event) := by
  cases event with
  | keypad keyPressed => exact (menu.btnKeypad_keepsPointers keyPressed).trans (.of_eq rfl rfl rfl)
  | redraw =>
      refine KeepsPointers.trans ?_ (menu.redraw_keepsPointers card)
      split_ifs
      · exact .of_eq rfl rfl rfl
      · exact .of_changes menu.init_changes
  | encoder | display | enable => exact .of_changes (menu.step_changes card nofun nofun)

end MenuState
end DDSFunctionGen.Menu

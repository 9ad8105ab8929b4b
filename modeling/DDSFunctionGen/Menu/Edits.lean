import DDSFunctionGen.Menu.DisplayButtons

/-!
# What the encoder and the keypad edit

On a menu whose screen follows the highlight the encoder and the keypad change
at most the highlighted value, and keep the screen on it.
-/

namespace DDSFunctionGen.Menu

/-- The second globals differ from the first at most in one element. -/
def ChangesAtMost {F : Type} (before after : Globals F) : MenuElement → Prop
  | .unset => after = before
  | .editableValue ref => ∃ value, after = before.setValue ref value
  | .outputEmpedance channel =>
      ∃ outputEmpedance,
        after = before.setDDS channel { before.dds channel with outputEmpedance }

theorem ChangesAtMost.of_eq {F : Type} {before after : Globals F} (same : after = before)
    (element : MenuElement) : ChangesAtMost before after element := by
  subst same
  cases element with
  | unset => rfl
  | editableValue ref => exact ⟨after.value ref, (after.setValue_self ref).symm⟩
  | outputEmpedance channel =>
      exact ⟨(after.dds channel).outputEmpedance, (after.setDDS_self channel).symm⟩

namespace MenuState

variable {F : Type}

/-- What the encoder and the keypad may edit: the selected element of the
settings, and the highlighted value elsewhere. -/
def marked (menu : MenuState F) : MenuElement :=
  match menu.menuPage.page with
  | .settings => menu.element
  | _ =>
      match menu.highlighted with
      | some ref => .editableValue ref
      | none => .unset

/-- An edit through the screen keeps it on the highlight. -/
theorem Follows.edited {menu : MenuState F} {editor : Editor F} (follows : menu.Follows)
    (edits : menu.toEditor.Edits editor) :
    ({ menu with toEditor := editor } : MenuState F).Follows :=
  follows.of_keeps edits.faulted rfl edits.target

/-- An edit through the screen changes at most the highlighted value. -/
theorem Follows.edits_marked {menu : MenuState F} {editor : Editor F} (follows : menu.Follows)
    (edits : menu.toEditor.Edits editor) (page : menu.menuPage.page ≠ .settings) :
    ChangesAtMost menu.globals editor.globals menu.marked := by
  obtain same | ⟨enabled, ref, value, target, stored⟩ := edits.globals
  · exact .of_eq same menu.marked
  · obtain ⟨highlightedRef, highlighted, value'⟩ := follows.points enabled
    obtain rfl : ref = highlightedRef := by
      rw [target] at value'
      exact Pointer.variable.inj (Option.some.inj value')
    have marked : menu.marked = .editableValue ref := by
      rw [MenuState.marked, highlighted]
      split
      · exact absurd ‹_› page
      · rfl
    rw [marked]
    exact ⟨value, stored⟩

theorem openIcon_globals (menu : MenuState F) : menu.openIcon.globals = menu.globals := by
  rw [openIcon]
  cases menuPages menu.selectedIcon with
  | none => rfl
  | some page => exact menu.pushPage_globals page

theorem graphicBtnEncoder_follows {menu : MenuState F} (placed : menu.Placed)
    (follows : menu.Follows) (page : menu.menuPage.page = .graphicMenu) (button : UInt8)
    (encoder : Int8) : (menu.graphicBtnEncoder button encoder).Follows := by
  have disabled : menu.typingScreen.enabled = false :=
    follows.disabled (by rw [highlighted, page])
  obtain ⟨selectedIcon, moved⟩ := menu.graphicBtnEncoder_eq button encoder
  rw [moved]
  split_ifs
  · exact openIcon_disabled ⟨placed.callStack, placed.stack, placed.selectedDDS⟩
      follows.faulted disabled
  · exact .of_disabled follows.faulted disabled

theorem graphicBtnEncoder_globals (menu : MenuState F) (button : UInt8) (encoder : Int8) :
    (menu.graphicBtnEncoder button encoder).globals = menu.globals := by
  obtain ⟨selectedIcon, moved⟩ := menu.graphicBtnEncoder_eq button encoder
  rw [moved]
  split_ifs
  · rw [openIcon_globals]
  · rfl

theorem addToMenuElement_changesAtMost [CFloat F] (menu : MenuState F) (menuElement : MenuElement)
    (value : F) :
    ChangesAtMost menu.globals (menu.addToMenuElement menuElement value).globals menuElement := by
  cases menuElement with
  | unset => rfl
  | editableValue ref => exact ⟨_, rfl⟩
  | outputEmpedance channel => exact ⟨_, rfl⟩

/-- The encoder keeps the screen on the highlight, unless it turns an element of
the settings that points nowhere. -/
theorem btnEncoder_follows_iff [CFloat F] {menu : MenuState F} (placed : menu.Placed)
    (follows : menu.Follows) (button : UInt8) (encoder : Int8) :
    (menu.btnEncoder button encoder).Follows ↔
      ¬(menu.menuPage.page = .settings ∧ menu.element = .unset ∧ encoder ≠ 0) := by
  have edits := Editor.processEncoder_edits follows.aimed button encoder
  cases page : menu.menuPage.page with
  | settings =>
      have disabled : menu.typingScreen.enabled = false :=
        follows.disabled (by rw [highlighted, page])
      rw [btnEncoder, page]
      simp only [settingsBtnEncoder]
      split_ifs with turned
      · rw [addToMenuElement_follows_iff follows.faulted disabled]
        simp [turned]
      · simp [turned, follows]
  | phaseOffset =>
      refine iff_of_true ?_ (by simp)
      rw [btnEncoder, page]
      simp only [phaseOffsetBtnEncoder]
      split_ifs
      · exact follows.of_keeps rfl rfl ⟨rfl, rfl⟩
      · exact follows
  | graphicMenu =>
      refine iff_of_true ?_ (by simp)
      rw [btnEncoder, page]
      exact graphicBtnEncoder_follows placed follows page button encoder
  | sd =>
      refine iff_of_true ?_ (by simp)
      rw [btnEncoder, page]
      exact follows.of_keeps rfl rfl ⟨rfl, rfl⟩
  | main | sweep | amModulation | fmModulation =>
      refine iff_of_true ?_ (by simp)
      rw [btnEncoder, page]
      exact follows.edited edits

/-- The encoder changes at most what is marked. -/
theorem btnEncoder_changesAtMost [CFloat F] {menu : MenuState F} (follows : menu.Follows)
    (button : UInt8) (encoder : Int8) :
    ChangesAtMost menu.globals (menu.btnEncoder button encoder).globals menu.marked := by
  have edits := Editor.processEncoder_edits follows.aimed button encoder
  cases page : menu.menuPage.page with
  | settings =>
      have marked : menu.marked = menu.element := by rw [MenuState.marked, page]
      rw [btnEncoder, page, marked]
      simp only [settingsBtnEncoder]
      split_ifs
      · exact menu.addToMenuElement_changesAtMost menu.element _
      · exact .of_eq rfl menu.element
  | phaseOffset =>
      have marked : menu.marked = .editableValue (.dds menu.phaseOffsetChannel .phaseOffset) := by
        rw [MenuState.marked, highlighted, page]
      rw [btnEncoder, page, marked]
      simp only [phaseOffsetBtnEncoder]
      split_ifs
      · exact ⟨_, rfl⟩
      · exact .of_eq rfl _
  | graphicMenu =>
      rw [btnEncoder, page]
      exact .of_eq (menu.graphicBtnEncoder_globals button encoder) _
  | sd =>
      rw [btnEncoder, page]
      exact .of_eq rfl _
  | main | sweep | amModulation | fmModulation =>
      have elsewhere : menu.menuPage.page ≠ .settings := by rw [page]; decide
      rw [btnEncoder, page]
      exact follows.edits_marked edits elsewhere

theorem btnKeypad_follows [CFloat F] {menu : MenuState F} (follows : menu.Follows)
    (keyPressed : UInt8) : (menu.btnKeypad keyPressed).Follows := by
  have edits := Editor.processKeypadPress_edits follows.aimed keyPressed
  cases page : menu.menuPage.page with
  | main | phaseOffset | sweep | amModulation | fmModulation =>
      rw [btnKeypad, page]
      exact follows.edited edits
  | graphicMenu | settings | sd =>
      rw [btnKeypad, page]
      exact follows

/-- The keypad changes at most what is marked. -/
theorem btnKeypad_changesAtMost [CFloat F] {menu : MenuState F} (follows : menu.Follows)
    (keyPressed : UInt8) :
    ChangesAtMost menu.globals (menu.btnKeypad keyPressed).globals menu.marked := by
  have edits := Editor.processKeypadPress_edits follows.aimed keyPressed
  cases page : menu.menuPage.page with
  | main | phaseOffset | sweep | amModulation | fmModulation =>
      have elsewhere : menu.menuPage.page ≠ .settings := by rw [page]; decide
      rw [btnKeypad, page]
      exact follows.edits_marked edits elsewhere
  | graphicMenu | settings | sd =>
      rw [btnKeypad, page]
      exact .of_eq rfl _

end MenuState
end DDSFunctionGen.Menu

import DDSFunctionGen.Menu.Writes
import Mathlib.Logic.Relation

/-!
# What an event changes

The buttons, the encoder, `init` and `ISR_btnEnable` change the menu in six ways. What
these keep, every event keeps, apart from a key and the drawing of a page.
-/

namespace DDSFunctionGen.Menu

open Relation

variable {F : Type}

/-- A change that keeps the entry, or ends it. -/
def TypingScreen.LeavesEntry (before after : TypingScreen F) : Prop :=
  after.initialized = true →
    before.initialized = true ∧ after.shown = before.shown ∧ after.buffer = before.buffer

namespace TypingScreen.LeavesEntry

variable {before after last : TypingScreen F}

theorem of_eq (same : after = before) : before.LeavesEntry after := by
  subst same
  exact fun initialized => ⟨initialized, rfl, rfl⟩

theorem trans (first : before.LeavesEntry after) (second : after.LeavesEntry last) :
    before.LeavesEntry last := by
  intro initialized
  obtain ⟨initialized, shown, buffer⟩ := second initialized
  obtain ⟨initialized, shown', buffer'⟩ := first initialized
  exact ⟨initialized, shown.trans shown', buffer.trans buffer'⟩

/-- A reset, for one, ends the entry. -/
theorem of_ended (ended : after.initialized = false) : before.LeavesEntry after :=
  fun initialized => nomatch ended.symm.trans initialized

end TypingScreen.LeavesEntry

/-- A change that keeps the unit selected for the value, or selects its first one. -/
def TypingScreen.KeepsUnit (before after : TypingScreen F) : Prop :=
  after.measuringUnitIndex = 0 ∨
    after.value = before.value ∧ after.measuringUnitIndex = before.measuringUnitIndex

namespace MenuState

variable [CFloat F]

/-- One change of the menu. `selectedDDS` of the FM page changes with its channel. -/
inductive Change : MenuState F → MenuState F → Prop
  | write (menu : MenuState F) {globals : Globals F} (write : Write menu.globals globals) :
      Change menu { menu with globals }
  | typing (menu : MenuState F) {typingScreen : TypingScreen F}
      (leaves : menu.typingScreen.LeavesEntry typingScreen)
      (unit : menu.typingScreen.KeepsUnit typingScreen) : Change menu { menu with typingScreen }
  | select (menu : MenuState F) {selectedElement : Nat}
      (inBounds : menu.selectedElement < 3 → selectedElement < 3) :
      Change menu { menu with selectedElement }
  | fill (menu : MenuState F) :
      Change menu { menu with
        menuElementsArray := [.editableValue .backlight, .outputEmpedance 0, .outputEmpedance 1]
        selectedElement := 0 }
  | point (menu : MenuState F) (fmChannel : Channel) :
      Change menu { menu with fmChannel, fmSelectedDDS := some fmChannel }
  | other (menu : MenuState F) (faulted : Bool) (selectedChannel : Channel) (menuPage : MenuPage)
      (pageStack : List MenuPage) (redrawScreen resetDDS : Bool) (mainParameter : MainParameter)
      (amChannel : Channel) (amParameter : AMParameter) (fmParameter : FMParameter)
      (sweepChannel : Channel) (sweepParameter : SweepParameter) (phaseOffsetChannel : Channel)
      (selectedIcon : Nat) (sdPage : SdPage) :
      Change menu { menu with
        faulted, selectedChannel, menuPage, pageStack, redrawScreen, resetDDS, mainParameter
        amChannel, amParameter, fmParameter, sweepChannel, sweepParameter, phaseOffsetChannel
        selectedIcon, sdPage }

/-- Changes, one after the other. -/
def Changes (menu after : MenuState F) : Prop := ReflTransGen Change menu after

namespace Changes

variable {menu after last : MenuState F}

theorem refl (menu : MenuState F) : menu.Changes menu := ReflTransGen.refl

theorem single (change : Change menu after) : menu.Changes after := ReflTransGen.single change

theorem tail (changes : menu.Changes after) (change : Change after last) : menu.Changes last :=
  ReflTransGen.tail changes change

theorem write (changes : menu.Changes after) {globals : Globals F}
    (write : Write after.globals globals) : menu.Changes { after with globals } :=
  changes.tail (.write after write)

theorem resetTypingScreen (changes : menu.Changes after) (editableValue : Option Pointer)
    (enable shown : Bool) : menu.Changes (after.resetTypingScreen editableValue enable shown) :=
  changes.tail (.typing after (.of_ended rfl) (.inl rfl))

theorem disableTyping (changes : menu.Changes after) : menu.Changes after.disableTyping :=
  changes.tail (.typing after (fun initialized => ⟨initialized, rfl, rfl⟩) (.inr ⟨rfl, rfl⟩))

theorem pushPage (changes : menu.Changes after) (page : Page) :
    menu.Changes (after.pushPage page) := by
  rw [MenuState.pushPage]
  split_ifs
  · exact changes.tail (.other ..)
  · exact changes.tail (.other ..)

theorem popPage (changes : menu.Changes after) : menu.Changes after.popPage := by
  rw [MenuState.popPage]
  split_ifs
  · cases after.pageStack with
    | nil => exact changes
    | cons top rest => exact changes.tail (.other ..)
  · exact changes.tail (.other ..)

theorem openIcon (changes : menu.Changes after) : menu.Changes after.openIcon := by
  rw [MenuState.openIcon]
  cases menuPages after.selectedIcon with
  | none => exact changes
  | some page => exact changes.pushPage page

theorem modifyDDS (changes : menu.Changes after) (channel : Channel)
    {change : DDSVariables F → DDSVariables F}
    (switches : (after.globals.dds channel).Switches (change (after.globals.dds channel))) :
    menu.Changes (after.modifyDDS channel change) :=
  changes.write (.switches after.globals channel switches)

theorem modifySelectedDDS (changes : menu.Changes after)
    {change : DDSVariables F → DDSVariables F}
    (switches : ∀ dds : DDSVariables F, dds.Switches (change dds)) :
    menu.Changes (after.modifySelectedDDS change) := by
  rw [MenuState.modifySelectedDDS]
  cases after.fmSelectedDDS with
  | none => exact changes.tail (.other ..)
  | some channel => exact changes.modifyDDS channel (switches _)

theorem addToMenuElement (changes : menu.Changes after) (menuElement : MenuElement) (value : F) :
    menu.Changes (after.addToMenuElement menuElement value) := by
  cases menuElement with
  | unset => exact changes.tail (.other ..)
  | editableValue ref =>
      exact changes.write (.value after.globals ref (.add (after.globals.value ref) value))
  | outputEmpedance channel =>
      exact changes.write (.outputEmpedance after.globals channel value)

theorem addToPhaseOffset (changes : menu.Changes after) (value : F) :
    menu.Changes (after.addToPhaseOffset value) :=
  changes.write (.value after.globals (.dds after.phaseOffsetChannel .phaseOffset) (.add _ value))

theorem toggleSweep (changes : menu.Changes after) : menu.Changes after.toggleSweep :=
  changes.write (.sweep after.globals after.sweepChannel)

/-- A handler of the FM page ends so. -/
theorem point (changes : menu.Changes after) :
    menu.Changes { after with fmSelectedDDS := some after.fmChannel } :=
  changes.tail (.point after after.fmChannel)

end Changes

/-! ## The handlers -/

theorem mainBtnDisplay_changes (menu : MenuState F) (button : UInt8) :
    menu.Changes (menu.mainBtnDisplay button) := by
  simp only [mainBtnDisplay]
  split_ifs
  · exact .resetTypingScreen (.single (.other ..)) none false false
  · have pushed := (Changes.refl menu).pushPage .graphicMenu
    exact .resetTypingScreen (pushed.tail (.other ..)) none false false
  · refine .modifyDDS (.refl menu) menu.selectedChannel ⟨fun field => ?_, rfl⟩
    cases field <;> rfl
  · exact .resetTypingScreen (.single (.other ..)) _ true false
  · exact .resetTypingScreen (.single (.other ..)) _ true false
  · exact .resetTypingScreen (.single (.other ..)) _ true false
  · exact .refl menu

theorem graphicBtnDisplay_changes (menu : MenuState F) (button : UInt8) :
    menu.Changes (menu.graphicBtnDisplay button) := by
  simp only [graphicBtnDisplay]
  split_ifs
  · exact .popPage (.refl menu)
  all_goals first
    | exact .single (.other ..)
    | exact .openIcon (.refl menu)

theorem settingsBtnDisplay_changes (menu : MenuState F) (button : UInt8) :
    menu.Changes (menu.settingsBtnDisplay button) := by
  simp only [settingsBtnDisplay]
  split_ifs with is0 is1 up is2 down
  · exact .popPage (.refl menu)
  · exact .single (.select menu fun inBounds => Nat.lt_of_le_of_lt (Nat.sub_le ..) inBounds)
  · exact .refl menu
  · exact .single (.select menu fun _ => down)
  · exact .refl menu
  · exact .addToMenuElement (.refl menu) ..
  · exact .addToMenuElement (.refl menu) ..
  · exact .refl menu

theorem phaseOffsetBtnDisplay_changes (menu : MenuState F) (button : UInt8) :
    menu.Changes (menu.phaseOffsetBtnDisplay button) := by
  simp only [phaseOffsetBtnDisplay]
  refine Changes.resetTypingScreen ?_ _ true false
  split_ifs
  · exact .popPage (.refl menu)
  · exact .single (.other ..)
  · exact .single (.other ..)
  · exact .addToPhaseOffset (.refl menu) _
  · exact .addToPhaseOffset (.refl menu) _
  · exact .refl menu

theorem sweepBtnDisplay_changes (menu : MenuState F) (button : UInt8) :
    menu.Changes (menu.sweepBtnDisplay button) := by
  simp only [sweepBtnDisplay]
  split_ifs
  · exact .popPage (.single (.other ..))
  · exact .single (.other ..)
  · exact .toggleSweep (.single (.other ..))
  · exact .resetTypingScreen (.single (.other ..)) _ true false
  · exact .resetTypingScreen (.single (.other ..)) _ true false
  · exact .resetTypingScreen (.single (.other ..)) _ true false
  · exact .refl menu

theorem amBtnDisplay_changes (menu : MenuState F) (button : UInt8) :
    menu.Changes (menu.amBtnDisplay button) := by
  simp only [amBtnDisplay]
  split_ifs
  · exact .popPage (.resetTypingScreen (.single (.other ..)) none false false)
  · exact .resetTypingScreen (.single (.other ..)) none false false
  · refine .modifyDDS (.single (.other ..)) menu.amChannel ⟨fun field => ?_, rfl⟩
    cases field <;> rfl
  · refine .modifyDDS (.refl menu) menu.amChannel ⟨fun field => ?_, rfl⟩
    cases field <;> rfl
  · exact .resetTypingScreen (.single (.other ..)) _ true false
  · exact .resetTypingScreen (.single (.other ..)) _ true false
  · exact .refl menu

theorem fmBtnDisplay_changes (menu : MenuState F) (button : UInt8) :
    menu.Changes (menu.fmBtnDisplay button) := by
  simp only [fmBtnDisplay]
  split_ifs
  · exact .point (.popPage (.resetTypingScreen (.single (.other ..)) none false false))
  · have reset : menu.Changes
        ({ menu with fmParameter := .none }.resetTypingScreen none false false) :=
      .resetTypingScreen (.single (.other ..)) none false false
    exact reset.tail (.point _ (toggled menu.fmChannel))
  · refine .point (.modifySelectedDDS (.single (.other ..)) fun dds => ⟨fun field => ?_, rfl⟩)
    cases field <;> rfl
  · refine .point (.modifySelectedDDS (.refl menu) fun dds => ⟨fun field => ?_, rfl⟩)
    cases field <;> rfl
  · exact .point (.resetTypingScreen (.single (.other ..)) _ true false)
  · exact .point (.resetTypingScreen (.single (.other ..)) _ true false)
  · exact .point (.refl menu)

theorem btnDisplay_changes (menu : MenuState F) (button : UInt8) :
    menu.Changes (menu.btnDisplay button) := by
  rw [btnDisplay]
  cases menu.menuPage.page with
  | main => exact menu.mainBtnDisplay_changes button
  | graphicMenu => exact menu.graphicBtnDisplay_changes button
  | settings => exact menu.settingsBtnDisplay_changes button
  | phaseOffset => exact menu.phaseOffsetBtnDisplay_changes button
  | sweep => exact menu.sweepBtnDisplay_changes button
  | amModulation => exact menu.amBtnDisplay_changes button
  | fmModulation => exact menu.fmBtnDisplay_changes button
  | sd =>
      simp only [sdBtnDisplay]
      split_ifs
      · exact .popPage (.refl menu)
      · exact .single (.other ..)

theorem processEncoder_changes (menu : MenuState F) (btnEncoder : UInt8) (encoder : Int8) :
    menu.Changes { menu with toEditor := menu.toEditor.processEncoder btnEncoder encoder } := by
  have moves : menu.typingScreen.LeavesEntry (menu.typingScreen.moveDigit btnEncoder) := by
    unfold TypingScreen.moveDigit
    split
    · exact fun initialized => ⟨initialized, rfl, rfl⟩
    split
    · exact fun initialized => ⟨initialized, rfl, rfl⟩
    · exact .of_eq rfl
  rw [Editor.processEncoder]
  split
  · cases menu.toEditor.target with
    | none => exact .single (.other ..)
    | some ref =>
        have turned : Write menu.globals (menu.globals.setValue ref
            (menu.typingScreen.turn (menu.globals.value ref) encoder)) :=
          .value menu.globals ref (.turn menu.typingScreen _ encoder)
        refine ((Changes.refl menu).write turned).tail (.typing _ ?_ (.inr ?_))
        · exact moves.trans fun initialized => ⟨initialized, rfl, rfl⟩
        · exact ⟨(menu.typingScreen.moveDigit_keeps btnEncoder).value,
            menu.typingScreen.moveDigit_measuringUnitIndex btnEncoder⟩
  · exact .refl menu

theorem btnEncoder_changes (menu : MenuState F) (button : UInt8) (encoder : Int8) :
    menu.Changes (menu.btnEncoder button encoder) := by
  rw [btnEncoder]
  cases menu.menuPage.page with
  | graphicMenu =>
      obtain ⟨selectedIcon, moved⟩ := menu.graphicBtnEncoder_eq button encoder
      simp only [moved]
      split_ifs
      · exact .openIcon (.single (.other ..))
      · exact .single (.other ..)
  | settings =>
      simp only [settingsBtnEncoder]
      split_ifs
      · exact .addToMenuElement (.refl menu) ..
      · exact .refl menu
  | phaseOffset =>
      simp only [phaseOffsetBtnEncoder]
      split_ifs
      · exact .addToPhaseOffset (.refl menu) _
      · exact .refl menu
  | sd => exact .single (.other ..)
  | main | sweep | amModulation | fmModulation => exact menu.processEncoder_changes button encoder

theorem init_changes (menu : MenuState F) : menu.Changes menu.init := by
  rw [init]
  cases menu.menuPage.page with
  | main | sweep | amModulation =>
      exact .resetTypingScreen (.single (.other ..)) none false false
  | phaseOffset => exact .resetTypingScreen (.single (.other ..)) _ true false
  | graphicMenu => exact .disableTyping (.single (.other ..))
  | settings => exact .disableTyping (.single (.fill menu))
  | fmModulation =>
      have pointed := (Changes.refl menu).point
      exact pointed.tail (.other ..)
  | sd => exact .single (.other ..)

theorem isrBtnEnable_changes (menu : MenuState F) (value : UInt8) :
    menu.Changes (menu.isrBtnEnable value) := by
  have toggles {after : MenuState F} (changes : menu.Changes after) (channel : Channel) :
      menu.Changes (after.toggleRelay channel) := by
    refine changes.modifyDDS channel ⟨fun field => ?_, rfl⟩
    cases field <;> rfl
  simp only [isrBtnEnable]
  refine Changes.tail ?_ (.other ..)
  split_ifs
  · exact toggles (toggles (.refl menu) 0) 1
  · exact toggles (.refl menu) 1
  · exact toggles (.refl menu) 0
  · exact .refl menu

/-! ## Events -/

/-- Every event but a key and a redraw makes changes. -/
theorem step_changes (card : SdCard.Card) (menu : MenuState F) {event : MenuEvent}
    (noKey : ∀ keyPressed, event ≠ .keypad keyPressed) (noRedraw : event ≠ .redraw) :
    menu.Changes (menu.step card event) := by
  cases event with
  | encoder button encoder => exact (menu.btnEncoder_changes button encoder).tail (.other ..)
  | display button => exact (menu.btnDisplay_changes button).tail (.other ..)
  | keypad keyPressed => exact absurd rfl (noKey keyPressed)
  | redraw => exact absurd rfl noRedraw
  | enable value => exact menu.isrBtnEnable_changes value

/-- A redraw makes changes before it draws the page. -/
theorem redraw_changes (card : SdCard.Card) (menu : MenuState F) :
    ∃ before, menu.Changes before ∧
      menu.redraw card = { before.draw card with redrawScreen := false } := by
  simp only [redraw]
  split_ifs
  · exact ⟨menu, .refl menu, rfl⟩
  · exact ⟨_, menu.init_changes.tail (.other ..), rfl⟩

end MenuState
end DDSFunctionGen.Menu

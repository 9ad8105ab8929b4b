import DDSFunctionGen.Menu.Highlight

/-!
# The display buttons and the highlight

A handler keeps the screen on the highlight if it moves them together. Those
that move one of them alone are listed in `Strands`.
-/

namespace DDSFunctionGen.Menu

namespace MenuState

variable {F : Type}

/-- The display buttons that leave an enabled screen on a value which is not
highlighted, or follow a null pointer. -/
def Strands (menu : MenuState F) (button : UInt8) : Prop :=
  match menu.menuPage.page with
  | .sweep =>
      menu.typingScreen.enabled = true ∧
        (button = btnDisplay0 ∨ button = btnDisplay1 ∨ button = btnDisplay2)
  | .amModulation => menu.typingScreen.enabled = true ∧ button = btnDisplay2
  | .fmModulation =>
      menu.typingScreen.enabled = true ∧ button = btnDisplay2 ∨
        menu.fmSelectedDDS = none ∧
          (button = btnDisplay2 ∨ button = btnDisplay3 ∨ button = btnDisplay4 ∨
            button = btnDisplay5)
  | .phaseOffset => button = btnDisplay0
  | .settings => menu.element = .unset ∧ (button = btnDisplay3 ∨ button = btnDisplay4)
  | .main | .graphicMenu | .sd => False

theorem mainBtnDisplay_follows {menu : MenuState F} (placed : menu.Placed) (follows : menu.Follows)
    (page : menu.menuPage.page = .main) (button : UInt8) : (menu.mainBtnDisplay button).Follows := by
  have typed (parameter : MainParameter) (field : DDSField) (names : parameter.field = some field) :
      (menu.selectMain parameter field).Follows := by
    refine .of_points follows.faulted ?_ rfl
    simp [highlighted, selectMain, resetTypingScreen, page, names]
  simp only [mainBtnDisplay]
  split_ifs
  · exact .of_disabled follows.faulted rfl
  · exact .of_disabled ((placed.pushPage_faulted _).trans follows.faulted) rfl
  · exact follows.of_keeps rfl rfl ⟨rfl, rfl⟩
  · exact typed .frequency .frequency rfl
  · exact typed .amplitude .amplitude rfl
  · exact typed .dcOffset .dcOffset rfl
  · exact follows

theorem openIcon_disabled {menu : MenuState F} (placed : menu.Placed)
    (faulted : menu.faulted = false) (disabled : menu.typingScreen.enabled = false) :
    menu.openIcon.Follows := by
  rw [openIcon]
  cases menuPages menu.selectedIcon with
  | none => exact .of_disabled faulted disabled
  | some page =>
      refine .of_disabled ((placed.pushPage_faulted page).trans faulted) ?_
      rw [pushPage_typingScreen, disabled]

theorem graphicBtnDisplay_follows {menu : MenuState F} (placed : menu.Placed)
    (follows : menu.Follows) (page : menu.menuPage.page = .graphicMenu) (button : UInt8) :
    (menu.graphicBtnDisplay button).Follows := by
  have disabled : menu.typingScreen.enabled = false :=
    follows.disabled (by rw [highlighted, page])
  simp only [graphicBtnDisplay]
  split_ifs
  · refine .of_disabled (placed.popPage_faulted.trans follows.faulted) ?_
    rw [popPage_typingScreen, disabled]
  all_goals first
    | exact .of_disabled follows.faulted disabled
    | exact openIcon_disabled placed follows.faulted disabled

/-- A change of the settings follows a null pointer where the element has none. -/
theorem addToMenuElement_faulted [CFloat F] {menu : MenuState F} (faulted : menu.faulted = false)
    (menuElement : MenuElement) (value : F) :
    (menu.addToMenuElement menuElement value).faulted = false ↔ menuElement ≠ .unset := by
  cases menuElement with
  | unset => simp [addToMenuElement, fault]
  | editableValue ref => simp [addToMenuElement, faulted]
  | outputEmpedance channel => simp [addToMenuElement, modifyDDS, faulted]

theorem addToMenuElement_follows_iff [CFloat F] {menu : MenuState F}
    (faulted : menu.faulted = false) (disabled : menu.typingScreen.enabled = false)
    (menuElement : MenuElement) (value : F) :
    (menu.addToMenuElement menuElement value).Follows ↔ menuElement ≠ .unset := by
  rw [← addToMenuElement_faulted faulted menuElement value]
  have same : (menu.addToMenuElement menuElement value).typingScreen = menu.typingScreen := by
    cases menuElement <;> rfl
  exact ⟨Follows.faulted, fun faulted => .of_disabled faulted (by rw [same, disabled])⟩

theorem settingsBtnDisplay_follows_iff [CFloat F] {menu : MenuState F} (placed : menu.Placed)
    (follows : menu.Follows) (page : menu.menuPage.page = .settings) (button : UInt8) :
    (menu.settingsBtnDisplay button).Follows ↔ ¬menu.Strands button := by
  have disabled : menu.typingScreen.enabled = false :=
    follows.disabled (by rw [highlighted, page])
  have changes := addToMenuElement_follows_iff follows.faulted disabled menu.element
  simp only [settingsBtnDisplay, Strands, page]
  split_ifs with is0 is1 up is2 down is3 is4
  · refine iff_of_true ((placed.popPage_follows_iff follows.faulted page rfl).mpr disabled) ?_
    simp [is0, btnDisplay0, btnDisplay3, btnDisplay4]
  · refine iff_of_true (.of_disabled follows.faulted disabled) ?_
    simp [is1, btnDisplay1, btnDisplay3, btnDisplay4]
  · refine iff_of_true follows ?_
    simp [is1, btnDisplay1, btnDisplay3, btnDisplay4]
  · refine iff_of_true (.of_disabled follows.faulted disabled) ?_
    simp [is2, btnDisplay2, btnDisplay3, btnDisplay4]
  · refine iff_of_true follows ?_
    simp [is2, btnDisplay2, btnDisplay3, btnDisplay4]
  · rw [changes]
    simp [is3]
  · rw [changes]
    simp [is4]
  · refine iff_of_true follows ?_
    simp [is3, is4]

theorem phaseOffsetBtnDisplay_follows_iff [CFloat F] {menu : MenuState F} (placed : menu.Placed)
    (follows : menu.Follows) (page : menu.menuPage.page = .phaseOffset) (button : UInt8) :
    (menu.phaseOffsetBtnDisplay button).Follows ↔ ¬menu.Strands button := by
  -- Where the page stays, the screen is reset to what it highlights.
  have typed {after : MenuState F} (stays : after.menuPage.page = .phaseOffset)
      (faulted : after.faulted = false) : after.typePhaseOffset.Follows := by
    refine .of_points faulted ?_ rfl
    simp [highlighted, typePhaseOffset, resetTypingScreen, stays]
  simp only [phaseOffsetBtnDisplay, Strands, page]
  by_cases is0 : button = btnDisplay0
  · simp only [is0, if_true, not_true_eq_false, iff_false]
    intro stranded
    have left : menu.popPage.typePhaseOffset.menuPage.page = .graphicMenu := by
      change menu.popPage.menuPage.page = .graphicMenu
      rw [placed.popPage_page, page]
      rfl
    have disabled := stranded.disabled (by rw [highlighted, left])
    cases disabled
  · refine iff_of_true ?_ is0
    rw [if_neg is0]
    split_ifs
    all_goals exact typed page follows.faulted

theorem selectSweep_follows {menu : MenuState F} (follows : menu.Follows)
    (page : menu.menuPage.page = .sweep) {parameter : SweepParameter} {field : SweepField}
    (names : parameter.field = some field) : (menu.selectSweep parameter field).Follows := by
  refine .of_points follows.faulted ?_ rfl
  simp [highlighted, selectSweep, resetTypingScreen, page, names]

/-- RETURN, CH_S and ON drop the highlight and leave the screen as it is. -/
theorem sweepBtnDisplay_follows_iff {menu : MenuState F} (placed : menu.Placed)
    (follows : menu.Follows) (page : menu.menuPage.page = .sweep) (button : UInt8) :
    (menu.sweepBtnDisplay button).Follows ↔ ¬menu.Strands button := by
  have dropped {after : MenuState F} (stays : after.menuPage.page = .sweep)
      (parameter : after.sweepParameter = .none) : after.highlighted = none := by
    simp [highlighted, stays, parameter, SweepParameter.field]
  simp only [sweepBtnDisplay, Strands, page]
  split_ifs with is0 is1 is2 is3 is4 is5
  · refine Iff.trans (Placed.popPage_follows_iff ⟨placed.callStack, placed.stack,
      placed.selectedDDS⟩ follows.faulted page rfl) ?_
    simp [is0]
  · refine Iff.trans (follows_iff_disabled (dropped page rfl) follows.faulted) ?_
    simp [is1]
  · refine Iff.trans (follows_iff_disabled (dropped page rfl) follows.faulted) ?_
    simp [is2, toggleSweep]
  · refine iff_of_true (selectSweep_follows follows page rfl) ?_
    simp [is0, is1, is2]
  · refine iff_of_true (selectSweep_follows follows page rfl) ?_
    simp [is0, is1, is2]
  · refine iff_of_true (selectSweep_follows follows page rfl) ?_
    simp [is0, is1, is2]
  · refine iff_of_true follows ?_
    simp [is0, is1, is2]

theorem selectAM_follows {menu : MenuState F} (follows : menu.Follows)
    (page : menu.menuPage.page = .amModulation) {parameter : AMParameter} {field : DDSField}
    (names : parameter.field = some field) : (menu.selectAM parameter field).Follows := by
  refine .of_points follows.faulted ?_ rfl
  simp [highlighted, selectAM, resetTypingScreen, page, names]

/-- ON drops the highlight and leaves the screen as it is. -/
theorem amBtnDisplay_follows_iff {menu : MenuState F} (placed : menu.Placed)
    (follows : menu.Follows) (page : menu.menuPage.page = .amModulation) (button : UInt8) :
    (menu.amBtnDisplay button).Follows ↔ ¬menu.Strands button := by
  simp only [amBtnDisplay, Strands, page]
  split_ifs with is0 is1 is2 is3 is4 is5
  · have back : ({ menu with amParameter := .none }.resetTypingScreen none false false).Placed :=
      ⟨placed.callStack, placed.stack, placed.selectedDDS⟩
    refine iff_of_true ((back.popPage_follows_iff follows.faulted page rfl).mpr rfl) ?_
    simp [is0, btnDisplay0, btnDisplay2]
  · refine iff_of_true (.of_disabled follows.faulted rfl) ?_
    simp [is1, btnDisplay1, btnDisplay2]
  · have dropped : ({ menu with amParameter := .none } : MenuState F).highlighted = none := by
      simp [highlighted, page, AMParameter.field]
    refine Iff.trans (follows_iff_disabled dropped follows.faulted) ?_
    simp [is2, modifyDDS]
  · refine iff_of_true (follows.of_keeps rfl rfl ⟨rfl, rfl⟩) ?_
    simp [is2]
  · refine iff_of_true (selectAM_follows follows page rfl) ?_
    simp [is2]
  · refine iff_of_true (selectAM_follows follows page rfl) ?_
    simp [is2]
  · refine iff_of_true follows ?_
    simp [is2]

/-- A parameter of the FM page is followed where the page points to its channel. -/
theorem selectFM_follows_iff {menu : MenuState F} (placed : menu.Placed) (follows : menu.Follows)
    (page : menu.menuPage.page = .fmModulation) {parameter : FMParameter} {field : DDSField}
    (names : parameter.field = some field) :
    (menu.selectFM parameter field).Follows ↔ menu.fmSelectedDDS ≠ none := by
  constructor
  · intro stray none
    obtain ⟨ref, -, value⟩ := stray.points rfl
    simp [selectFM, resetTypingScreen, TypingScreen.reset, fmPointer, none] at value
  · intro set
    have channel : menu.fmSelectedDDS = some menu.fmChannel := placed.selectedDDS.resolve_left set
    have highlights : (menu.selectFM parameter field).highlighted =
        some (.dds menu.fmChannel field) := by
      simp [highlighted, selectFM, resetTypingScreen, page, names]
    refine .of_points follows.faulted highlights ?_
    simp [selectFM, resetTypingScreen, TypingScreen.reset, fmPointer, channel]

/-- A change of the selected channel follows its pointer and moves nothing else. -/
theorem modifySelectedDDS_follows_iff (menu : MenuState F)
    (change : DDSVariables F → DDSVariables F) :
    (menu.modifySelectedDDS change).Follows ↔ menu.fmSelectedDDS ≠ none ∧ menu.Follows := by
  rw [modifySelectedDDS]
  cases menu.fmSelectedDDS with
  | none =>
      refine iff_of_false (fun follows => ?_) (fun both => both.1 rfl)
      have faulted := follows.faulted
      cases faulted
  | some channel =>
      refine ⟨fun follows => ⟨Option.some_ne_none channel, follows.of_keeps ?_ rfl ⟨rfl, rfl⟩⟩,
        fun both => both.2.of_keeps rfl rfl ⟨rfl, rfl⟩⟩
      rfl

/-- ON drops the highlight and leaves the screen as it is; before `init` the
page points nowhere. -/
theorem fmBtnDisplay_follows_iff {menu : MenuState F} (placed : menu.Placed)
    (follows : menu.Follows) (page : menu.menuPage.page = .fmModulation) (button : UInt8) :
    (menu.fmBtnDisplay button).Follows ↔ ¬menu.Strands button := by
  -- The pointer set at the end is no part of what the screen follows.
  have updated (after : MenuState F) :
      ({ after with fmSelectedDDS := some after.fmChannel } : MenuState F).Follows ↔
        after.Follows :=
    follows_congr rfl rfl rfl
  simp only [fmBtnDisplay, Strands, page]
  rw [updated]
  split_ifs with is0 is1 is2 is3 is4 is5
  · have back : ({ menu with fmParameter := .none }.resetTypingScreen none false false).Placed :=
      ⟨placed.callStack, placed.stack, placed.selectedDDS⟩
    refine iff_of_true ((back.popPage_follows_iff follows.faulted page rfl).mpr rfl) ?_
    simp [is0, btnDisplay0, btnDisplay2, btnDisplay3, btnDisplay4, btnDisplay5]
  · refine iff_of_true (.of_disabled follows.faulted rfl) ?_
    simp [is1, btnDisplay1, btnDisplay2, btnDisplay3, btnDisplay4, btnDisplay5]
  · have dropped : ({ menu with
        fmParameter := .none, resetDDS := true } : MenuState F).highlighted = none := by
      simp [highlighted, page, FMParameter.field]
    rw [modifySelectedDDS_follows_iff, follows_iff_disabled dropped follows.faulted]
    simp [is2, and_comm]
  · rw [modifySelectedDDS_follows_iff]
    simp [is3, follows, btnDisplay2, btnDisplay3]
  · rw [selectFM_follows_iff placed follows page rfl]
    simp [is4, btnDisplay2, btnDisplay4]
  · rw [selectFM_follows_iff placed follows page rfl]
    simp [is5, btnDisplay2, btnDisplay5]
  · refine iff_of_true follows ?_
    simp [is2, is3, is4, is5]

theorem sdBtnDisplay_follows {menu : MenuState F} (placed : menu.Placed) (follows : menu.Follows)
    (page : menu.menuPage.page = .sd) (button : UInt8) : (menu.sdBtnDisplay button).Follows := by
  have disabled : menu.typingScreen.enabled = false :=
    follows.disabled (by rw [highlighted, page])
  rw [sdBtnDisplay]
  split_ifs
  · exact (placed.popPage_follows_iff follows.faulted page rfl).mpr disabled
  · exact .of_disabled follows.faulted disabled

/-- A display button keeps the screen on the highlight unless it strands it. -/
theorem btnDisplay_follows_iff [CFloat F] {menu : MenuState F} (placed : menu.Placed)
    (follows : menu.Follows) (button : UInt8) :
    (menu.btnDisplay button).Follows ↔ ¬menu.Strands button := by
  cases page : menu.menuPage.page with
  | main =>
      simp only [btnDisplay, Strands, page, not_false_iff, iff_true]
      exact mainBtnDisplay_follows placed follows page button
  | graphicMenu =>
      simp only [btnDisplay, Strands, page, not_false_iff, iff_true]
      exact graphicBtnDisplay_follows placed follows page button
  | settings =>
      rw [btnDisplay, page]
      exact settingsBtnDisplay_follows_iff placed follows page button
  | phaseOffset =>
      rw [btnDisplay, page]
      exact phaseOffsetBtnDisplay_follows_iff placed follows page button
  | sweep =>
      rw [btnDisplay, page]
      exact sweepBtnDisplay_follows_iff placed follows page button
  | amModulation =>
      rw [btnDisplay, page]
      exact amBtnDisplay_follows_iff placed follows page button
  | fmModulation =>
      rw [btnDisplay, page]
      exact fmBtnDisplay_follows_iff placed follows page button
  | sd =>
      simp only [btnDisplay, Strands, page, not_false_iff, iff_true]
      exact sdBtnDisplay_follows placed follows page button

end MenuState
end DDSFunctionGen.Menu

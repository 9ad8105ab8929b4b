import DDSFunctionGen.Menu.PageStack

/-!
# The highlighted value

Each page highlights its selected parameter in its channel. The typing screen
belongs to no page: it follows the highlight where it is disabled or points to
the highlighted value.
-/

namespace DDSFunctionGen.Menu

/-- The value a parameter of the main page names. -/
def MainParameter.field : MainParameter → Option DDSField
  | .none => Option.none
  | .frequency => some .frequency
  | .amplitude => some .amplitude
  | .dcOffset => some .dcOffset

/-- The value a parameter of the AM page names. -/
def AMParameter.field : AMParameter → Option DDSField
  | .none => Option.none
  | .amFrequency => some .amModulationFrequency
  | .amModIndx => some .amModulationIndex

/-- The value a parameter of the FM page names. -/
def FMParameter.field : FMParameter → Option DDSField
  | .none => Option.none
  | .fmFrequency => some .fmModulationFrequency
  | .fmFrequencyDev => some .fmFrequencyDeviation

/-- The value a parameter of the sweep page names. -/
def SweepParameter.field : SweepParameter → Option SweepField
  | .none => Option.none
  | .startFrequency => some .startFrequency
  | .stopFrequency => some .stopFrequency
  | .sweepFrequency => some .sweepFrequency

namespace MenuState

variable {F : Type}

/-- The value the page highlights: its selected parameter in its channel. -/
def highlighted (menu : MenuState F) : Option ValueRef :=
  match menu.menuPage.page with
  | .main => menu.mainParameter.field.map (ValueRef.dds menu.selectedChannel)
  | .sweep => menu.sweepParameter.field.map (ValueRef.sweep menu.sweepChannel)
  | .amModulation => menu.amParameter.field.map (ValueRef.dds menu.amChannel)
  | .fmModulation => menu.fmParameter.field.map (ValueRef.dds menu.fmChannel)
  | .phaseOffset => some (.dds menu.phaseOffsetChannel .phaseOffset)
  | .graphicMenu | .settings | .sd => none

/-- An enabled typing screen points to the highlighted value, and no null
pointer has been followed. -/
structure Follows (menu : MenuState F) : Prop where
  faulted : menu.faulted = false
  points : menu.typingScreen.enabled = true →
    ∃ ref, menu.highlighted = some ref ∧ menu.typingScreen.value = some (.variable ref)

theorem Follows.of_disabled {menu : MenuState F} (faulted : menu.faulted = false)
    (disabled : menu.typingScreen.enabled = false) : menu.Follows :=
  ⟨faulted, fun enabled => absurd (enabled.symm.trans disabled) Bool.true_eq_false.mp⟩

theorem Follows.of_points {menu : MenuState F} {ref : ValueRef} (faulted : menu.faulted = false)
    (highlighted : menu.highlighted = some ref)
    (value : menu.typingScreen.value = some (.variable ref)) : menu.Follows :=
  ⟨faulted, fun _ => ⟨ref, highlighted, value⟩⟩

/-- A page that highlights nothing has the screen disabled. -/
theorem Follows.disabled {menu : MenuState F} (follows : menu.Follows)
    (nothing : menu.highlighted = none) : menu.typingScreen.enabled = false := by
  by_contra enabled
  obtain ⟨ref, highlighted, -⟩ := follows.points (Bool.not_eq_false _ ▸ enabled)
  rw [nothing] at highlighted
  exact nomatch highlighted

/-- Where nothing is highlighted the screen must be disabled. -/
theorem follows_iff_disabled {menu : MenuState F} (nothing : menu.highlighted = none)
    (faulted : menu.faulted = false) :
    menu.Follows ↔ menu.typingScreen.enabled = false :=
  ⟨fun follows => follows.disabled nothing, .of_disabled faulted⟩

theorem follows_congr {before after : MenuState F} (faulted : after.faulted = before.faulted)
    (highlighted : after.highlighted = before.highlighted)
    (typingScreen : after.typingScreen = before.typingScreen) :
    after.Follows ↔ before.Follows := by
  constructor
  · rintro ⟨afterFaulted, points⟩
    rw [faulted] at afterFaulted
    rw [highlighted, typingScreen] at points
    exact ⟨afterFaulted, points⟩
  · rintro ⟨beforeFaulted, points⟩
    rw [← faulted] at beforeFaulted
    rw [← highlighted, ← typingScreen] at points
    exact ⟨beforeFaulted, points⟩

/-- Only the page, its highlight and the target of the screen count. -/
theorem Follows.of_keeps {before after : MenuState F} (follows : before.Follows)
    (faulted : after.faulted = before.faulted) (highlighted : after.highlighted = before.highlighted)
    (target : before.typingScreen.KeepsTarget after.typingScreen) : after.Follows := by
  refine ⟨faulted.trans follows.faulted, fun enabled => ?_⟩
  obtain ⟨ref, before_highlighted, value⟩ := follows.points (target.enabled.symm.trans enabled)
  exact ⟨ref, highlighted.trans before_highlighted, target.value.trans value⟩

theorem Follows.aimed {menu : MenuState F} (follows : menu.Follows) : menu.toEditor.Aimed := by
  intro enabled
  obtain ⟨ref, -, value⟩ := follows.points enabled
  exact ⟨ref, value⟩

/-- Back from a sub-page to the page of icons, the screen must be disabled. -/
theorem Placed.popPage_follows_iff {menu : MenuState F} (placed : menu.Placed)
    (faulted : menu.faulted = false) {subPage : Page} (page : menu.menuPage.page = subPage)
    (under : pagesUnder subPage = [.graphicMenu, .main]) :
    menu.popPage.Follows ↔ menu.typingScreen.enabled = false := by
  have left : menu.popPage.menuPage.page = .graphicMenu := by
    rw [placed.popPage_page, page, under]
    rfl
  have nothing : menu.popPage.highlighted = none := by rw [highlighted, left]
  rw [follows_iff_disabled nothing (placed.popPage_faulted.trans faulted), popPage_typingScreen]

end MenuState
end DDSFunctionGen.Menu

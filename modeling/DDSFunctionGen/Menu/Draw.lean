import DDSFunctionGen.Menu.Pages
import Mathlib.Tactic.SplitIfs

/-!
# The main loop of the menu

`menu_draw` hands pending inputs to the current page, the encoder first, then
the buttons, then the keypad, and redraws. A page is initialised when it is
first redrawn, so inputs pending together reach a pushed page before that.
-/

namespace DDSFunctionGen.Menu

open DDSFunctionGen.Player DDSFunctionGen.SdCard DDSFunctionGen.Semantics

/-- What happens to the menu: an input is handled, the screen is redrawn, or
`ISR_btnEnable` runs. -/
inductive MenuEvent where
  | encoder (btnEncoder : UInt8) (encoder : Int8)
  | display (btnDisplay : UInt8)
  | keypad (keyPressed : UInt8)
  | redraw
  | enable (value : UInt8)
deriving DecidableEq, Repr

/-- The inputs pending as `menu_draw` is called. -/
structure Pending where
  btnEncoder : UInt8 := 0
  encoder : Int8 := 0
  btnDisplay : UInt8 := 0
  keypad : UInt8 := 0xFF
deriving DecidableEq, Repr

namespace MenuState

variable {F : Type} [CFloat F]

/-- `(*menuPage.init)()` -/
def init (menu : MenuState F) : MenuState F :=
  match menu.menuPage.page with
  | .main => menu.mainInit
  | .graphicMenu => menu.graphicInit
  | .settings => menu.settingsInit
  | .phaseOffset => menu.phaseOffsetInit
  | .sweep => menu.sweepInit
  | .amModulation => menu.amInit
  | .fmModulation => menu.fmInit
  | .sd => { menu with sdPage := menu.sdPage.mountRootDir }

/-- `(*menuPage.draw)()`, as far as it changes the menu. -/
def draw (card : Card) (menu : MenuState F) : MenuState F :=
  match menu.menuPage.page with
  | .sweep => menu.compute
  | .sd => { menu with sdPage := menu.sdPage.drawFileNames card }
  | _ => menu

/-- `(*menuPage.btn_display)(btnDisplay)` -/
def btnDisplay (menu : MenuState F) (button : UInt8) : MenuState F :=
  match menu.menuPage.page with
  | .main => menu.mainBtnDisplay button
  | .graphicMenu => menu.graphicBtnDisplay button
  | .settings => menu.settingsBtnDisplay button
  | .phaseOffset => menu.phaseOffsetBtnDisplay button
  | .sweep => menu.sweepBtnDisplay button
  | .amModulation => menu.amBtnDisplay button
  | .fmModulation => menu.fmBtnDisplay button
  | .sd => menu.sdBtnDisplay button

/-- `(*menuPage.btn_encoder)(btnEncoder, encoder)` -/
def btnEncoder (menu : MenuState F) (button : UInt8) (encoder : Int8) : MenuState F :=
  match menu.menuPage.page with
  | .main | .sweep | .amModulation | .fmModulation =>
      { menu with toEditor := menu.toEditor.processEncoder button encoder }
  | .graphicMenu => menu.graphicBtnEncoder button encoder
  | .settings => menu.settingsBtnEncoder encoder
  | .phaseOffset => menu.phaseOffsetBtnEncoder encoder
  | .sd => { menu with sdPage := menu.sdPage.btnEncoder button encoder }

/-- `(*menuPage.btn_keypad)(keypad)` -/
def btnKeypad (menu : MenuState F) (keyPressed : UInt8) : MenuState F :=
  match menu.menuPage.page with
  | .main | .sweep | .amModulation | .fmModulation | .phaseOffset =>
      { menu with toEditor := menu.toEditor.processKeypadPress keyPressed }
  | .graphicMenu | .settings | .sd => menu

/-- The redraw branch of `menu_draw`. -/
def redraw (card : Card) (menu : MenuState F) : MenuState F :=
  let menu :=
    if menu.menuPage.menuInitialized then menu
    else
      let menu := menu.init
      { menu with menuPage := { menu.menuPage with menuInitialized := true } }
  { menu.draw card with redrawScreen := false }

/-- `OutputRelay` of one channel, toggled. -/
def toggleRelay (menu : MenuState F) (channel : Channel) : MenuState F :=
  menu.modifyDDS channel fun dds => { dds with outputRelay := !dds.outputRelay }

/-- `ISR_btnEnable`, with the buttons it reads as pressed. -/
def isrBtnEnable (menu : MenuState F) (value : UInt8) : MenuState F :=
  let menu := if value &&& 0x01 ≠ 0 then menu.toggleRelay 0 else menu
  let menu := if value &&& 0x02 ≠ 0 then menu.toggleRelay 1 else menu
  { menu with resetDDS := true }

/-- One event. A handled input asks for a redraw. -/
def step (card : Card) (menu : MenuState F) : MenuEvent → MenuState F
  | .encoder button encoder => { menu.btnEncoder button encoder with redrawScreen := true }
  | .display button => { menu.btnDisplay button with redrawScreen := true }
  | .keypad keyPressed => { menu.btnKeypad keyPressed with redrawScreen := true }
  | .redraw => menu.redraw card
  | .enable value => menu.isrBtnEnable value

/-- `menu_draw` -/
def menuDraw (card : Card) (menu : MenuState F) (pending : Pending) : MenuState F :=
  let menu :=
    if pending.btnEncoder ≠ 0 ∨ pending.encoder ≠ 0 then
      { menu.btnEncoder pending.btnEncoder pending.encoder with redrawScreen := true }
    else menu
  let menu :=
    if pending.btnDisplay ≠ 0 then
      { menu.btnDisplay pending.btnDisplay with redrawScreen := true }
    else menu
  let menu :=
    if pending.keypad ≠ 0xFF then { menu.btnKeypad pending.keypad with redrawScreen := true }
    else menu
  if menu.redrawScreen then menu.redraw card else menu

/-- The inputs that one `menu_draw` hands on. -/
def inputs (pending : Pending) : List MenuEvent :=
  (if pending.btnEncoder ≠ 0 ∨ pending.encoder ≠ 0 then
    [.encoder pending.btnEncoder pending.encoder] else []) ++
  (if pending.btnDisplay ≠ 0 then [.display pending.btnDisplay] else []) ++
  (if pending.keypad ≠ 0xFF then [.keypad pending.keypad] else [])

/-- The program after `menu_init`. -/
def powerUp (rams : Firmware.LookupRams) : MenuState F where
  globals := Globals.defaults
  typingScreen :=
    { enabled := false, initialized := false, shown := false, invalidValue := false
      decimalPoint := false, numDecimalValues := 0, value := none, buffer := CFloat.ofInt 0
      measuringUnitIndex := 0, selectedDigit := 0, numDigits := 0 }
  selectedChannel := 0
  menuPage := { page := .main, menuPageCallStack := true }
  pageStack := []
  redrawScreen := true
  resetDDS := true
  mainParameter := .none
  amChannel := 0
  amParameter := .none
  fmChannel := 0
  fmParameter := .none
  fmSelectedDDS := none
  sweepChannel := 0
  sweepParameter := .none
  savedDDSVariables := fun _ => none
  phaseOffsetChannel := 0
  menuElementsArray := [.unset, .unset, .unset]
  selectedElement := 0
  selectedIcon := 0
  sdPage := SdPage.powerUp rams

/-- `menu_draw` hands on its inputs one by one, and redraws if it has to. -/
theorem menuDraw_eq_run (card : Card) (menu : MenuState F) (pending : Pending) :
    menu.menuDraw card pending =
      run (step card) menu (inputs pending ++
        if (run (step card) menu (inputs pending)).redrawScreen then [.redraw] else []) := by
  rw [run_append, run_optional]
  simp only [inputs, run_append, run_optional]
  rfl

omit [CFloat F] in
/-- The encoder moves to some icon, and opens it when pushed. -/
theorem graphicBtnEncoder_eq (menu : MenuState F) (button : UInt8) (encoder : Int8) :
    ∃ selectedIcon, menu.graphicBtnEncoder button encoder =
      if button = btnEncoderPB then { menu with selectedIcon }.openIcon
      else { menu with selectedIcon } := by
  by_cases turned : encoder ≠ 0
  · simp only [graphicBtnEncoder, if_pos turned]
    exact ⟨_, rfl⟩
  · simp only [graphicBtnEncoder, if_neg turned]
    exact ⟨menu.selectedIcon, rfl⟩

/-- `Compute` changes the variables of the channels, and what it saved of them. -/
theorem computeChannel_eq (menu : MenuState F) (channel : Channel) :
    ∃ globals savedDDSVariables,
      menu.computeChannel channel = { menu with globals, savedDDSVariables } := by
  simp only [computeChannel]
  split
  · split_ifs
    · exact ⟨_, _, rfl⟩
    · exact ⟨menu.globals, menu.savedDDSVariables, rfl⟩
  · split_ifs
    · exact ⟨_, menu.savedDDSVariables, rfl⟩
    · exact ⟨_, _, rfl⟩

/-- Drawing changes no more than `Compute` and the SD page do. -/
theorem draw_eq (card : Card) (menu : MenuState F) :
    ∃ globals savedDDSVariables sdPage,
      menu.draw card = { menu with globals, savedDDSVariables, sdPage } := by
  rw [draw]
  split
  · obtain ⟨globals, saved, first⟩ := menu.computeChannel_eq 0
    obtain ⟨globals', saved', second⟩ := (menu.computeChannel 0).computeChannel_eq 1
    refine ⟨globals', saved', menu.sdPage, ?_⟩
    rw [compute, second, first]
  · exact ⟨menu.globals, menu.savedDDSVariables, _, rfl⟩
  · exact ⟨menu.globals, menu.savedDDSVariables, menu.sdPage, rfl⟩

end MenuState
end DDSFunctionGen.Menu

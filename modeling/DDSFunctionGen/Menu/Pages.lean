import DDSFunctionGen.Menu.SdPage
import DDSFunctionGen.Menu.TypingScreen

/-!
# The menu pages

Eight pages share the typing screen and the stack of pages; each keeps its own
statics, which survive leaving the page. Handlers compare button codes for
equality.
-/

namespace DDSFunctionGen.Menu

open DDSFunctionGen.Firmware DDSFunctionGen.Player DDSFunctionGen.SdCard

/-- The pages, each standing for its five handlers. -/
inductive Page where
  | main
  | graphicMenu
  | settings
  | phaseOffset
  | sweep
  | amModulation
  | fmModulation
  | sd
deriving DecidableEq, Repr

/-- `s_MenuPage`. `menuPageCallStack` says whether the pointer is set to
`pageStack`, the only stack; it is null otherwise. -/
structure MenuPage where
  page : Page
  menuInitialized : Bool := false
  menuPageCallStack : Bool := false
deriving DecidableEq, Repr

/-- `e_SelectedParameter` of the main page. -/
inductive MainParameter where
  | none
  | frequency
  | amplitude
  | dcOffset
deriving DecidableEq, Repr

/-- `e_SelectedParameter` of the AM page. -/
inductive AMParameter where
  | none
  | amFrequency
  | amModIndx
deriving DecidableEq, Repr

/-- `e_SelectedParameter` of the FM page. -/
inductive FMParameter where
  | none
  | fmFrequency
  | fmFrequencyDev
deriving DecidableEq, Repr

/-- `e_SweepParameter` -/
inductive SweepParameter where
  | none
  | startFrequency
  | stopFrequency
  | sweepFrequency
deriving DecidableEq, Repr

/-- `s_MenuElement`: its type and pointer. A static element is `unset`, an
editable value with a null pointer, until `init` fills it in. -/
inductive MenuElement where
  | unset
  | editableValue (ref : ValueRef)
  | outputEmpedance (channel : Channel)
deriving DecidableEq, Repr

/-- The menu: the typing screen with the variables, the page and the stack, and
the statics of the pages. `savedDDSVariables` is `none` where
`savedDDSVariablesValid` is false. -/
structure MenuState (F : Type) extends Editor F where
  selectedChannel : Channel
  menuPage : MenuPage
  pageStack : List MenuPage
  redrawScreen : Bool
  resetDDS : Bool
  mainParameter : MainParameter
  amChannel : Channel
  amParameter : AMParameter
  fmChannel : Channel
  fmParameter : FMParameter
  fmSelectedDDS : Option Channel
  sweepChannel : Channel
  sweepParameter : SweepParameter
  savedDDSVariables : Channel → Option (DDSVariables F)
  phaseOffsetChannel : Channel
  menuElementsArray : List MenuElement
  selectedElement : Nat
  selectedIcon : Nat
  sdPage : SdPage

namespace MenuState

variable {F : Type}

/-- A null pointer is followed. -/
def fault (menu : MenuState F) : MenuState F := { menu with faulted := true }

/-- `GP_ResetTypingScreen` -/
def resetTypingScreen (menu : MenuState F) (editableValue : Option Pointer)
    (enable shown : Bool) : MenuState F :=
  { menu with typingScreen := menu.typingScreen.reset editableValue enable shown }

/-- `typingScreen.enabled = false` -/
def disableTyping (menu : MenuState F) : MenuState F :=
  { menu with typingScreen := { menu.typingScreen with enabled := false } }

/-- A change of `DDS_Variables[channel]`. -/
def modifyDDS (menu : MenuState F) (channel : Channel)
    (change : DDSVariables F → DDSVariables F) : MenuState F :=
  { menu with globals := menu.globals.setDDS channel (change (menu.globals.dds channel)) }

/-- `menu_PushPage` -/
def pushPage (menu : MenuState F) (newMenuPage : Page) : MenuState F :=
  if menu.menuPage.menuPageCallStack then
    { menu with
      pageStack := menu.menuPage :: menu.pageStack
      menuPage := { page := newMenuPage, menuInitialized := false, menuPageCallStack := true } }
  else menu.fault

/-- `menu_PopPage` -/
def popPage (menu : MenuState F) : MenuState F :=
  if menu.menuPage.menuPageCallStack then
    match menu.pageStack with
    | [] => menu
    | top :: rest =>
        { menu with pageStack := rest, menuPage := { top with menuPageCallStack := true } }
  else menu.fault

/-- `selectedChannel ? 0 : 1` -/
def toggled (channel : Channel) : Channel := if channel ≠ 0 then 0 else 1

/-! ## The main page -/

/-- `init` of the main page. -/
def mainInit (menu : MenuState F) : MenuState F :=
  { menu with mainParameter := .none }.resetTypingScreen none false false

/-- A parameter button of the main page. -/
def selectMain (menu : MenuState F) (parameter : MainParameter) (field : DDSField) : MenuState F :=
  { menu with mainParameter := parameter }.resetTypingScreen
    (some (.variable (.dds menu.selectedChannel field))) true false

/-- `btn_display` of the main page. -/
def mainBtnDisplay (menu : MenuState F) (button : UInt8) : MenuState F :=
  if button = btnDisplay0 then
    { menu with
      selectedChannel := menu.selectedChannel + 1
      mainParameter := .none }.resetTypingScreen none false false
  else if button = btnDisplay1 then
    { menu.pushPage .graphicMenu with mainParameter := .none }.resetTypingScreen none false false
  else if button = btnDisplay2 then
    menu.modifyDDS menu.selectedChannel fun dds => { dds with waveType := nextWave dds.waveType }
  else if button = btnDisplay3 then menu.selectMain .frequency .frequency
  else if button = btnDisplay4 then menu.selectMain .amplitude .amplitude
  else if button = btnDisplay5 then menu.selectMain .dcOffset .dcOffset
  else menu

/-! ## The page of icons -/

/-- `init` of the graphic menu. -/
def graphicInit (menu : MenuState F) : MenuState F :=
  { menu with selectedIcon := 0 }.disableTyping

/-- `menuPages[icon].p_menuPage` -/
def menuPages : Nat → Option Page
  | 0 => some .settings
  | 1 => some .phaseOffset
  | 2 => some .sweep
  | 3 => some .amModulation
  | 4 => some .fmModulation
  | 5 => some .sd
  | _ => none

/-- The page of the selected icon is entered, if it has one. -/
def openIcon (menu : MenuState F) : MenuState F :=
  match menuPages menu.selectedIcon with
  | some page => menu.pushPage page
  | none => menu

/-- `btn_display` of the graphic menu. -/
def graphicBtnDisplay (menu : MenuState F) (button : UInt8) : MenuState F :=
  if button = btnDisplay0 then menu.popPage
  else if button = btnDisplay1 then
    if 3 ≤ menu.selectedIcon then { menu with selectedIcon := menu.selectedIcon - 3 } else menu
  else if button = btnDisplay2 then
    if menu.selectedIcon + 3 < 9 then { menu with selectedIcon := menu.selectedIcon + 3 }
    else menu
  else if button = btnDisplay3 then
    if 1 ≤ menu.selectedIcon then { menu with selectedIcon := menu.selectedIcon - 1 } else menu
  else if button = btnDisplay4 then
    if menu.selectedIcon + 1 < 9 then { menu with selectedIcon := menu.selectedIcon + 1 }
    else menu
  else if button = btnDisplay5 then menu.openIcon
  else menu

/-- `btn_encoder` of the graphic menu. -/
def graphicBtnEncoder (menu : MenuState F) (button : UInt8) (encoder : Int8) : MenuState F :=
  let newSelectedIcon := menu.selectedIcon + encoder.toInt
  let newSelectedIcon :=
    if newSelectedIcon < 0 then 0 else if 9 ≤ newSelectedIcon then 8 else newSelectedIcon
  let menu :=
    if encoder ≠ 0 then { menu with selectedIcon := newSelectedIcon.toNat } else menu
  if button = btnEncoderPB then menu.openIcon else menu

/-! ## The settings -/

/-- `init` of the settings. -/
def settingsInit (menu : MenuState F) : MenuState F :=
  { menu with
    menuElementsArray := [.editableValue .backlight, .outputEmpedance 0, .outputEmpedance 1]
    selectedElement := 0 }.disableTyping

/-- `menuElementsArray[selectedElement]` -/
def element (menu : MenuState F) : MenuElement :=
  (menu.menuElementsArray[menu.selectedElement]?).getD .unset

/-- `menu_AddToMenuElement` -/
def addToMenuElement [CFloat F] (menu : MenuState F) (menuElement : MenuElement) (value : F) :
    MenuState F :=
  match menuElement with
  | .unset => menu.fault
  | .editableValue ref =>
      let sum := addToEditableValue (menu.globals.value ref) value
      { menu with globals := menu.globals.setValue ref sum }
  | .outputEmpedance channel =>
      menu.modifyDDS channel fun dds =>
        { dds with outputEmpedance := addToStringArray dds.outputEmpedance value }

/-- `btn_display` of the settings. -/
def settingsBtnDisplay [CFloat F] (menu : MenuState F) (button : UInt8) : MenuState F :=
  if button = btnDisplay0 then menu.popPage
  else if button = btnDisplay1 then
    if 1 ≤ menu.selectedElement then { menu with selectedElement := menu.selectedElement - 1 }
    else menu
  else if button = btnDisplay2 then
    if menu.selectedElement + 1 < 3 then { menu with selectedElement := menu.selectedElement + 1 }
    else menu
  else if button = btnDisplay3 then menu.addToMenuElement menu.element (CFloat.ofInt (-1))
  else if button = btnDisplay4 then menu.addToMenuElement menu.element (CFloat.ofInt 1)
  else menu

/-- `btn_encoder` of the settings. -/
def settingsBtnEncoder [CFloat F] (menu : MenuState F) (encoder : Int8) : MenuState F :=
  if encoder ≠ 0 then menu.addToMenuElement menu.element (CFloat.ofInt encoder.toInt) else menu

/-! ## The phase offset -/

/-- The typing screen on the phase offset of the page's channel. -/
def typePhaseOffset (menu : MenuState F) : MenuState F :=
  menu.resetTypingScreen (some (.variable (.dds menu.phaseOffsetChannel .phaseOffset))) true false

/-- `init` of the phase-offset page. -/
def phaseOffsetInit (menu : MenuState F) : MenuState F :=
  { menu with phaseOffsetChannel := 0 }.typePhaseOffset

/-- `AddToEditableValue(&DDS_Variables[selectedChannel].PhaseOffset, value)` -/
def addToPhaseOffset [CFloat F] (menu : MenuState F) (value : F) : MenuState F :=
  let ref := ValueRef.dds menu.phaseOffsetChannel .phaseOffset
  let sum := addToEditableValue (menu.globals.value ref) value
  { menu with globals := menu.globals.setValue ref sum }

/-- `btn_display` of the phase-offset page: after every button, RETURN too, the
typing screen is reset. -/
def phaseOffsetBtnDisplay [CFloat F] (menu : MenuState F) (button : UInt8) : MenuState F :=
  let menu :=
    if button = btnDisplay0 then menu.popPage
    else if button = btnDisplay1 then { menu with phaseOffsetChannel := 0 }
    else if button = btnDisplay2 then { menu with phaseOffsetChannel := 1 }
    else if button = btnDisplay3 then menu.addToPhaseOffset (CFloat.ofInt (-1))
    else if button = btnDisplay4 then menu.addToPhaseOffset (CFloat.ofInt 1)
    else menu
  menu.typePhaseOffset

/-- `btn_encoder` of the phase-offset page. -/
def phaseOffsetBtnEncoder [CFloat F] (menu : MenuState F) (encoder : Int8) : MenuState F :=
  if encoder ≠ 0 then menu.addToPhaseOffset (CFloat.ofInt encoder.toInt) else menu

/-! ## The sweep -/

/-- `init` of the sweep page. -/
def sweepInit (menu : MenuState F) : MenuState F :=
  { menu with sweepParameter := .none, sweepChannel := 0 }.resetTypingScreen none false false

/-- A parameter button of the sweep page. -/
def selectSweep (menu : MenuState F) (parameter : SweepParameter) (field : SweepField) :
    MenuState F :=
  { menu with sweepParameter := parameter }.resetTypingScreen
    (some (.variable (.sweep menu.sweepChannel field))) true false

/-- `sweepVariables[selectedChannel].on.selected ? 0 : 1` -/
def toggleSweep (menu : MenuState F) : MenuState F :=
  let sweep := menu.globals.sweep menu.sweepChannel
  let on := { sweep.on with selected := if sweep.on.selected ≠ 0 then 0 else 1 }
  { menu with globals := menu.globals.setSweep menu.sweepChannel { sweep with on } }

/-- `btn_display` of the sweep page: RETURN, CH_S and ON leave the typing screen
as it is. -/
def sweepBtnDisplay (menu : MenuState F) (button : UInt8) : MenuState F :=
  if button = btnDisplay0 then { menu with sweepParameter := .none }.popPage
  else if button = btnDisplay1 then
    { menu with sweepParameter := .none, sweepChannel := toggled menu.sweepChannel }
  else if button = btnDisplay2 then { menu with sweepParameter := .none }.toggleSweep
  else if button = btnDisplay3 then menu.selectSweep .startFrequency .startFrequency
  else if button = btnDisplay4 then menu.selectSweep .stopFrequency .stopFrequency
  else if button = btnDisplay5 then menu.selectSweep .sweepFrequency .sweepFrequency
  else menu

/-- What `Compute` does to the variables of a channel whose sweep is on. -/
def sweptVariables [CFloat F] (sweep : SweepVariables F) (dds : DDSVariables F) :
    DDSVariables F :=
  let startFrequencyHz := sweep.startFrequency.floatValue
  let stopFrequencyHz := sweep.stopFrequency.floatValue
  let frequencyDeviationHz := (stopFrequencyHz - startFrequencyHz) / CFloat.ofInt 2
  let centerFrequencyHz := startFrequencyHz + frequencyDeviationHz
  { dds with
    frequency :=
      { dds.frequency with
        floatValue := centerFrequencyHz, currentMeasuringUnit := .frequencyHz }
    fmFrequencyDeviation :=
      { dds.fmFrequencyDeviation with
        floatValue := frequencyDeviationHz, currentMeasuringUnit := .frequencyHz }
    fmModulationFrequency :=
      { dds.fmModulationFrequency with floatValue := sweep.sweepFrequency.floatValue }
    fmModulationWaveType := .sawtooth
    fmModulationON := true }

/-- One pass of the loop of `Compute`. -/
def computeChannel [CFloat F] (menu : MenuState F) (channel : Channel) : MenuState F :=
  let sweep := menu.globals.sweep channel
  let save (saved : Option (DDSVariables F)) : Channel → Option (DDSVariables F) :=
    fun other => if other = channel then saved else menu.savedDDSVariables other
  match menu.savedDDSVariables channel with
  | none =>
      if sweep.on.selected = 1 then
        { menu with savedDDSVariables := save (some (menu.globals.dds channel)) }.modifyDDS channel
          (sweptVariables sweep)
      else menu
  | some saved =>
      if sweep.on.selected = 1 then menu.modifyDDS channel (sweptVariables sweep)
      else { menu with savedDDSVariables := save none }.modifyDDS channel fun _ => saved

/-- `Compute` -/
def compute [CFloat F] (menu : MenuState F) : MenuState F :=
  (menu.computeChannel 0).computeChannel 1

/-! ## Amplitude modulation -/

/-- `init` of the AM page. -/
def amInit (menu : MenuState F) : MenuState F :=
  { menu with amParameter := .none }.resetTypingScreen none false false

/-- A parameter button of the AM page. -/
def selectAM (menu : MenuState F) (parameter : AMParameter) (field : DDSField) : MenuState F :=
  { menu with amParameter := parameter }.resetTypingScreen
    (some (.variable (.dds menu.amChannel field))) true false

/-- `btn_display` of the AM page: ON leaves the typing screen as it is. -/
def amBtnDisplay (menu : MenuState F) (button : UInt8) : MenuState F :=
  if button = btnDisplay0 then
    ({ menu with amParameter := .none }.resetTypingScreen none false false).popPage
  else if button = btnDisplay1 then
    { menu with
      amParameter := .none
      amChannel := toggled menu.amChannel }.resetTypingScreen none false false
  else if button = btnDisplay2 then
    { menu with amParameter := .none }.modifyDDS menu.amChannel fun dds =>
      { dds with amModulationON := !dds.amModulationON }
  else if button = btnDisplay3 then
    menu.modifyDDS menu.amChannel fun dds =>
      { dds with amModulationWaveType := nextWave dds.amModulationWaveType }
  else if button = btnDisplay4 then menu.selectAM .amFrequency .amModulationFrequency
  else if button = btnDisplay5 then menu.selectAM .amModIndx .amModulationIndex
  else menu

/-! ## Frequency modulation -/

/-- `init` of the FM page, which does not reset the typing screen. -/
def fmInit (menu : MenuState F) : MenuState F :=
  { menu with fmSelectedDDS := some menu.fmChannel, fmParameter := .none }

/-- `&selectedDDS->field` -/
def fmPointer (menu : MenuState F) (field : DDSField) : Pointer :=
  match menu.fmSelectedDDS with
  | some channel => .variable (.dds channel field)
  | none => .stray field

/-- A parameter button of the FM page. -/
def selectFM (menu : MenuState F) (parameter : FMParameter) (field : DDSField) : MenuState F :=
  { menu with fmParameter := parameter }.resetTypingScreen (some (menu.fmPointer field)) true false

/-- A change of `*selectedDDS`. -/
def modifySelectedDDS (menu : MenuState F) (change : DDSVariables F → DDSVariables F) :
    MenuState F :=
  match menu.fmSelectedDDS with
  | some channel => menu.modifyDDS channel change
  | none => menu.fault

/-- `btn_display` of the FM page: ON leaves the typing screen as it is. -/
def fmBtnDisplay (menu : MenuState F) (button : UInt8) : MenuState F :=
  let menu :=
    if button = btnDisplay0 then
      ({ menu with fmParameter := .none }.resetTypingScreen none false false).popPage
    else if button = btnDisplay1 then
      { menu with
        fmParameter := .none
        fmChannel := toggled menu.fmChannel }.resetTypingScreen none false false
    else if button = btnDisplay2 then
      { menu with fmParameter := .none, resetDDS := true }.modifySelectedDDS fun dds =>
        { dds with fmModulationON := !dds.fmModulationON }
    else if button = btnDisplay3 then
      menu.modifySelectedDDS fun dds =>
        { dds with fmModulationWaveType := nextWave dds.fmModulationWaveType }
    else if button = btnDisplay4 then menu.selectFM .fmFrequency .fmModulationFrequency
    else if button = btnDisplay5 then menu.selectFM .fmFrequencyDev .fmFrequencyDeviation
    else menu
  { menu with fmSelectedDDS := some menu.fmChannel }

/-! ## The SD page -/

/-- `btn_display` of the SD page. -/
def sdBtnDisplay (menu : MenuState F) (button : UInt8) : MenuState F :=
  if button = btnDisplay0 then menu.popPage
  else { menu with sdPage := menu.sdPage.btnDisplay button }

end MenuState
end DDSFunctionGen.Menu

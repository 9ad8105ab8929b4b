import Mathlib.Tactic.TypeStar

/-!
# Button codes

The display buttons, the encoder buttons and the keypad reach the menu as
bytes. Handlers compare them for equality, so several buttons pending at once
match no case.
-/

namespace DDSFunctionGen.Menu

/-- `_BTN_DISPLAY_0` to `_BTN_DISPLAY_5`, from the top. -/
def btnDisplay0 : UInt8 := 0x01
def btnDisplay1 : UInt8 := 0x02
def btnDisplay2 : UInt8 := 0x04
def btnDisplay3 : UInt8 := 0x08
def btnDisplay4 : UInt8 := 0x10
def btnDisplay5 : UInt8 := 0x20

/-- `_BTN_ENCODER_PB`, `_BTN_ENCODER_R` and `_BTN_ENCODER_L`. -/
def btnEncoderPB : UInt8 := 0x01
def btnEncoderR : UInt8 := 0x08
def btnEncoderL : UInt8 := 0x10

end DDSFunctionGen.Menu

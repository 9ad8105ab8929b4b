/-!
# The bus of the LCD controller

The display latches the data bus on the falling edge of E, as a command or as
display data according to A0.
-/

namespace DDSFunctionGen.Lcd

/-- The control signals E, RW, A0, RST and CS, from bit 4 down, and the data
bus. -/
structure LcdBus where
  control : BitVec 5
  data : BitVec 8
deriving DecidableEq, Repr

/-- What the display latches: A0 and the data bus. -/
structure Strobe where
  a0 : Bool
  data : BitVec 8
deriving DecidableEq, Repr

/-- `E`. -/
def LcdBus.enable (bus : LcdBus) : Bool := bus.control.getLsbD 4

/-- `A0`. -/
def LcdBus.a0 (bus : LcdBus) : Bool := bus.control.getLsbD 2

/-- The strobe between two states of the bus, if E falls. -/
def strobe (before after : LcdBus) : List Strobe :=
  if before.enable && !after.enable then [{ a0 := before.a0, data := before.data }] else []

/-- An instruction for the display. -/
def command (data : BitVec 8) : Strobe := { a0 := false, data }

/-- A byte for its memory. -/
def displayData (data : BitVec 8) : Strobe := { a0 := true, data }

end DDSFunctionGen.Lcd

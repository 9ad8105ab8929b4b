import DDSFunctionGen.Lcd.Bus

/-!
# The bridge between the display and the DMA controller

One falling clock edge of `LCD_DMA_Interface` runs four statements with
nonblocking assignments: conditions and right-hand sides read the registers as
they were, and the last assignment to a register wins. The two `integer`
registers are natural numbers here, as they stay far below 2^31.
-/

namespace DDSFunctionGen.Fpga

open DDSFunctionGen.Lcd

/-- The registers of `LCD_DMA_Interface`, its output registers included. -/
structure LcdDma where
  transmitterBusy : Bool
  transmissionDone : Bool
  pageAddressSet : Bool
  data : BitVec 8
  step : BitVec 4
  counter : Nat
  byteCounter : Nat
  waitrequest : Bool
  bus : LcdBus
deriving DecidableEq, Repr

/-- The inputs sampled at one falling clock edge. -/
structure LcdDmaInputs where
  cpu : LcdBus
  chipselect : Bool
  writeN : Bool
  writedata : BitVec 8
deriving DecidableEq, Repr

namespace LcdDma

/-- `//Read data and set waitrequest`: whether a byte is taken. -/
def takes (lcd : LcdDma) (inputs : LcdDmaInputs) : Bool :=
  !inputs.writeN && !lcd.transmitterBusy && inputs.chipselect && !lcd.transmissionDone

def readData (lcd : LcdDma) (inputs : LcdDmaInputs) (next : LcdDma) : LcdDma :=
  if lcd.takes inputs then
    { next with waitrequest := true, transmitterBusy := true, data := inputs.writedata }
  else next

/-- `//Set page address` -/
def setPageAddress (lcd next : LcdDma) : LcdDma :=
  if lcd.step = 0 then
    { next with
      bus := { control := 0b10010, data := BitVec.ofNat 8 (0xB0 + lcd.byteCounter / 128) }
      step := lcd.step + 1 }
  else if lcd.step = 2 then
    { next with bus := { control := 0b10010, data := 0x10 }, step := lcd.step + 1 }
  else if lcd.step = 4 then
    { next with bus := { control := 0b10010, data := 0x04 }, step := lcd.step + 1 }
  else
    let next := { next with bus := { lcd.bus with control := 0b00011 } }
    if 5 ≤ lcd.step then { next with step := 0, pageAddressSet := true }
    else { next with step := lcd.step + 1 }

/-- `//Send data` -/
def sendData (lcd next : LcdDma) : LcdDma :=
  let next :=
    if lcd.step = 0 ∨ lcd.step = 2 ∨ lcd.step = 4 ∨ lcd.step = 6 then
      { next with bus := { control := 0b10110, data := lcd.data } }
    else
      let next := { next with bus := { lcd.bus with control := 0b00111 } }
      if 7 ≤ lcd.step then
        { next with
          transmitterBusy := false, transmissionDone := true, pageAddressSet := false
          byteCounter := lcd.byteCounter + 1 }
      else next
  { next with step := lcd.step + 1 }

/-- The body of the divided clock: the page address before the first byte of a
page, the data otherwise. -/
def transmitStep (lcd next : LcdDma) : LcdDma :=
  if lcd.byteCounter % 128 = 0 ∧ lcd.pageAddressSet = false then lcd.setPageAddress next
  else lcd.sendData next

/-- `//Start data transmission` -/
def transmit (lcd next : LcdDma) : LcdDma :=
  if lcd.transmitterBusy then
    let next :=
      if lcd.counter % 32 = 0 ∧ lcd.counter ≠ 0 then lcd.transmitStep next else next
    { next with counter := lcd.counter + 1 }
  else next

/-- `//End of transission` -/
def endTransmission (lcd next : LcdDma) : LcdDma :=
  if lcd.transmissionDone then
    { next with waitrequest := false, transmissionDone := false, counter := 0, step := 0 }
  else next

/-- `//CPU has controll over the buss` -/
def releaseBus (lcd : LcdDma) (inputs : LcdDmaInputs) (next : LcdDma) : LcdDma :=
  if !lcd.transmitterBusy && !inputs.chipselect then
    { next with bus := inputs.cpu, byteCounter := 0 }
  else next

/-- One falling clock edge. -/
def clock (lcd : LcdDma) (inputs : LcdDmaInputs) : LcdDma :=
  lcd.releaseBus inputs (lcd.endTransmission (lcd.transmit (lcd.readData inputs lcd)))

end LcdDma

/-- The Avalon master: the byte it presents and those it has yet to present. -/
structure LcdMaster where
  current : Option (BitVec 8) := none
  pending : List (BitVec 8)
deriving DecidableEq, Repr

namespace LcdMaster

/-- The master moves on to its next byte, or ends the transfer. -/
def advance (master : LcdMaster) : LcdMaster where
  current := master.pending.head?
  pending := master.pending.tail

/-- One rising clock edge: a byte is held while `waitrequest` is high. -/
def clock (master : LcdMaster) (waitrequest : Bool) : LcdMaster :=
  if master.current.isSome && waitrequest then master else master.advance

/-- What the master drives: chip select and write exactly while it presents a
byte. -/
def inputs (master : LcdMaster) (cpu : LcdBus) : LcdDmaInputs where
  cpu := cpu
  chipselect := master.current.isSome
  writeN := master.current.isNone
  writedata := master.current.getD 0

end LcdMaster

/-- The bridge and its master, with the strobes given to the display and the
bytes the bridge has taken. -/
structure LcdBench where
  lcd : LcdDma
  master : LcdMaster
  strobes : List Strobe := []
  taken : List (BitVec 8) := []
deriving DecidableEq, Repr

/-- One clock: the rising edge of the master, then the falling edge of the
bridge. `cpu` is what the CPU drives meanwhile. -/
def LcdBench.cycle (bench : LcdBench) (cpu : LcdBus) : LcdBench :=
  let master := bench.master.clock bench.lcd.waitrequest
  let inputs := master.inputs cpu
  let lcd := bench.lcd.clock inputs
  { lcd, master
    strobes := bench.strobes ++ strobe bench.lcd.bus lcd.bus
    taken := if bench.lcd.takes inputs then bench.taken ++ [inputs.writedata] else bench.taken }

/-- The bridge with all flags, counters and `waitrequest` zero; `data` and the
bus hold anything. -/
def LcdDma.idle (data : BitVec 8) (bus : LcdBus) : LcdDma where
  transmitterBusy := false
  transmissionDone := false
  pageAddressSet := false
  data := data
  step := 0
  counter := 0
  byteCounter := 0
  waitrequest := false
  bus := bus

end DDSFunctionGen.Fpga

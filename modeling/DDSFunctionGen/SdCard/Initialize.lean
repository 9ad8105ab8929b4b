import DDSFunctionGen.SdCard.Driver

/-!
# The initialisation of the SD card

`SD_Initialize` detects the type of the card. Its five exits with `false` leave
the type at `e_SD_NONE` and return from inside the command sequence.
-/

namespace DDSFunctionGen.SdCard

universe u

/-- `e_SDType` -/
inductive SdType where
  | none
  | ver1X
  | ver200SC
  | ver200HCXC
deriving DecidableEq, Repr

/-- `s_ResponseR3` -/
structure ResponseR3 where
  r1 : BitVec 8
  ocr : BitVec 32
deriving DecidableEq, Repr

/-- `s_ResponseR7` -/
structure ResponseR7 where
  r1 : BitVec 8
  commandVersion : BitVec 8
  voltageAccepted : BitVec 8
  checkPattern : BitVec 8
deriving DecidableEq, Repr

/-- `_CMD0`, `_CMD8`, `_CMD16`, `_CMD55`, `_CMD58` and `_ACMD41`. -/
def cmd0 : BitVec 8 := 0
def cmd8 : BitVec 8 := 8
def cmd16 : BitVec 8 := 16
def cmd55 : BitVec 8 := 55
def cmd58 : BitVec 8 := 58
def acmd41 : BitVec 8 := 41

/-- `_R1_IN_IDLE_STATE_MSK` and `_R1_ILLEGAL_COMMAND_MSK`. -/
def r1InIdleStateMsk : BitVec 8 := 0x01
def r1IllegalCommandMsk : BitVec 8 := 0x04

variable {Card : Type u} (slave : SpiSlave Card)

/-- `SD_SendApplicationSpecificCommand` -/
def sdSendApplicationSpecificCommand (cmdNumber : BitVec 8) (data : BitVec 32)
    (bus : SpiBus Card) : SpiBus Card :=
  let bus := sdSendCommand slave cmd55 0x00000000 bus
  let (_, bus) := sdReadResponseR1 slave bus
  sdSendCommand slave cmdNumber data bus

/-- `SD_ReadResponseR3` -/
def sdReadResponseR3 (bus : SpiBus Card) : ResponseR3 × SpiBus Card :=
  let (r1, bus) := spiPoll slave bus
  let (byte3, bus) := spiPoll slave bus
  let (byte2, bus) := spiPoll slave bus
  let (byte1, bus) := spiPoll slave bus
  let (byte0, bus) := spiPoll slave bus
  let ocr := byte3.setWidth 32 <<< 24 ||| byte2.setWidth 32 <<< 16 ||| byte1.setWidth 32 <<< 8 |||
    byte0.setWidth 32
  ({ r1, ocr }, bus)

/-- `SD_ReadResponseR7` -/
def sdReadResponseR7 (bus : SpiBus Card) : ResponseR7 × SpiBus Card :=
  let (r1, bus) := spiPoll slave bus
  let (version, bus) := spiPoll slave bus
  let (_, bus) := spiPoll slave bus
  let (voltage, bus) := spiPoll slave bus
  let (checkPattern, bus) := spiPoll slave bus
  ({ r1, commandVersion := version >>> 4, voltageAccepted := voltage &&& 0x0F, checkPattern }, bus)

/-- `SD_SetBlockLength` -/
def sdSetBlockLength (length : BitVec 32) (bus : SpiBus Card) : SpiBus Card :=
  let bus := sdSendCommand slave cmd16 length bus
  (sdReadResponseR1 slave bus).2

/-- The loop that reads the response of CMD0, for at most `passes` polls. -/
def readCmd0Response (cmd0response : BitVec 8) (bus : SpiBus Card) : Nat → SpiBus Card
  | 0 => bus
  | passes + 1 =>
      if cmd0response ≠ 0x01 then
        let (cmd0response, bus) := sdReadResponseR1 slave bus
        readCmd0Response cmd0response bus passes
      else bus

/-- The loop that sends ACMD41, for at most `passes` times; it returns the last
`r1Response`. -/
def leaveIdleState (r1Response : BitVec 8) (bus : SpiBus Card) : Nat → BitVec 8 × SpiBus Card
  | 0 => (r1Response, bus)
  | passes + 1 =>
      if r1Response &&& r1InIdleStateMsk ≠ 0 then
        let bus := sdSendApplicationSpecificCommand slave acmd41 0 bus
        let (r1Response, bus) := sdReadResponseR1 slave bus
        leaveIdleState r1Response bus passes
      else (r1Response, bus)

/-- What both branches do first: CMD58, and ACMD41 until the card is out of idle
state. It says whether the voltage range is compatible and the card ready. -/
def sdMakeReady (bus : SpiBus Card) : Bool × SpiBus Card :=
  let bus := sdSendCommand slave cmd58 0 bus
  let (r3Resp, bus) := sdReadResponseR3 slave bus
  if r3Resp.ocr &&& 0xFF8000 ≠ 0 then
    let (r1Response, bus) := leaveIdleState slave r1InIdleStateMsk bus 100
    (r1Response &&& r1InIdleStateMsk = 0, bus)
  else (false, bus)

/-- The branches on the response to CMD8. -/
def sdDetect (r7Resp : ResponseR7) (bus : SpiBus Card) : SdType × SpiBus Card :=
  if r7Resp.r1 &&& r1IllegalCommandMsk ≠ 0 ∨ r7Resp.r1 &&& 0x80 ≠ 0 then
    -- Ver1.X SD Memory Card or Not SD Memory Card
    let (ready, bus) := sdMakeReady slave bus
    if ready then (.ver1X, bus) else (.none, bus)
  else if r7Resp.voltageAccepted = 0x01 ∧ r7Resp.checkPattern = 0xAA then
    -- Ver2.00 or later SD Memory Card
    let (ready, bus) := sdMakeReady slave bus
    if ready then
      let bus := sdSendCommand slave cmd58 0 bus
      let (r3Resp, bus) := sdReadResponseR3 slave bus
      if r3Resp.ocr &&& 1 <<< 30 ≠ 0 then (.ver200HCXC, bus) else (.ver200SC, bus)
    else (.none, bus)
  else (.none, bus)

/-- `SD_Initialize`: what it returns, and `sdType` after it. -/
def sdInitialize (bus : SpiBus Card) : Bool × SdType × SpiBus Card :=
  -- Send 80 clock cycles to synchronize SD
  let bus := spiCS slave false bus
  let bus := Nat.repeat (spiWriteByte slave 0xFF) 10 bus
  -- Send CMD0
  let bus := spiCS slave true bus
  let bus := sdSendCommand slave cmd0 0x00000000 bus
  let bus := readCmd0Response slave 0 bus 100
  -- Send CMD8
  let bus := sdSendCommand slave cmd8 0x000001AA bus
  let (r7Resp, bus) := sdReadResponseR7 slave bus
  let (sdType, bus) := sdDetect slave r7Resp bus
  if sdType = .none then (false, sdType, bus)
  else
    let bus :=
      if sdType = .ver1X ∨ sdType = .ver200SC then sdSetBlockLength slave 512 bus else bus
    (true, sdType, spiCS slave false bus)

end DDSFunctionGen.SdCard

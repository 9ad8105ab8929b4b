import DDSFunctionGen.SdCard.SpiBus

/-!
# The SD card driver: commands and block reads

A read returns the bytes stored at the caller's buffer, or `none` where the
function returns `false`; it then has stored nothing.
-/

namespace DDSFunctionGen.SdCard

open DDSFunctionGen.Semantics

universe u

/-- `CRCPoly`, the value of our CRC-7 polynomial -/
def crcPoly : BitVec 8 := 0x89

/-- One pass of the inner loop of `GenerateCRCTable`. -/
def crcShift (entry : BitVec 8) : BitVec 8 :=
  let entry := entry <<< 1
  if entry &&& 0x80 ≠ 0 then entry ^^^ crcPoly else entry

/-- Entry `i` of the table. -/
def crcTableEntry (i : BitVec 8) : BitVec 8 :=
  let entry := if i &&& 0x80 ≠ 0 then i ^^^ crcPoly else i
  Nat.repeat crcShift 7 entry

/-- `CRCTable` as `GenerateCRCTable` leaves it. -/
def crcTable : Vector (BitVec 8) 256 := Vector.ofFn fun i => crcTableEntry (BitVec.ofFin i)

/-- The index `(CRC << 1) ^ message_byte`, an `int`. -/
def crcIndex (crc messageByte : BitVec 8) : Nat := (crc.toNat <<< 1) ^^^ messageByte.toNat

/-- `CRCAdd`; an index outside the table reads 0 here. -/
def crcAdd (crc messageByte : BitVec 8) : BitVec 8 :=
  (crcTable[crcIndex crc messageByte]?).getD 0

/-- The bytes of a 32-bit argument, most significant first. -/
def argumentBytes (data : BitVec 32) : List (BitVec 8) :=
  [(data >>> 24).setWidth 8, (data >>> 16).setWidth 8, (data >>> 8).setWidth 8, data.setWidth 8]

/-- `GetCommandCRC` -/
def getCommandCRC (cmdNumber : BitVec 8) (data : BitVec 32) : BitVec 8 :=
  ((0x40 ||| cmdNumber) :: argumentBytes data).foldl crcAdd 0

variable {Card : Type u} (slave : SpiSlave Card)

/-- `SD_SendCommand` -/
def sdSendCommand (cmdNumber : BitVec 8) (data : BitVec 32) (bus : SpiBus Card) : SpiBus Card :=
  bus
    -- Start bits 01 + CMD number
    |> spiWriteByte slave (0x40 ||| cmdNumber)
    -- DATA
    |> spiWriteByte slave ((data >>> 24).setWidth 8)
    |> spiWriteByte slave ((data >>> 16).setWidth 8)
    |> spiWriteByte slave ((data >>> 8).setWidth 8)
    |> spiWriteByte slave (data.setWidth 8)
    -- CRC + stop bit
    |> spiWriteByte slave ((getCommandCRC cmdNumber data <<< 1) ||| 0x01)
    -- Dummy byte to give time to the SD to stuff
    |> spiWriteByte slave 0xFF

/-- `SD_ReadResponseR1` -/
def sdReadResponseR1 (bus : SpiBus Card) : BitVec 8 × SpiBus Card := spiPoll slave bus

/-- The loop of `SD_ReadResponseR1b`, for at most `passes` polls. -/
def readUntilNonzero (response : BitVec 8) (bus : SpiBus Card) : Nat → BitVec 8 × SpiBus Card
  | 0 => (response, bus)
  | passes + 1 =>
      if response ≠ 0 then (response, bus)
      else
        let (response, bus) := spiPoll slave bus
        readUntilNonzero response bus passes

/-- `SD_ReadResponseR1b` -/
def sdReadResponseR1b (bus : SpiBus Card) : BitVec 8 × SpiBus Card :=
  readUntilNonzero slave 0 bus 100

/-- `_CMD12`, `_CMD17` and `_CMD18`. -/
def cmd12 : BitVec 8 := 12
def cmd17 : BitVec 8 := 17
def cmd18 : BitVec 8 := 18

/-- The loop that waits for the start token, with `500 - timeoutCounter` passes
after this one; it returns the `timeoutCounter` it ends with. -/
def waitStartToken (timeoutCounter : Nat) (bus : SpiBus Card) : Nat → Nat × SpiBus Card
  | 0 =>
      let (responseToken, bus) := spiPoll slave bus
      if responseToken = 0xFE then (timeoutCounter, bus) else (timeoutCounter + 1, bus)
  | passes + 1 =>
      let (responseToken, bus) := spiPoll slave bus
      if responseToken = 0xFE then (timeoutCounter, bus)
      else waitStartToken (timeoutCounter + 1) bus passes

/-- A block and the two bytes of its CRC. -/
def readBlockAndCrc (bus : SpiBus Card) : List (BitVec 8) × SpiBus Card :=
  let (block, bus) := spiRead512Byte slave bus
  let (_, bus) := spiPoll slave bus
  let (_, bus) := spiPoll slave bus
  (block, bus)

/-- `SD_ReadSingleBlock` -/
def sdReadSingleBlock (address : BitVec 32) (bus : SpiBus Card) :
    Option (List (BitVec 8)) × SpiBus Card :=
  let bus := spiCS slave true bus
  let bus := sdSendCommand slave cmd17 address bus
  let (_, bus) := sdReadResponseR1 slave bus
  let (timeoutCounter, bus) := waitStartToken slave 0 bus 500
  if 500 ≤ timeoutCounter then (none, bus)
  else
    let (block, bus) := readBlockAndCrc slave bus
    (some block, spiCS slave false bus)

/-- The loop of `SD_ReadMultipleBlocks`. -/
def readBlocks (bus : SpiBus Card) : Nat → List (BitVec 8) × SpiBus Card
  | 0 => ([], bus)
  | count + 1 =>
      let (block, bus) := readBlockAndCrc slave bus
      let (blocks, bus) := readBlocks bus count
      (block ++ blocks, bus)

/-- `SD_ReadMultipleBlocks` -/
def sdReadMultipleBlocks (address : BitVec 32) (count : Nat) (bus : SpiBus Card) :
    Option (List (BitVec 8)) × SpiBus Card :=
  let bus := spiCS slave true bus
  let bus := sdSendCommand slave cmd18 address bus
  let (_, bus) := sdReadResponseR1 slave bus
  let (timeoutCounter, bus) := waitStartToken slave 0 bus 500
  if 500 ≤ timeoutCounter then (none, bus)
  else
    let (blocks, bus) := readBlocks slave bus count
    let bus := sdSendCommand slave cmd12 0x00 bus
    let (_, bus) := sdReadResponseR1b slave bus
    (some blocks, spiCS slave false bus)

/-- The loop that `MMC_disk_read` has commented out: `count` single reads from
`sector + i` on. -/
def readSingleBlocks (sector : BitVec 32) (i : Nat) (bus : SpiBus Card) :
    Nat → Option (List (BitVec 8)) × SpiBus Card
  | 0 => (some [], bus)
  | count + 1 =>
      match sdReadSingleBlock slave ((sector + BitVec.ofNat 32 i) * 512) bus with
      | (none, bus) => (none, bus)
      | (some block, bus) =>
          let (blocks, bus) := readSingleBlocks sector (i + 1) bus count
          (blocks.map (block ++ ·), bus)

/-- `MMC_disk_read`; `none` is `RES_ERROR`. -/
def mmcDiskRead (sector : BitVec 32) (count : Nat) (bus : SpiBus Card) :
    Option (List (BitVec 8)) × SpiBus Card :=
  if 1 < count then sdReadMultipleBlocks slave (sector * 512) count bus
  else sdReadSingleBlock slave (sector * 512) bus

end DDSFunctionGen.SdCard

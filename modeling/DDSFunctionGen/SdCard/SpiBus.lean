import DDSFunctionGen.Semantics.Transducer

/-!
# The SPI bus of the SD card

A slave on the bus answers each byte with one byte, and sees its chip select
change. Every byte written is one complete exchange: the functions that write
without waiting are followed by the wait of `SPI_ReadByte`.
-/

namespace DDSFunctionGen.SdCard

open DDSFunctionGen.Semantics

universe u

/-- What is connected to the bus. -/
structure SpiSlave (Card : Type u) where
  select : Card → Bool → Card
  exchange : Card → BitVec 8 → BitVec 8 × Card

/-- The bus as the firmware sees it: the card, the receive register, and the
last chip select. -/
structure SpiBus (Card : Type u) where
  card : Card
  rxdata : BitVec 8
  selected : Bool

variable {Card : Type u} (slave : SpiSlave Card)

/-- `SPI_CS` -/
def spiCS (active : Bool) (bus : SpiBus Card) : SpiBus Card :=
  { bus with card := slave.select bus.card active, selected := active }

/-- `SPI_WriteByte` -/
def spiWriteByte (byte : BitVec 8) (bus : SpiBus Card) : SpiBus Card :=
  let (rxdata, card) := slave.exchange bus.card byte
  { bus with card, rxdata }

/-- `SPI_ReadByte` -/
def spiReadByte (bus : SpiBus Card) : BitVec 8 := bus.rxdata

/-- `SPI_WriteByte(0xFF)` followed by `SPI_ReadByte()`. -/
def spiPoll (bus : SpiBus Card) : BitVec 8 × SpiBus Card :=
  let bus := spiWriteByte slave 0xFF bus
  (spiReadByte bus, bus)

/-- `SPI_Read512Byte`: the DMA controller reads with MOSI high, past the receive
register. -/
def spiRead512Byte (bus : SpiBus Card) : List (BitVec 8) × SpiBus Card :=
  let answer := transfer slave.exchange bus.card (List.replicate 512 0xFF)
  (answer.1, { bus with card := answer.2 })

end DDSFunctionGen.SdCard

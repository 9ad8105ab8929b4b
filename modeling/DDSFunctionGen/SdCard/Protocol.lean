import DDSFunctionGen.SdCard.Driver
import Mathlib.Algebra.Ring.Nat

/-!
# The SPI-mode protocol of a block read

What a card owes the driver: one packet for a single-block read, one packet for
each block of a multiple-block read. A card may check the CRC of a command or
ignore it, and answers R1 with any byte.
-/

namespace DDSFunctionGen.SdCard

open DDSFunctionGen.Semantics

universe u

/-- The contents of a card, in sectors. -/
structure Memory where
  block : Nat → List (BitVec 8)
  length_block : ∀ sector, (block sector).length = 512

attribute [simp] Memory.length_block

/-- A packet: gap bytes, the start token, the data, its CRC. -/
def packet (gap : Nat) (block crc : List (BitVec 8)) : List (BitVec 8) :=
  List.replicate gap 0xFF ++ 0xFE :: (block ++ crc)

/-- What a card chooses of each packet of a multiple-block read. -/
structure Answer where
  gap : Nat → Nat
  crc : Nat → List (BitVec 8)
  gap_lt : ∀ i, gap i < 500
  length_crc : ∀ i, (crc i).length = 2

attribute [simp] Answer.length_crc

/-- The card's stream in a multiple-block read of `count` blocks. -/
def Answer.stream (answer : Answer) (memory : Memory) (sector count : Nat) : List (BitVec 8) :=
  (List.range count).flatMap fun i => packet (answer.gap i) (memory.block (sector + i)) (answer.crc i)

theorem Answer.stream_succ (answer : Answer) (memory : Memory) (sector count : Nat) :
    answer.stream memory sector (count + 1) =
      answer.stream memory sector count ++
        packet (answer.gap count) (memory.block (sector + count)) (answer.crc count) := by
  simp [stream, List.range_succ]

/-- The bytes of a command, with the byte that follows it. -/
def commandFrame (cmdNumber : BitVec 8) (data : BitVec 32) : List (BitVec 8) :=
  (0x40 ||| cmdNumber) :: argumentBytes data ++ [(getCommandCRC cmdNumber data <<< 1) ||| 0x01, 0xFF]

variable {Card : Type u} (slave : SpiSlave Card)

/-- The card selected and given a command for the byte address of a sector. -/
def afterCommand (cmdNumber : BitVec 8) (sector : Nat) (card : Card) : Card :=
  (transfer slave.exchange (slave.select card true)
    (commandFrame cmdNumber (BitVec.ofNat 32 (sector * 512)))).2

/-- The card's answer to a multiple-block read, after an R1 response. -/
def AnswersMultiple (memory : Memory) (sector count : Nat) (answer : Answer) (card : Card) : Prop :=
  ∃ r1, Presents slave.exchange 0xFF (afterCommand slave cmd18 sector card)
    (r1 :: answer.stream memory sector count)

/-- A card that follows the protocol whenever it is `Ready`. -/
structure FollowsProtocol (memory : Memory) (Ready : Card → Prop) : Prop where
  single : ∀ card, Ready card → ∀ sector, sector * 512 < 2 ^ 32 →
    ∃ r1 gap crc, gap < 500 ∧ crc.length = 2 ∧
      Presents slave.exchange 0xFF (afterCommand slave cmd17 sector card)
        (r1 :: packet gap (memory.block sector) crc) ∧
      Ready (slave.select (stateAfter slave.exchange 0xFF (gap + 516)
        (afterCommand slave cmd17 sector card)) false)
  multiple : ∀ card, Ready card → ∀ sector count, 0 < count → (sector + count) * 512 ≤ 2 ^ 32 →
    ∃ answer, AnswersMultiple slave memory sector count answer card

end DDSFunctionGen.SdCard

import DDSFunctionGen.SdCard.ChipSelect
import DDSFunctionGen.SdCard.CommandCrc
import Mathlib.Tactic.Linarith

/-!
# The sector that a read asks for

`MMC_disk_read` sends the byte address of the sector, in 32 bits, to every card.
`SD_Initialize` tells high-capacity cards apart, which address blocks, but no read
looks at `sdType`.
-/

namespace DDSFunctionGen.SdCard

universe u

/-- The argument of a read command designates the sector to a card of the type: by
its byte address, or on a high-capacity card by its number. -/
def SdType.Designates (sector argument : BitVec 32) : SdType → Prop
  | .ver1X | .ver200SC => argument.toNat = sector.toNat * 512
  | .ver200HCXC => argument = sector
  | .none => False

/-- The byte address of the sector designates it, in 32 bits. -/
def SdType.ByteAddressable (sector : BitVec 32) : SdType → Prop
  | .ver1X | .ver200SC => sector.toNat * 512 < 2 ^ 32
  | .ver200HCXC => sector = 0
  | .none => False

/-- The command and the argument at the start of a record: a selected card given a
frame. -/
def recordedCommand : List Signal → Option (BitVec 8 × BitVec 32)
  | .select true :: .byte start :: .byte first :: .byte second :: .byte third :: .byte fourth ::
      _ => some (start &&& 0x3F, first ++ second ++ third ++ fourth)
  | _ => none

variable {Card : Type u} (slave : SpiSlave Card)

/-- `MMC_disk_read` sends CMD17 or CMD18 with an argument that designates the
sector. -/
def AsksForSector (sdType : SdType) (sector : BitVec 32) (count : Nat) (bus : SpiBus Card) :
    Prop :=
  ∃ cmdNumber argument,
    recordedCommand (mmcDiskRead (recorded slave) sector count
      { bus with card := (bus.card, []) }).2.card.2 = some (cmdNumber, argument) ∧
    (cmdNumber = cmd17 ∨ cmdNumber = cmd18) ∧ sdType.Designates sector argument

variable {slave}

/-- Every read sends its command first. -/
theorem run_record (read : BlockRead) (address : BitVec 32) (bus : SpiBus (Card × List Signal)) :
    bus.card.2 ++ .select true :: (commandFrame read.cmdNumber address).map .byte <+:
      (read.run (recorded slave) address bus).2.card.2 := by
  have sent := @continues_tokenAfter Card slave bus read.cmdNumber address
  refine sent.trans ?_
  cases read with
  | single =>
      rw [BlockRead.run, sdReadSingleBlock_eq, BlockRead.cmdNumber]
      generalize tokenAfter (recorded slave) cmd17 address bus = token
      dsimp only
      split
      · exact List.prefix_rfl
      · exact continues_readBlockAndCrc.trans (continues_spiCS false)
  | multiple count =>
      rw [BlockRead.run, sdReadMultipleBlocks_snd, BlockRead.cmdNumber]
      generalize tokenAfter (recorded slave) cmd18 address bus = token
      dsimp only
      split
      · exact List.prefix_rfl
      · exact (continues_readBlocks count).trans ((continues_sdSendCommand cmd12 0x00).trans
          (continues_sdReadResponseR1b.trans (continues_spiCS false)))

/-- The command of a read, from the record. -/
theorem run_recordedCommand (read : BlockRead) (address : BitVec 32)
    (bus : SpiBus (Card × List Signal)) (fresh : bus.card.2 = []) :
    recordedCommand (read.run (recorded slave) address bus).2.card.2 =
      some (read.cmdNumber, address) := by
  obtain ⟨rest, record⟩ := @run_record Card slave read address bus
  rw [fresh] at record
  have number : (0x40 ||| read.cmdNumber) &&& 0x3F = read.cmdNumber := by
    cases read with
    | single => decide
    | multiple => exact (by decide : (0x40 ||| cmd18) &&& 0x3F = cmd18)
  rw [← record]
  simp only [commandFrame, argumentBytes, List.nil_append, List.cons_append, List.map_cons,
    recordedCommand, number, MemoryCard.argument_joined]

/-- `MMC_disk_read` is one read, of the byte address. -/
theorem mmcDiskRead_eq (sector : BitVec 32) (count : Nat) (bus : SpiBus Card) :
    ∃ read : BlockRead,
      mmcDiskRead slave sector count bus = read.run slave (sector * 512) bus := by
  unfold mmcDiskRead
  split
  · exact ⟨.multiple count, rfl⟩
  · exact ⟨.single, rfl⟩

/-- The byte address, reduced to 32 bits, designates a sector of a type of card only
where it is exact, or on a high-capacity card where it is the number of the sector. -/
theorem designates_byteAddress_iff (sdType : SdType) (sector : BitVec 32) :
    sdType.Designates sector (sector * 512) ↔ sdType.ByteAddressable sector := by
  have product : (sector * 512).toNat = sector.toNat * 512 % 2 ^ 32 := by
    rw [BitVec.toNat_mul]
    rfl
  have inside := sector.isLt
  cases sdType with
  | none => exact Iff.rfl
  | ver1X | ver200SC =>
      simp only [SdType.Designates, SdType.ByteAddressable, product]
      exact ⟨fun exact => by omega, Nat.mod_eq_of_lt⟩
  | ver200HCXC =>
      have zero : (0 : BitVec 32).toNat = 0 := rfl
      simp only [SdType.Designates, SdType.ByteAddressable, ← BitVec.toNat_inj, product, zero]
      -- `511` is odd, so a sector congruent to 512 times itself is 0
      omega

/-- Whatever type `SD_Initialize` has detected, a read asks for its sector exactly where
the byte address designates it. -/
theorem asks_for_sector_iff (slave : SpiSlave Card) (sdType : SdType) (sector : BitVec 32)
    (count : Nat) (bus : SpiBus Card) :
    AsksForSector slave sdType sector count bus ↔ sdType.ByteAddressable sector := by
  obtain ⟨read, isRead⟩ := @mmcDiskRead_eq (Card × List Signal) (recorded slave) sector count
    { bus with card := (bus.card, []) }
  have command := @run_recordedCommand Card slave read (sector * 512)
    { bus with card := (bus.card, []) } rfl
  rw [← designates_byteAddress_iff, AsksForSector, isRead, command]
  constructor
  · rintro ⟨cmdNumber, argument, sent, -, designates⟩
    obtain ⟨-, rfl⟩ := Prod.mk.inj (Option.some.inj sent)
    exact designates
  · intro designates
    refine ⟨read.cmdNumber, sector * 512, rfl, ?_, designates⟩
    cases read with
    | single => exact .inl rfl
    | multiple => exact .inr rfl

/-- The bytes of a high-capacity card: idle after CMD0, voltage and pattern echoed,
ready after one ACMD41, and bit 30 of the OCR set. -/
def highCapacityCard (position : Nat) : BitVec 8 :=
  if position ∈ [17, 25, 28, 37] then 0x01
  else if position = 29 then 0xAA
  else if position ∈ [38, 66] then 0xC0
  else if position ∈ [39, 67] then 0xFF
  else if position ∈ [40, 68] then 0x80
  else 0x00

/-- Sector 1 of a card detected as high-capacity is asked for as block 512. -/
theorem high_capacity_sector_misaddressed :
    ¬ ∀ (stream : Nat → BitVec 8) (start : SpiBus Nat) (sector : BitVec 32) (count : Nat),
        (sdInitialize (streamSlave stream) start).1 = true →
        AsksForSector (streamSlave stream) (sdInitialize (streamSlave stream) start).2.1 sector count
          (sdInitialize (streamSlave stream) start).2.2 := by
  intro claimed
  let start : SpiBus Nat := { card := 0, rxdata := 0, selected := false }
  obtain ⟨cmdNumber, argument, sent, -, designates⟩ :=
    claimed highCapacityCard start 1 1 (by decide +kernel)
  have detected : (sdInitialize (streamSlave highCapacityCard) start).2.1 = .ver200HCXC := by
    decide +kernel
  have asked : recordedCommand (mmcDiskRead (recorded (streamSlave highCapacityCard)) 1 1
      { (sdInitialize (streamSlave highCapacityCard) start).2.2 with
        card := ((sdInitialize (streamSlave highCapacityCard) start).2.2.card, []) }).2.card.2 =
        some (cmd17, 512) := by
    decide +kernel
  rw [asked] at sent
  rw [detected] at designates
  obtain ⟨-, rfl⟩ := Prod.mk.inj (Option.some.inj sent)
  exact absurd designates (by decide : (512 : BitVec 32) ≠ 1)

end DDSFunctionGen.SdCard

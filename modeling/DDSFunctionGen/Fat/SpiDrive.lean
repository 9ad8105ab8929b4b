import DDSFunctionGen.Fat.MountedCard
import DDSFunctionGen.SdCard.BlockRead
import DDSFunctionGen.SdCard.Initialize

/-!
# The drive on the SPI bus

Drive 0 of `diskio.c` is the SD card. With a card that follows the protocol it serves
what the card stores, one sector at a time: reads of several sectors take what the card
sends between its blocks for data.
-/

namespace DDSFunctionGen.Fat

open DDSFunctionGen.SdCard DDSFunctionGen.Semantics

variable {Card : Type}

/-- The bus, and whether `STA_NOINIT` is clear in `sdStatus`. -/
structure MmcDisk (Card : Type) where
  sdStatus : Bool
  bus : SpiBus Card

section Lengths

variable {slave : SpiSlave Card} {bus : SpiBus Card}

theorem length_readBlockAndCrc : (readBlockAndCrc slave bus).1.length = 512 := by
  simp only [readBlockAndCrc, spiRead512Byte, transfer_length, List.length_replicate]

theorem length_readBlocks (count : Nat) : (readBlocks slave bus count).1.length = 512 * count := by
  induction count generalizing bus with
  | zero => rfl
  | succ count inductionHypothesis =>
      simp only [readBlocks, List.length_append, length_readBlockAndCrc, inductionHypothesis]
      omega

/-- A read that succeeds stores all its sectors. -/
theorem length_mmcDiskRead {sector : BitVec 32} {count : Nat} {bytes : List (BitVec 8)}
    (positive : 0 < count) (read : (mmcDiskRead slave sector count bus).1 = some bytes) :
    bytes.length = 512 * count := by
  rw [mmcDiskRead] at read
  by_cases several : 1 < count
  · rw [if_pos several, sdReadMultipleBlocks_fst] at read
    obtain ⟨-, same⟩ := Option.ite_none_left_eq_some.mp read
    obtain rfl := Option.some.inj same
    exact length_readBlocks count
  · obtain rfl : count = 1 := by omega
    rw [if_neg several, sdReadSingleBlock_eq] at read
    dsimp only at read
    rw [apply_ite Prod.fst] at read
    obtain ⟨-, same⟩ := Option.ite_none_left_eq_some.mp read
    obtain rfl := Option.some.inj same
    exact length_readBlockAndCrc

end Lengths

/-- `MMC_disk_status`, `MMC_disk_initialize` and `MMC_disk_read`, as `diskio.c` passes them
on. -/
def mmcDrive (slave : SpiSlave Card) : Drive (MmcDisk Card) where
  diskStatus disk := disk.sdStatus
  diskInitialize disk :=
    let (sdStatus, _, bus) := sdInitialize slave disk.bus
    (sdStatus, { sdStatus, bus })
  diskRead sector count disk :=
    let (bytes, bus) := mmcDiskRead slave (BitVec.ofNat 32 sector) count disk.bus
    (bytes.map fun bytes => bytes.map UInt8.ofBitVec, { disk with bus })
  length_diskRead {sector count disk bytes} positive read := by
    obtain ⟨stored, isStored, rfl⟩ := Option.map_eq_some_iff.mp read
    rw [List.length_map]
    exact length_mmcDiskRead positive isStored

/-- The image in a card. -/
def Image.memory (image : Image) : Memory where
  block sector := (image.sector sector).map UInt8.toBitVec
  length_block sector := by rw [List.length_map, image.length_sector]

variable {slave : SpiSlave Card} {image : Image} {CardReady : Card → Prop}

/-- A disk whose status was set by an initialisation, with a card that is ready. -/
structure MmcDisk.Ready (CardReady : Card → Prop) (disk : MmcDisk Card) : Prop where
  initialized : disk.sdStatus = true
  card : CardReady disk.bus.card

/-- A read of one sector gives it, and the card is ready for the next. -/
theorem mmcDrive_read (follows : FollowsProtocol slave image.memory CardReady)
    (addressable : image.size ≤ 2 ^ 23) {disk : MmcDisk Card} (ready : disk.Ready CardReady)
    {sector : Nat} (inside : sector < image.size) :
    ∃ after : MmcDisk Card, (mmcDrive slave).diskRead sector 1 disk =
      (some (image.sector sector), after) ∧ after.Ready CardReady := by
  have address : BitVec.ofNat 32 sector * 512 = BitVec.ofNat 32 (sector * 512) := by
    rw [BitVec.ofNat_mul]
    rfl
  obtain ⟨after, read, stillReady⟩ := sdReadSingleBlock_spec follows ready.card
    (by omega : sector * 512 < 2 ^ 32)
  refine ⟨{ disk with bus := after }, ?_, ⟨ready.initialized, stillReady⟩⟩
  have single : mmcDiskRead slave (BitVec.ofNat 32 sector) 1 disk.bus =
      (some (image.memory.block sector), after) := by
    rw [mmcDiskRead, if_neg (Nat.lt_irrefl 1), address, read]
  have same : (image.memory.block sector).map UInt8.ofBitVec = image.sector sector := by
    rw [Image.memory, List.map_map]
    exact List.map_id'' (fun _ => rfl) _
  simp only [mmcDrive, single, Option.map_some, same]

/-- The drive serves the image in the card. -/
theorem mmcDrive_serves (follows : FollowsProtocol slave image.memory CardReady)
    (addressable : image.size ≤ 2 ^ 23) :
    (mmcDrive slave).Serves image 1 (MmcDisk.Ready CardReady) where
  positive := Nat.one_pos
  status _ ready := ready.initialized
  ready disk sector count ready within := by
    obtain rfl : count = 1 := Nat.le_antisymm within.short within.positive
    obtain ⟨after, read, stillReady⟩ := mmcDrive_read follows addressable ready within.inside
    rw [read]
    exact stillReady
  gives disk sector count bytes ready within read := by
    obtain rfl : count = 1 := Nat.le_antisymm within.short within.positive
    obtain ⟨after, whole, -⟩ := mmcDrive_read follows addressable ready within.inside
    rw [whole] at read
    rw [Image.sectors_one, Option.some.inj read]

theorem mmcDrive_unfailing (follows : FollowsProtocol slave image.memory CardReady)
    (addressable : image.size ≤ 2 ^ 23) :
    (mmcDrive slave).Unfailing image 1 (MmcDisk.Ready CardReady) := by
  intro disk sector count ready within
  obtain rfl : count = 1 := Nat.le_antisymm within.short within.positive
  obtain ⟨after, read, -⟩ := mmcDrive_read follows addressable ready within.inside
  rw [read]
  rfl

/-- An initialisation that succeeds leaves the disk ready. -/
theorem mmcDrive_starts {disk : MmcDisk Card}
    (initialized : (sdInitialize slave disk.bus).1 = true)
    (ready : CardReady (sdInitialize slave disk.bus).2.2.card) :
    (mmcDrive slave).Starts (MmcDisk.Ready CardReady) disk :=
  ⟨initialized, initialized, ready⟩

variable {mount : Mount} {card : SdCard.Card} {directory : List CString → Option (Table mount image)}

/-- From `f_mount` on, over every sequence of accesses that read at most one whole sector
at once, the firmware sees what the card holds, through the file system, the
driver and the bus. -/
theorem spi_card_answers (follows : FollowsProtocol slave image.memory CardReady)
    (addressable : image.size ≤ 2 ^ 23) {vols : Volumes (MmcDisk Card)}
    (initialized : (sdInitialize slave vols.fs.pdrv.bus).1 = true)
    (ready : CardReady (sdInitialize slave vols.fs.pdrv.bus).2.2.card)
    (mounts : image.Mounts ((vols.fsid + 1) % 2 ^ 16) mount) (fits : mount.Fits image)
    (holds : Holds card directory) {fp : Fil} (closed : fp.obj.fs = false) {fil : SdCard.Fil}
    (invalid : fil.valid = false) (dir : Dir) (fno : FilInfo) {ops : List CardOp}
    (proper : ExpectsAlong (cardRespond card) (CardOp.Proper 1 mount.csize) fil ops) :
    (transfer (volumeRespond (mmcDrive slave) dir fno)
      (fp, (fMount (mmcDrive slave) true [] 0 vols).2) ops).1.map seen =
        (transfer (cardRespond card) fil ops).1 := by
  have serves := mmcDrive_serves follows addressable
  have unfailing := mmcDrive_unfailing follows addressable
  have unmounted := (fMount_unmounted vols (mmcDrive_starts initialized ready) unfailing mounts).2
  exact volume_answers_eq serves unfailing fits holds (.unmounted unmounted closed invalid) dir fno
    proper

/-- A card of version 1: it does not know CMD8, and its R1 has the bit for an illegal
command. -/
def ver1Slave (memory : Memory) : SpiSlave MemoryCard := MemoryCard.slave memory 0x04

theorem ver1_followsProtocol (memory : Memory) :
    FollowsProtocol (ver1Slave memory) memory fun _ => True :=
  MemoryCard.followsProtocol memory 0x04

/-- The volumes as the program starts, with such a card on the bus. -/
def ver1Vols : Volumes (MmcDisk MemoryCard) where
  fs := { pdrv := { sdStatus := false, bus := { card := {}, rxdata := 0, selected := false } } }

/-- The file, read across its clusters from such a card. -/
theorem spi_card_answers_tree :
    (transfer (volumeRespond (mmcDrive (ver1Slave (treeImage longContent).memory)) {} {})
      ({}, (fMount (mmcDrive (ver1Slave (treeImage longContent).memory)) true [] 0 ver1Vols).2)
      [.openFile treePath, .file (.seek 510), .file (.read 8)]).1.map seen =
        [{ succeeds := true }, { succeeds := true }, { succeeds := true, bytes := riff }] := by
  have initialized :
      (sdInitialize (ver1Slave (treeImage longContent).memory) ver1Vols.fs.pdrv.bus).1 = true := by
    decide +kernel
  have proper : ExpectsAlong (cardRespond (treeCard longContent))
      (CardOp.Proper 1 (treeMount 1).csize) {}
      [.openFile treePath, .file (.seek 510), .file (.read 8)] :=
    ⟨treePath_leads, trivial, FileOp.read_short (Nat.min_le_right _ _), trivial⟩
  rw [spi_card_answers (ver1_followsProtocol _) (by decide) initialized trivial
    (tree_mounts 1 longContent) (treeMount_fits 1 longContent) (tree_holds 1 longContent_short) rfl
    (rfl : ({} : SdCard.Fil).valid = false) {} {} proper]
  decide +kernel

end DDSFunctionGen.Fat

import DDSFunctionGen.Sequences.Blocks
import Mathlib.Algebra.Ring.Nat

/-!
# The drive under the file system

The file system reads sectors of 512 bytes through `disk_read`, which stores
all the sectors or fails. An image is what the sectors contain; a drive serves an
image when what it reads is the image's.
-/

namespace DDSFunctionGen.Fat

open DDSFunctionGen.Sequences

/-- The contents of a drive. The number 0xFFFFFFFF is not one of its sectors. -/
structure Image where
  size : Nat
  sector : Nat → List UInt8
  length_sector : ∀ n, (sector n).length = 512
  size_lt : size < 2 ^ 32

attribute [simp] Image.length_sector

/-- Consecutive sectors. -/
def Image.sectors (image : Image) (first count : Nat) : List UInt8 :=
  ((List.range' first count).map image.sector).flatten

/-- The functions of `diskio.c` for drive 0: whether `STA_NOINIT` is clear in what
`disk_status` and `disk_initialize` return, and the bytes that `disk_read` stores,
`none` where it returns an error. -/
structure Drive (Disk : Type) where
  diskStatus : Disk → Bool
  diskInitialize : Disk → Bool × Disk
  diskRead : (sector count : Nat) → Disk → Option (List UInt8) × Disk
  length_diskRead : ∀ {sector count disk bytes}, 0 < count →
    (diskRead sector count disk).1 = some bytes → bytes.length = 512 * count

namespace Drive

variable {Disk : Type} (drive : Drive Disk) (image : Image) (limit : Nat) (Ready : Disk → Prop)

/-- A read of some of the image's sectors, at most `limit` of them. -/
structure Within (sector count : Nat) : Prop where
  positive : 0 < count
  short : count ≤ limit
  inside : sector + count ≤ image.size

/-- Once `Ready` the drive stays ready, and every read of at most `limit` sectors that
succeeds gives those of the image. -/
structure Serves : Prop where
  positive : 0 < limit
  status : ∀ disk, Ready disk → drive.diskStatus disk = true
  ready : ∀ disk sector count, Ready disk → Within image limit sector count →
    Ready (drive.diskRead sector count disk).2
  gives : ∀ disk sector count bytes, Ready disk → Within image limit sector count →
    (drive.diskRead sector count disk).1 = some bytes → bytes = image.sectors sector count

/-- No read of a ready drive fails. -/
def Unfailing : Prop :=
  ∀ disk sector count, Ready disk → Within image limit sector count →
    (drive.diskRead sector count disk).1.isSome

variable {drive image limit Ready}

/-- A read of a ready drive gives the image's sectors, or the drive is not unfailing. -/
theorem Serves.read (serves : drive.Serves image limit Ready) {disk : Disk} {sector count : Nat}
    (ready : Ready disk) (within : Within image limit sector count) :
    (drive.diskRead sector count disk).1 = some (image.sectors sector count) ∨
      (drive.diskRead sector count disk).1 = none ∧ ¬ drive.Unfailing image limit Ready := by
  cases answer : (drive.diskRead sector count disk).1 with
  | some bytes =>
      exact .inl (congrArg some (serves.gives disk sector count bytes ready within answer))
  | none =>
      refine .inr ⟨rfl, fun unfailing => ?_⟩
      have succeeds := unfailing disk sector count ready within
      rw [answer] at succeeds
      exact absurd succeeds (by simp)

/-- One sector of the image may be read. -/
theorem Serves.within_one (serves : drive.Serves image limit Ready) {sector : Nat}
    (inside : sector < image.size) : Within image limit sector 1 :=
  ⟨Nat.one_pos, serves.positive, inside⟩

end Drive

@[simp] theorem Image.sectors_one (image : Image) (sector : Nat) :
    image.sectors sector 1 = image.sector sector := by
  simp [Image.sectors]

/-- The sectors of an image are blocks of 512 bytes. -/
theorem Image.uniform (image : Image) (numbers : List Nat) :
    Uniform 512 (numbers.map image.sector) :=
  Uniform.map fun number _ => image.length_sector number

theorem Image.length_sectors (image : Image) (first count : Nat) :
    (image.sectors first count).length = 512 * count := by
  rw [sectors, (image.uniform _).length_flatten, List.length_map, List.length_range']

/-- A drive that has the image; some of its reads may fail. -/
def Image.drive (image : Image) (fails : Nat → Bool := fun _ => false) : Drive Nat where
  diskStatus _ := true
  diskInitialize reads := (true, reads)
  diskRead sector count reads :=
    (if fails reads then none else some (image.sectors sector count), reads + 1)
  length_diskRead {sector count reads bytes} _ read := by
    obtain ⟨-, same⟩ := Option.ite_none_left_eq_some.mp read
    obtain rfl := Option.some.inj same
    exact image.length_sectors sector count

theorem Image.drive_serves (image : Image) {limit : Nat} (positive : 0 < limit)
    (fails : Nat → Bool := fun _ => false) :
    (image.drive fails).Serves image limit fun _ => True where
  positive := positive
  status _ _ := rfl
  ready _ _ _ _ _ := trivial
  gives reads sector count bytes _ _ read := by
    obtain ⟨-, same⟩ := Option.ite_none_left_eq_some.mp read
    exact (Option.some.inj same).symm

theorem Image.drive_unfailing (image : Image) (limit : Nat) :
    image.drive.Unfailing image limit fun _ => True := fun _ _ _ _ _ => rfl

section DirectoryTree

/-- A sector that begins with these bytes. -/
def paddedSector (bytes : List UInt8) : List UInt8 :=
  bytes.take 512 ++ List.replicate (512 - bytes.length) 0

theorem length_paddedSector (bytes : List UInt8) : (paddedSector bytes).length = 512 := by
  simp only [paddedSector, List.length_append, List.length_take, List.length_replicate]
  omega

/-- A partition table with one partition, of 345 sectors from sector 1 on. -/
def treePartitions : List UInt8 :=
  List.replicate 446 0 ++ [0, 0, 0, 0, 0x01, 0, 0, 0, 0x01, 0, 0, 0, 0x59, 0x01, 0, 0] ++
    List.replicate 48 0 ++ [0x55, 0xAA]

/-- The boot record of the volume in it: the record, one FAT of 12 bits in two sectors, a
root table of 16 entries and 341 clusters of a sector. -/
def treeBoot : List UInt8 :=
  [0xEB, 0x3C, 0x90, 0, 0, 0, 0, 0, 0, 0, 0, 0x00, 0x02, 0x01, 0x01, 0x00, 0x01, 0x10, 0x00, 0x59,
    0x01, 0xF8, 0x02, 0x00] ++ List.replicate 30 0 ++ [0x46, 0x41, 0x54, 0x31, 0x32] ++
    List.replicate 451 0 ++ [0x55, 0xAA]

/-- Its FAT: cluster 2 is a chain of its own, and cluster 341, whose entry lies across the
sectors, is linked to 342. -/
def treeFat : List UInt8 := [0xF8, 0xFF, 0xFF, 0xFF, 0x0F] ++ List.replicate 506 0 ++ [0x60]
def treeFatEnd : List UInt8 := [0x15, 0xFF, 0x0F]

/-- An entry of a directory table. -/
def rawEntry (name : List UInt8) (attr : UInt8) (clst size : Nat) : List UInt8 :=
  name ++ attr :: List.replicate 14 0 ++ [UInt8.ofNat clst, UInt8.ofNat (clst / 256),
    UInt8.ofNat size, UInt8.ofNat (size / 256), 0, 0]

/-- The directory `D` in the root directory, in cluster 2. -/
def directoryEntry : List UInt8 := rawEntry (0x44 :: List.replicate 10 0x20) 0x10 2 0

/-- The entries `.` and `..` of the directory. -/
def dotEntry : List UInt8 := rawEntry (0x2E :: List.replicate 10 0x20) 0x10 2 0
def dotDotEntry : List UInt8 := rawEntry (0x2E :: 0x2E :: List.replicate 9 0x20) 0x10 0 0

/-- The file `A.WAV` in the directory, in the clusters 341 and 342. -/
def waveEntry (size : Nat) : List UInt8 :=
  rawEntry ([0x41, 0x20, 0x20, 0x20, 0x20, 0x20, 0x20, 0x20, 0x57, 0x41, 0x56]) 0x20 341 size

def treeSector (content : List UInt8) : Nat → List UInt8
  | 0 => paddedSector treePartitions
  | 1 => paddedSector treeBoot
  | 2 => paddedSector treeFat
  | 3 => paddedSector treeFatEnd
  | 4 => paddedSector [directoryEntry].flatten
  | 5 => paddedSector [dotEntry, dotDotEntry, waveEntry content.length].flatten
  | sector => paddedSector <|
      if sector = 344 then content.take 512 else if sector = 345 then content.drop 512 else []

/-- The drive whose only file has this content, of at most two sectors. -/
def treeImage (content : List UInt8) : Image where
  size := 346
  sector := treeSector content
  length_sector n := by
    unfold treeSector
    split <;> exact length_paddedSector _
  size_lt := by decide

/-- "RIFF" -/
def riff : List UInt8 := [0x52, 0x49, 0x46, 0x46]

/-- Bytes of which these cross from the first cluster to the second. -/
def longContent : List UInt8 := List.replicate 510 0x80 ++ riff

theorem longContent_short : longContent.length ≤ 1024 := by decide +kernel

end DirectoryTree

end DDSFunctionGen.Fat

import DDSFunctionGen.Fat.Table
import DDSFunctionGen.SdCard.FatFs

/-!
# Mounting a volume

The volume is mounted by the first access to it: `find_volume` looks for a FAT boot
record in sector 0 and in the four partitions and takes the layout of the volume from its
parameter block.
-/

namespace DDSFunctionGen.Fat

/-- `FatFs[0]` and `Fsid`, with the filesystem object that the firmware registers. -/
structure Volumes (Disk : Type) where
  enabled : Bool := false
  fsid : Nat := 0
  fs : FatFs Disk

/-- The values of `check_fs`, those of exFAT apart. -/
inductive BootSector where
  | fat | other | notBoot | diskErr
deriving DecidableEq, Repr

def isDigit (c : UInt8) : Bool := 0x30 ≤ c && c ≤ 0x39

/-- `get_ldnumber`: the drive number and the path behind the drive prefix. -/
def getLdnumber (path : SdCard.CString) : Option (Nat × SdCard.CString) :=
  -- Find a colon in the path
  let drivePrefix := path.takeWhile fun tc => 0x21 ≤ tc && tc != 0x3A
  if path[drivePrefix.length]? = some 0x3A then
    let tp := path.getD 0 0
    let i := if isDigit tp ∧ drivePrefix.length + 1 = 2 then tp.toNat - 0x30 else 1
    if i < 1 then some (i, path.drop (drivePrefix.length + 1)) else none
  else some (0, path)

/-- The comparisons of `check_fs` on the sector in the window. -/
def bootSector (win : List UInt8) : BootSector :=
  if ldWord win 510 ≠ 0xAA55 then .notBoot
  else if win.getD 0 0 = 0xE9 ∨ win.getD 0 0 = 0xEB ∨ win.getD 0 0 = 0xE8 then
    if (win.drop 54).take 3 = [0x46, 0x41, 0x54] then .fat
    else if (win.drop 82).take 5 = [0x46, 0x41, 0x54, 0x33, 0x32] then .fat
    else .other
  else .other

/-- `br[i]`, the first sector of a partition. -/
def partitionStart (win : List UInt8) (i : Nat) : Nat :=
  let pt := 446 + i * 16
  if win.getD (pt + 4) 0 ≠ 0 then ldDword win (pt + 8) else 0

/-- `MAX_FAT12`, `MAX_FAT16` and `MAX_FAT32`, the clusters a volume may have. -/
def maxFat12 : Nat := 0xFF5
def maxFat16 : Nat := 0xFFF5
def maxFat32 : Nat := 0x0FFFFFF5

/-- The FAT sub-type of a number of clusters. -/
def subType (nclst : Nat) : FsType :=
  if nclst ≤ maxFat12 then .fat12
  else if nclst ≤ maxFat16 then .fat16
  else if nclst ≤ maxFat32 then .fat32
  else .none

/-- The sectors of a FAT, and of the volume, by a boot record. -/
def fatSize (win : List UInt8) : Nat :=
  let fasize := ldWord win 22
  if fasize = 0 then ldDword win 36 else fasize

def totalSectors (win : List UInt8) : Nat :=
  let tsect := ldWord win 19
  if tsect = 0 then ldDword win 32 else tsect

/-- The bytes that the FAT of a volume needs. -/
def neededFat (fmt : FsType) (nFatent : Nat) : Nat :=
  if fmt = .fat32 then nFatent * 4
  else if fmt = .fat16 then nFatent * 2
  else nFatent * 3 / 2 + (nFatent &&& 1)

/-- The part of `find_volume` that takes the layout from the boot record at `bsect`: the
sub-type, `none` where the record is rejected, and the object's fields. -/
def readBpb (bsect : Nat) (win : List UInt8) (mount : Mount) : FsType × Mount :=
  let fsize := fatSize win
  let nFats := byteAt win 16
  -- Number of sectors for FAT area
  let fasize := dword (fsize * nFats)
  let csize := byteAt win 13
  let nRootdir := ldWord win 17
  if ldWord win 11 ≠ 512 then (.none, mount)
  else if nFats ≠ 1 ∧ nFats ≠ 2 then (.none, { mount with fsize, nFats })
  -- Must be power of 2
  else if csize = 0 ∨ csize &&& (csize - 1) ≠ 0 then (.none, { mount with fsize, nFats, csize })
  else
    let tsect := totalSectors win
    let nrsv := ldWord win 14
    let sysect := dword (nrsv + fasize + nRootdir / 16)
    let nclst := (tsect - sysect) / csize
    let fmt := subType nclst
    let early := { mount with fsize, nFats, csize, nRootdir }
    -- Must be sector aligned
    if nRootdir % 16 ≠ 0 then (.none, early)
    else if nrsv = 0 then (.none, early)
    else if tsect < sysect then (.none, early)
    else if nclst = 0 ∨ fmt = .none then (.none, early)
    else
      let nFatent := nclst + 2
      let fatbase := dword (bsect + nrsv)
      let database := dword (bsect + sysect)
      let placed :=
        { mount with fsize, nFats, csize, nRootdir, nFatent, volbase := bsect, fatbase, database }
      -- Must be FAT32 revision 0.0
      if fmt = .fat32 ∧ ldWord win 42 ≠ 0 then (.none, placed)
      -- Must be 0 on FAT32 only
      else if fmt = .fat32 ∧ nRootdir ≠ 0 ∨ fmt ≠ .fat32 ∧ nRootdir = 0 then (.none, placed)
      else
        let dirbase := if fmt = .fat32 then ldDword win 44 else dword (fatbase + fasize)
        let mount := { mount with
          fsize, nFats, csize, nRootdir, nFatent, volbase := bsect, fatbase, database, dirbase }
        if fsize < (neededFat fmt nFatent + 511) / 512 then (.none, mount) else (fmt, mount)

/-- What a sector that is no boot record of a FAT volume is. -/
theorem bootSector_refused {win : List UInt8} (other : bootSector win ≠ .fat) :
    bootSector win = .notBoot ∨ bootSector win = .other := by
  rw [bootSector] at other ⊢
  split_ifs at other ⊢ <;> simp at other ⊢

/-- Taking the layout leaves the type of the object. -/
theorem readBpb_fsType (bsect : Nat) (win : List UInt8) (mount : Mount) :
    (readBpb bsect win mount).2.fsType = mount.fsType := by
  simp only [readBpb, apply_ite Prod.snd, apply_ite Mount.fsType, ite_self]

section Operations

variable {Disk : Type} (drive : Drive Disk)

/-- `check_fs` -/
def checkFs (sect : Nat) (fs : FatFs Disk) : BootSector × FatFs Disk :=
  -- Invalidate window
  let (res, fs) := moveWindow drive sect { fs with winsect := 0xFFFFFFFF }
  if res ≠ .ok then (.diskErr, fs) else (bootSector fs.win, fs)

/-- The loop of `find_volume` over the partitions. -/
def tryPartitions : List Nat → FatFs Disk → BootSector × Nat × FatFs Disk
  | [], fs => (.notBoot, 0, fs)
  | bsect :: br, fs =>
      let (fmt, fs) := if bsect ≠ 0 then checkFs drive bsect fs else (.notBoot, fs)
      if fmt ≠ .fat ∧ br ≠ [] then tryPartitions br fs else (fmt, bsect, fs)

/-- The part of `find_volume` that looks for the boot record. -/
def findPartition (fs : FatFs Disk) : BootSector × Nat × FatFs Disk :=
  let (fmt, fs) := checkFs drive 0 fs
  if fmt = .other then tryPartitions drive ((List.range 4).map (partitionStart fs.win)) fs
  else (fmt, 0, fs)

/-- The part of `find_volume` that mounts a volume whose object is not valid. -/
def mountVolume (vols : Volumes Disk) : FResult × Volumes Disk :=
  let fs := vols.fs
  let fs := { fs with mount := { fs.mount with fsType := .none } }
  let (ready, pdrv) := drive.diskInitialize fs.pdrv
  let fs := { fs with pdrv }
  if ready = false then (.notReady, { vols with fs })
  else
    let (fmt, bsect, fs) := findPartition drive fs
    if fmt = .diskErr then (.diskErr, { vols with fs })
    else if fmt ≠ .fat then (.noFilesystem, { vols with fs })
    else
      let (fmt, mount) := readBpb bsect fs.win fs.mount
      if fmt = .none then (.noFilesystem, { vols with fs := { fs with mount } })
      else
        let fsid := (vols.fsid + 1) % 2 ^ 16
        (.ok, { vols with fsid, fs := { fs with mount := { mount with fsType := fmt, id := fsid } } })

/-- `find_volume`: its result and the path behind the drive prefix. -/
def findVolume (path : SdCard.CString) (vols : Volumes Disk) :
    FResult × SdCard.CString × Volumes Disk :=
  match getLdnumber path with
  | none => (.invalidDrive, path, vols)
  | some (_, path) =>
      if vols.enabled = false then (.notEnabled, path, vols)
      else if vols.fs.mount.fsType ≠ .none ∧ drive.diskStatus vols.fs.pdrv then (.ok, path, vols)
      else
        let (res, vols) := mountVolume drive vols
        (res, path, vols)

/-- `f_mount`; `given` tells whether its pointer to the object is set. -/
def fMount (given : Bool) (path : SdCard.CString) (opt : UInt8) (vols : Volumes Disk) :
    FResult × Volumes Disk :=
  match getLdnumber path with
  | none => (.invalidDrive, vols)
  | some _ =>
      let fs := vols.fs
      -- Clear old and new fs object
      let fs := if vols.enabled ∨ given then
          { fs with mount := { fs.mount with fsType := .none } }
        else fs
      let vols := { vols with enabled := given, fs }
      -- Do not mount now, it will be mounted later
      if opt = 0 then (.ok, vols)
      else
        let (res, _, vols) := findVolume drive path vols
        (res, vols)

end Operations

section Layout

variable (bsect : Nat) (win : List UInt8)

/-- The sectors before the first cluster, and the clusters, by a boot record. -/
def systemSectors : Nat :=
  dword (ldWord win 14 + dword (fatSize win * byteAt win 16) + ldWord win 17 / 16)

def clusterCount : Nat := (totalSectors win - systemSectors win) / byteAt win 13

/-- The layout of the volume by a boot record. -/
def layoutOf (id : Nat) : Mount where
  fsType := subType (clusterCount win)
  id
  nFats := byteAt win 16
  nRootdir := ldWord win 17
  csize := byteAt win 13
  nFatent := clusterCount win + 2
  fsize := fatSize win
  volbase := bsect
  fatbase := dword (bsect + ldWord win 14)
  dirbase :=
    if subType (clusterCount win) = .fat32 then ldDword win 44
    else dword (dword (bsect + ldWord win 14) + dword (fatSize win * byteAt win 16))
  database := dword (bsect + systemSectors win)

/-- A boot record that `find_volume` accepts. -/
structure Acceptable : Prop where
  bytesPerSec : ldWord win 11 = 512
  nFats : byteAt win 16 = 1 ∨ byteAt win 16 = 2
  csize : byteAt win 13 ≠ 0 ∧ byteAt win 13 &&& (byteAt win 13 - 1) = 0
  aligned : ldWord win 17 % 16 = 0
  reserved : ldWord win 14 ≠ 0
  areas : systemSectors win ≤ totalSectors win
  clusters : clusterCount win ≠ 0
  typed : subType (clusterCount win) ≠ .none
  root : subType (clusterCount win) = .fat32 ↔ ldWord win 17 = 0
  version : subType (clusterCount win) = .fat32 → ldWord win 42 = 0
  table : (neededFat (subType (clusterCount win)) (clusterCount win + 2) + 511) / 512 ≤ fatSize win

variable {bsect win}

/-- `find_volume` accepts exactly these boot records, and takes the layout from them. -/
theorem readBpb_spec (bsect : Nat) (win : List UInt8) (mount : Mount) :
    (readBpb bsect win mount).1 = .none ∧ ¬ Acceptable win ∨
      Acceptable win ∧ (readBpb bsect win mount).1 = subType (clusterCount win) ∧
        ∀ id, { (readBpb bsect win mount).2 with fsType := subType (clusterCount win), id } =
          layoutOf bsect win id := by
  generalize read : readBpb bsect win mount = result
  rw [readBpb] at read
  dsimp only at read
  by_cases bytesPerSec : ldWord win 11 ≠ 512
  · rw [if_pos bytesPerSec] at read
    exact .inl ⟨by rw [← read], fun accepted => bytesPerSec accepted.bytesPerSec⟩
  rw [if_neg bytesPerSec] at read
  by_cases nFats : byteAt win 16 ≠ 1 ∧ byteAt win 16 ≠ 2
  · rw [if_pos nFats] at read
    exact .inl ⟨by rw [← read], fun accepted => accepted.nFats.elim nFats.1 nFats.2⟩
  rw [if_neg nFats] at read
  by_cases csize : byteAt win 13 = 0 ∨ byteAt win 13 &&& (byteAt win 13 - 1) ≠ 0
  · rw [if_pos csize] at read
    exact .inl ⟨by rw [← read], fun accepted =>
      csize.elim accepted.csize.1 fun bits => bits accepted.csize.2⟩
  rw [if_neg csize] at read
  by_cases aligned : ldWord win 17 % 16 ≠ 0
  · rw [if_pos aligned] at read
    exact .inl ⟨by rw [← read], fun accepted => aligned accepted.aligned⟩
  rw [if_neg aligned] at read
  by_cases reserved : ldWord win 14 = 0
  · rw [if_pos reserved] at read
    exact .inl ⟨by rw [← read], fun accepted => accepted.reserved reserved⟩
  rw [if_neg reserved, ← systemSectors, ← clusterCount] at read
  by_cases areas : totalSectors win < systemSectors win
  · rw [if_pos areas] at read
    exact .inl ⟨by rw [← read], fun accepted => Nat.not_le.mpr areas accepted.areas⟩
  rw [if_neg areas] at read
  by_cases clusters : clusterCount win = 0 ∨ subType (clusterCount win) = .none
  · rw [if_pos clusters] at read
    exact .inl ⟨by rw [← read], fun accepted => clusters.elim accepted.clusters accepted.typed⟩
  rw [if_neg clusters] at read
  by_cases version : subType (clusterCount win) = .fat32 ∧ ldWord win 42 ≠ 0
  · rw [if_pos version] at read
    exact .inl ⟨by rw [← read], fun accepted => version.2 (accepted.version version.1)⟩
  rw [if_neg version] at read
  by_cases root : subType (clusterCount win) = .fat32 ∧ ldWord win 17 ≠ 0 ∨
      subType (clusterCount win) ≠ .fat32 ∧ ldWord win 17 = 0
  · rw [if_pos root] at read
    exact .inl ⟨by rw [← read], fun accepted =>
      root.elim (fun other => other.2 (accepted.root.mp other.1))
        fun other => other.1 (accepted.root.mpr other.2)⟩
  rw [if_neg root] at read
  by_cases table :
      fatSize win < (neededFat (subType (clusterCount win)) (clusterCount win + 2) + 511) / 512
  · rw [if_pos table] at read
    exact .inl ⟨by rw [← read], fun accepted => Nat.not_le.mpr table accepted.table⟩
  rw [if_neg table] at read
  subst read
  have typed := not_or.mp clusters
  refine .inr ⟨⟨not_not.mp bytesPerSec, by omega, by omega, by omega, reserved, by omega, typed.1,
    typed.2, ⟨fun wide => ?_, fun none => ?_⟩, fun wide => ?_, by omega⟩, rfl, fun id => rfl⟩
  · exact not_not.mp fun other => root (.inl ⟨wide, other⟩)
  · exact not_not.mp fun other => root (.inr ⟨other, none⟩)
  · exact not_not.mp fun other => version ⟨wide, other⟩

/-- The entries of a table need the bytes that are asked for. -/
theorem width_le_neededFat (fmt : FsType) (nFatent : Nat) :
    fmt.width * nFatent ≤ 8 * neededFat fmt nFatent := by
  have odd := Nat.and_one_is_mod nFatent
  cases fmt with
  | none => simp [FsType.width]
  | fat12 =>
      have needs : neededFat .fat12 nFatent = nFatent * 3 / 2 + (nFatent &&& 1) := rfl
      have halves : nFatent * 3 / 2 = 3 * (nFatent / 2) + nFatent % 2 := by omega
      rw [needs, odd, halves, FsType.width]
      omega
  | fat16 =>
      have needs : neededFat .fat16 nFatent = nFatent * 2 := rfl
      rw [needs, FsType.width]
      omega
  | fat32 =>
      have needs : neededFat .fat32 nFatent = nFatent * 4 := rfl
      rw [needs, FsType.width]
      omega

/-- The clusters that a sub-type allows. -/
theorem clusterCount_le (typed : subType (clusterCount win) ≠ .none) :
    clusterCount win ≤ maxFat32 := by
  by_contra many
  have many12 : ¬ clusterCount win ≤ maxFat12 := by
    rw [maxFat12]
    rw [maxFat32] at many
    omega
  have many16 : ¬ clusterCount win ≤ maxFat16 := by
    rw [maxFat16]
    rw [maxFat32] at many
    omega
  exact typed (by rw [subType, if_neg many12, if_neg many16, if_neg many])

/-- A volume that an accepted boot record puts inside the drive fits in it, unless the sum
of its areas is reduced. -/
theorem layoutOf_fits {image : Image} (accepted : Acceptable win)
    (areas : ldWord win 14 + fatSize win * byteAt win 16 + ldWord win 17 / 16 < 2 ^ 32)
    (inside : bsect + totalSectors win ≤ image.size) (id : Nat) :
    (layoutOf bsect win id).Fits image := by
  have size := image.size_lt
  have few := accepted.areas
  have aligned := accepted.aligned
  have reserved := accepted.reserved
  have fatArea : dword (fatSize win * byteAt win 16) = fatSize win * byteAt win 16 :=
    dword_of_lt (by omega)
  have whole : systemSectors win =
      ldWord win 14 + fatSize win * byteAt win 16 + ldWord win 17 / 16 := by
    rw [systemSectors, fatArea, dword_of_lt areas]
  have firstFat : fatSize win ≤ fatSize win * byteAt win 16 := by
    rcases accepted.nFats with one | two
    · rw [one, Nat.mul_one]
    · rw [two]
      omega
  have fatbase : dword (bsect + ldWord win 14) = bsect + ldWord win 14 := dword_of_lt (by omega)
  have database : dword (bsect + systemSectors win) = bsect + systemSectors win :=
    dword_of_lt (by omega)
  have clusters : byteAt win 13 * clusterCount win ≤ totalSectors win - systemSectors win :=
    Nat.mul_div_le _ _
  have enough := accepted.clusters
  have most := clusterCount_le accepted.typed
  rw [maxFat32] at most
  constructor
  · exact accepted.typed
  · obtain ⟨exponent, power⟩ :=
      Nat.ne_zero_and_sub_one_eq_zero_iff_isPowerOfTwo.mp accepted.csize
    have byte : 2 ^ exponent < 2 ^ 8 := power ▸ byteAt_lt win 13
    have small := (Nat.pow_lt_pow_iff_right (by decide)).mp byte
    exact ⟨exponent, by omega, power⟩
  · dsimp only [layoutOf]
    omega
  · dsimp only [layoutOf]
    omega
  · have width := width_le_neededFat (subType (clusterCount win)) (clusterCount win + 2)
    have table := accepted.table
    dsimp only [layoutOf]
    omega
  · dsimp only [layoutOf]
    omega
  · dsimp only [layoutOf]
    omega
  · dsimp only [layoutOf]
    rw [Nat.add_sub_cancel]
    omega
  · intro type
    have none : ldWord win 17 ≠ 0 := fun none => type (accepted.root.mpr none)
    have word : ldWord win 17 < 2 ^ 16 := ldWord_lt win 17
    dsimp only [layoutOf] at type ⊢
    rw [if_neg type, fatbase, fatArea, dword_of_lt (by omega)]
    omega

/-- The layout taken from a boot record that is accepted fits in the drive, where the
volume does and the sum of its areas is not reduced. -/
theorem accepted_record_fits {image : Image} {mount : Mount}
    (accepted : (readBpb bsect win mount).1 ≠ .none)
    (areas : ldWord win 14 + fatSize win * byteAt win 16 + ldWord win 17 / 16 < 2 ^ 32)
    (inside : bsect + totalSectors win ≤ image.size) (id : Nat) :
    ({ (readBpb bsect win mount).2 with fsType := (readBpb bsect win mount).1, id } : Mount).Fits
      image := by
  obtain ⟨refused, -⟩ | ⟨acceptable, type, layout⟩ := readBpb_spec bsect win mount
  · exact absurd refused accepted
  · rw [type, layout id]
    exact layoutOf_fits acceptable areas inside id

/-- The boot record in the first partition. -/
theorem accepted_record_fits_tree : (treeMount 1).Fits (treeImage []) :=
  accepted_record_fits (by decide : (readBpb 1 (paddedSector treeBoot) {}).1 ≠ .none) (by decide)
    (by decide : 1 + totalSectors (paddedSector treeBoot) ≤ (treeImage []).size) 1

end Layout

/-- The first FAT volume on an image starts at this sector: at sector 0, or at the first
partition that has one. -/
inductive Image.VolumeAt (image : Image) : (bsect : Nat) → Prop where
  | whole (inside : 0 < image.size) (fat : bootSector (image.sector 0) = .fat) : VolumeAt image 0
  | partition {before after : List Nat} {bsect : Nat}
      (partitioned : bootSector (image.sector 0) = .other)
      (starts : (List.range 4).map (partitionStart (image.sector 0)) = before ++ bsect :: after)
      (skipped : ∀ start ∈ before, start ≠ 0 →
        start < image.size ∧ bootSector (image.sector start) ≠ .fat)
      (used : bsect ≠ 0) (inside : bsect < image.size)
      (fat : bootSector (image.sector bsect) = .fat) : VolumeAt image bsect

/-- The layout of the volume on an image. -/
def Image.Mounts (image : Image) (id : Nat) (mount : Mount) : Prop :=
  ∃ bsect, image.VolumeAt bsect ∧ Acceptable (image.sector bsect) ∧
    mount = layoutOf bsect (image.sector bsect) id

/-- The initialisation of the drive succeeds and leaves it ready. -/
structure Drive.Starts {Disk : Type} (drive : Drive Disk) (Ready : Disk → Prop) (disk : Disk) :
    Prop where
  succeeds : (drive.diskInitialize disk).1 = true
  ready : Ready (drive.diskInitialize disk).2

/-- The volume with a directory is the only partition. -/
theorem tree_mounts (id : Nat) (content : List UInt8) :
    (treeImage content).Mounts id (treeMount id) := by
  have partitions : (treeImage content).sector 0 = paddedSector treePartitions := rfl
  have boot : (treeImage content).sector 1 = paddedSector treeBoot := rfl
  have starts : (List.range 4).map (partitionStart (paddedSector treePartitions)) =
      [] ++ 1 :: [0, 0, 0] := by decide +kernel
  refine ⟨1, .partition ?_ (partitions ▸ starts) (by simp) Nat.one_ne_zero (by simp [treeImage]) ?_,
    ?_, ?_⟩
  · rw [partitions]
    decide +kernel
  · rw [boot]
    decide +kernel
  · rw [boot]
    exact ⟨by decide, by decide, by decide, by decide, by decide, by decide, by decide, by decide,
      by decide, by decide, by decide⟩
  · rw [boot]
    rfl

variable {Disk : Type} {drive : Drive Disk} {image : Image} {limit : Nat} {Ready : Disk → Prop}
  {fs : FatFs Disk}

/-- `check_fs` judges a sector of the image. -/
theorem checkFs_spec (serves : drive.Serves image limit Ready)
    (unfailing : drive.Unfailing image limit Ready) (ready : Ready fs.pdrv) {sect : Nat}
    (inside : sect < image.size) :
    let check := checkFs drive sect fs
    check.1 = bootSector (image.sector sect) ∧ check.2.win = image.sector sect ∧
      check.2.Sound image Ready fs.mount := by
  have below := image.size_lt
  have sound : ({ fs with winsect := 0xFFFFFFFF } : FatFs Disk).Sound image Ready fs.mount :=
    ⟨rfl, ready, fun (showing : 0xFFFFFFFF < image.size) => by omega⟩
  obtain ⟨sound, window⟩ := moveWindow_spec serves sound inside
  dsimp only
  rw [checkFs]
  generalize moveWindow drive sect { fs with winsect := 0xFFFFFFFF } = result at sound window ⊢
  obtain ⟨res, fs⟩ := result
  dsimp only at sound window ⊢
  rcases window with ⟨rfl, shows⟩ | ⟨-, failing⟩
  · rw [if_neg (by decide)]
    exact ⟨congrArg bootSector shows, shows, sound⟩
  · exact absurd unfailing failing

/-- The loop over the partitions stops at the first that has a FAT volume. -/
theorem tryPartitions_spec (serves : drive.Serves image limit Ready)
    (unfailing : drive.Unfailing image limit Ready) (ready : Ready fs.pdrv)
    {before : List Nat} (after : List Nat) {bsect : Nat}
    (skipped : ∀ start ∈ before, start ≠ 0 →
      start < image.size ∧ bootSector (image.sector start) ≠ .fat)
    (used : bsect ≠ 0) (inside : bsect < image.size)
    (fat : bootSector (image.sector bsect) = .fat) :
    let found := tryPartitions drive (before ++ bsect :: after) fs
    found.1 = .fat ∧ found.2.1 = bsect ∧ found.2.2.win = image.sector bsect ∧
      found.2.2.Sound image Ready fs.mount := by
  induction before generalizing fs with
  | nil =>
      obtain ⟨code, shows, sound⟩ := checkFs_spec serves unfailing ready inside
      dsimp only
      rw [List.nil_append, tryPartitions, if_pos used]
      generalize checkFs drive bsect fs = result at code shows sound ⊢
      obtain ⟨code, fs⟩ := result
      dsimp only at code shows sound ⊢
      rw [code, fat, if_neg (by simp)]
      exact ⟨rfl, rfl, shows, sound⟩
  | cons start before inductionHypothesis =>
      have later : before ++ bsect :: after ≠ [] := by simp
      have others := fun other member => skipped other (List.mem_cons_of_mem _ member)
      dsimp only
      rw [List.cons_append, tryPartitions]
      by_cases empty : start = 0
      · rw [if_neg (not_not.mpr empty)]
        dsimp only
        rw [if_pos ⟨by decide, later⟩]
        exact inductionHypothesis ready others
      · obtain ⟨startInside, other⟩ := skipped start List.mem_cons_self empty
        obtain ⟨code, shows, sound⟩ := checkFs_spec serves unfailing ready startInside
        rw [if_pos empty]
        generalize checkFs drive start fs = result at code shows sound ⊢
        obtain ⟨code, next⟩ := result
        dsimp only at code shows sound ⊢
        rw [code, if_pos ⟨other, later⟩]
        have found := inductionHypothesis sound.ready others
        rwa [sound.mounted] at found

/-- `find_volume` finds the first FAT volume. -/
theorem findPartition_spec (serves : drive.Serves image limit Ready)
    (unfailing : drive.Unfailing image limit Ready) (fs : FatFs Disk) (ready : Ready fs.pdrv)
    {bsect : Nat}
    (volume : image.VolumeAt bsect) :
    let found := findPartition drive fs
    found.1 = .fat ∧ found.2.1 = bsect ∧ found.2.2.win = image.sector bsect ∧
      found.2.2.Sound image Ready fs.mount := by
  have first : 0 < image.size := by
    cases volume with
    | whole inside => exact inside
    | partition _ _ _ _ inside => exact (Nat.zero_le _).trans_lt inside
  obtain ⟨code, shows, sound⟩ := checkFs_spec serves unfailing ready first
  dsimp only
  rw [findPartition]
  generalize checkFs drive 0 fs = result at code shows sound ⊢
  obtain ⟨code, next⟩ := result
  dsimp only at code shows sound ⊢
  rw [code]
  cases volume with
  | whole _ fat =>
      rw [fat, if_neg (by decide)]
      exact ⟨rfl, rfl, shows, sound⟩
  | @partition before after _ partitioned starts skipped used inside fat =>
      have found := tryPartitions_spec serves unfailing sound.ready after skipped used inside fat
      rw [sound.mounted] at found
      rwa [partitioned, if_pos rfl, shows, starts]

/-- `find_volume` mounts the volume of the image with the next mount number. -/
theorem mountVolume_spec (serves : drive.Serves image limit Ready)
    (unfailing : drive.Unfailing image limit Ready) {vols : Volumes Disk}
    (starts : drive.Starts Ready vols.fs.pdrv) {mount : Mount}
    (mounts : image.Mounts ((vols.fsid + 1) % 2 ^ 16) mount) :
    let mounted := mountVolume drive vols
    mounted.1 = .ok ∧ mounted.2.enabled = vols.enabled ∧
      mounted.2.fsid = (vols.fsid + 1) % 2 ^ 16 ∧ mounted.2.fs.Sound image Ready mount := by
  obtain ⟨bsect, volume, accepted, rfl⟩ := mounts
  have found := findPartition_spec serves unfailing { vols.fs with
    mount := { vols.fs.mount with fsType := .none }
    pdrv := (drive.diskInitialize vols.fs.pdrv).2 } starts.ready volume
  have read := readBpb_spec bsect (image.sector bsect) { vols.fs.mount with fsType := .none }
  dsimp only at found ⊢
  rw [mountVolume]
  dsimp only
  rw [starts.succeeds, if_neg (by decide)]
  generalize findPartition drive _ = result at found ⊢
  obtain ⟨code, start, fs⟩ := result
  dsimp only at found ⊢
  obtain ⟨rfl, rfl, shows, sound⟩ := found
  rw [if_neg (by decide), if_neg (by decide), shows, sound.mounted]
  obtain ⟨-, refused⟩ | ⟨-, type, layout⟩ := read
  · exact absurd accepted refused
  generalize readBpb start (image.sector start) _ = result at type layout ⊢
  obtain ⟨fmt, mount⟩ := result
  dsimp only at type layout ⊢
  rw [type, if_neg accepted.typed]
  exact ⟨rfl, rfl, rfl, layout _, sound.ready,
    fun inside => shows.symm.trans (sound.window inside)⟩

/-- The search for a boot record has failed, and the object is as unmounted as before. -/
structure Refused (mount : Mount) (found : BootSector × Nat × FatFs Disk) : Prop where
  code : found.1 = .notBoot ∨ found.1 = .other
  kept : found.2.2.mount = mount

/-- The loop over partitions none of which has a FAT volume. -/
theorem tryPartitions_refused (serves : drive.Serves image limit Ready)
    (unfailing : drive.Unfailing image limit Ready) (ready : Ready fs.pdrv) {starts : List Nat}
    (refused : ∀ start ∈ starts, start ≠ 0 →
      start < image.size ∧ bootSector (image.sector start) ≠ .fat) :
    Refused fs.mount (tryPartitions drive starts fs) := by
  induction starts generalizing fs with
  | nil => exact ⟨.inl rfl, rfl⟩
  | cons start rest inductionHypothesis =>
      have others := fun other member => refused other (List.mem_cons_of_mem _ member)
      have later {code : BootSector} {next : FatFs Disk} (ready : Ready next.pdrv)
          (kept : next.mount = fs.mount) (isCode : code = .notBoot ∨ code = .other) :
          Refused fs.mount (if code ≠ .fat ∧ rest ≠ [] then tryPartitions drive rest next
            else (code, start, next)) := by
        by_cases last : rest = []
        · rw [if_neg fun both => both.2 last]
          exact ⟨isCode, kept⟩
        · rw [if_pos ⟨by rcases isCode with rfl | rfl <;> decide, last⟩, ← kept]
          exact inductionHypothesis ready others
      rw [tryPartitions]
      by_cases empty : start = 0
      · rw [if_neg (not_not.mpr empty)]
        exact later ready rfl (.inl rfl)
      · obtain ⟨startInside, other⟩ := refused start List.mem_cons_self empty
        obtain ⟨code, -, sound⟩ := checkFs_spec serves unfailing ready startInside
        rw [if_pos empty]
        generalize checkFs drive start fs = result at code sound ⊢
        obtain ⟨code, next⟩ := result
        dsimp only at code sound ⊢
        exact later sound.ready sound.mounted (code ▸ bootSector_refused other)

/-- Of partitions that lie on the drive, a first one has a FAT volume or none has. -/
theorem first_fat_partition {starts : List Nat} (inside : ∀ start ∈ starts, start < image.size) :
    (∀ start ∈ starts, start ≠ 0 →
        start < image.size ∧ bootSector (image.sector start) ≠ .fat) ∨
      ∃ before bsect after, starts = before ++ bsect :: after ∧
        (∀ start ∈ before, start ≠ 0 →
          start < image.size ∧ bootSector (image.sector start) ≠ .fat) ∧
        bsect ≠ 0 ∧ bsect < image.size ∧ bootSector (image.sector bsect) = .fat := by
  induction starts with
  | nil => exact .inl fun _ member => absurd member List.not_mem_nil
  | cons start rest inductionHypothesis =>
      have startInside := inside start List.mem_cons_self
      by_cases fat : start ≠ 0 ∧ bootSector (image.sector start) = .fat
      · exact .inr ⟨[], start, rest, rfl, fun _ member => absurd member List.not_mem_nil, fat.1,
          startInside, fat.2⟩
      have other : start ≠ 0 → start < image.size ∧ bootSector (image.sector start) ≠ .fat :=
        fun used => ⟨startInside, fun isFat => fat ⟨used, isFat⟩⟩
      rcases inductionHypothesis fun later member => inside later (List.mem_cons_of_mem _ member)
        with refused | ⟨before, bsect, after, rfl, skipped, found⟩
      · exact .inl (List.forall_mem_cons.mpr ⟨other, refused⟩)
      · exact .inr ⟨start :: before, bsect, after, rfl, List.forall_mem_cons.mpr ⟨other, skipped⟩,
          found⟩

/-- `find_volume` finds no boot record where the image has no FAT volume. -/
theorem findPartition_refused (serves : drive.Serves image limit Ready)
    (unfailing : drive.Unfailing image limit Ready) (fs : FatFs Disk) (ready : Ready fs.pdrv)
    (first : 0 < image.size)
    (inside : ∀ start ∈ (List.range 4).map (partitionStart (image.sector 0)), start < image.size)
    (none : ∀ bsect, ¬ image.VolumeAt bsect) :
    Refused fs.mount (findPartition drive fs) := by
  obtain ⟨code, shows, sound⟩ := checkFs_spec serves unfailing ready first
  have other : bootSector (image.sector 0) ≠ .fat := fun fat => none 0 (.whole first fat)
  rw [findPartition]
  generalize checkFs drive 0 fs = result at code shows sound ⊢
  obtain ⟨code, next⟩ := result
  dsimp only at code shows sound ⊢
  rcases bootSector_refused other with kind | kind
  · rw [code, kind, if_neg (by decide)]
    exact ⟨.inl rfl, sound.mounted⟩
  · rw [code, kind, if_pos rfl, shows, ← sound.mounted]
    rcases first_fat_partition inside with refused | ⟨before, bsect, after, starts, found⟩
    · exact tryPartitions_refused serves unfailing sound.ready refused
    · obtain ⟨skipped, used, onDrive, fat⟩ := found
      exact absurd (.partition kind starts skipped used onDrive fat) (none bsect)

/-- On a drive whose partitions lie on it, `find_volume` mounts the first FAT volume if its
boot record is acceptable; else it finds no volume, and none is mounted. -/
theorem first_volume_mounted (serves : drive.Serves image limit Ready)
    (unfailing : drive.Unfailing image limit Ready) {vols : Volumes Disk}
    (starts : drive.Starts Ready vols.fs.pdrv) (first : 0 < image.size)
    (inside : ∀ start ∈ (List.range 4).map (partitionStart (image.sector 0)), start < image.size) :
    let mounted := mountVolume drive vols
    (∃ bsect, image.VolumeAt bsect ∧ Acceptable (image.sector bsect) ∧ mounted.1 = .ok ∧
        mounted.2.fs.mount = layoutOf bsect (image.sector bsect) ((vols.fsid + 1) % 2 ^ 16)) ∨
      (∀ bsect, image.VolumeAt bsect → ¬ Acceptable (image.sector bsect)) ∧
        mounted.1 = .noFilesystem ∧ mounted.2.fs.mount.fsType = .none := by
  by_cases present : ∃ bsect, image.VolumeAt bsect ∧ Acceptable (image.sector bsect)
  · obtain ⟨bsect, volume, accepted⟩ := present
    obtain ⟨succeeds, -, -, sound⟩ :=
      mountVolume_spec serves unfailing starts ⟨bsect, volume, accepted, rfl⟩
    exact .inl ⟨bsect, volume, accepted, succeeds, sound.mounted⟩
  · have none : ∀ bsect, image.VolumeAt bsect → ¬ Acceptable (image.sector bsect) :=
      fun bsect volume accepted => present ⟨bsect, volume, accepted⟩
    refine .inr ⟨none, ?_⟩
    rw [mountVolume]
    dsimp only
    rw [starts.succeeds, if_neg (by decide)]
    by_cases found : ∃ bsect, image.VolumeAt bsect
    · obtain ⟨bsect, volume⟩ := found
      have search := findPartition_spec serves unfailing { vols.fs with
        mount := { vols.fs.mount with fsType := .none }
        pdrv := (drive.diskInitialize vols.fs.pdrv).2 } starts.ready volume
      generalize findPartition drive _ = result at search ⊢
      obtain ⟨code, start, fs⟩ := result
      dsimp only at search ⊢
      obtain ⟨rfl, rfl, shows, sound⟩ := search
      rw [if_neg (by decide), if_neg (by decide), shows, sound.mounted]
      have unmounted := readBpb_fsType start (image.sector start)
        { vols.fs.mount with fsType := .none }
      obtain ⟨type, -⟩ | ⟨accepted, -⟩ := readBpb_spec start (image.sector start)
        { vols.fs.mount with fsType := .none }
      · rw [if_pos type]
        exact ⟨rfl, unmounted⟩
      · exact absurd accepted (none start volume)
    · have refused := findPartition_refused serves unfailing { vols.fs with
        mount := { vols.fs.mount with fsType := .none }
        pdrv := (drive.diskInitialize vols.fs.pdrv).2 } starts.ready first inside
        (not_exists.mp found)
      generalize findPartition drive _ = result at refused ⊢
      obtain ⟨code, start, fs⟩ := result
      obtain ⟨code, kept⟩ := refused
      dsimp only at code kept ⊢
      rw [if_neg (by rcases code with rfl | rfl <;> decide),
        if_pos (by rcases code with rfl | rfl <;> decide), kept]
      exact ⟨rfl, rfl⟩

/-- Nothing has been mounted. -/
def startVols : Volumes Nat where
  fs := { pdrv := 0 }

theorem tree_starts (content : List UInt8) :
    (treeImage content).drive.Starts (fun _ => True) startVols.fs.pdrv :=
  ⟨rfl, trivial⟩

/-- The volume in the first partition, mounted by the first access. -/
theorem first_volume_mounted_tree :
    (mountVolume (treeImage riff).drive startVols).1 = .ok := by
  obtain ⟨-, -, -, succeeds, -⟩ | ⟨none, -⟩ := first_volume_mounted
    ((treeImage riff).drive_serves Nat.one_pos) ((treeImage riff).drive_unfailing 1)
    (tree_starts riff) (by decide) (by decide +kernel)
  · exact succeeds
  · obtain ⟨bsect, volume, accepted, -⟩ := tree_mounts 1 riff
    exact absurd accepted (none bsect volume)

end DDSFunctionGen.Fat

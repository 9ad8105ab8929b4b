import DDSFunctionGen.Arithmetic.PackedEntries
import DDSFunctionGen.Fat.Drive

/-!
# The filesystem object and its sector window

FatFs keeps one sector of the volume in `win[]`, which both the allocation table and
the directories are read through. Sector and cluster numbers are `DWORD`s, whose sums
are reduced to 32 bits.
-/

namespace DDSFunctionGen.Fat

open DDSFunctionGen.Arithmetic

/-- `FRESULT`, the codes that occur without write support. -/
inductive FResult where
  | ok | diskErr | intErr | notReady | noFile | noPath | invalidName | denied
  | invalidObject | invalidDrive | notEnabled | noFilesystem
deriving DecidableEq, Repr

/-- `fs_type`; `none` is 0. -/
inductive FsType where
  | none | fat12 | fat16 | fat32
deriving DecidableEq, Repr

/-- The fields of `FATFS` that `find_volume` fills in. -/
structure Mount where
  fsType : FsType := .none
  id : Nat := 0
  nFats : Nat := 0
  nRootdir : Nat := 0
  csize : Nat := 0
  nFatent : Nat := 0
  fsize : Nat := 0
  volbase : Nat := 0
  fatbase : Nat := 0
  dirbase : Nat := 0
  database : Nat := 0
deriving DecidableEq, Repr

/-- `FATFS`: the drive as the accesses so far have left it, what is known of the volume,
and the window. -/
structure FatFs (Disk : Type) where
  pdrv : Disk
  mount : Mount := {}
  winsect : Nat := 0
  win : List UInt8 := []

/-- Reduction to a `DWORD`. -/
def dword (n : Nat) : Nat := n % 2 ^ 32

theorem dword_of_lt {n : Nat} (small : n < 2 ^ 32) : dword n = n := Nat.mod_eq_of_lt small

/-- Byte `i` at a pointer. -/
def byteAt (bytes : List UInt8) (i : Nat) : Nat := (bytes.getD i 0).toNat

/-- `ld_word` -/
def ldWord (bytes : List UInt8) (ptr : Nat) : Nat :=
  let rv := byteAt bytes (ptr + 1)
  rv <<< 8 ||| byteAt bytes ptr

/-- `ld_dword` -/
def ldDword (bytes : List UInt8) (ptr : Nat) : Nat :=
  let rv := byteAt bytes (ptr + 3)
  let rv := rv <<< 8 ||| byteAt bytes (ptr + 2)
  let rv := rv <<< 8 ||| byteAt bytes (ptr + 1)
  rv <<< 8 ||| byteAt bytes ptr

theorem byteAt_drop (bytes : List UInt8) (start i : Nat) :
    byteAt (bytes.drop start) i = byteAt bytes (start + i) := by
  simp [byteAt, List.getD_eq_getElem?_getD]

theorem byteAt_lt (bytes : List UInt8) (i : Nat) : byteAt bytes i < 256 := (bytes.getD i 0).toNat_lt

/-- Two bytes, from the start of a list. -/
theorem littleNumber_two (bytes : List UInt8) :
    littleNumber (bytes.take 2) = byteAt bytes 0 + 256 * byteAt bytes 1 := by
  rcases bytes with _ | ⟨_, _ | ⟨_, _⟩⟩ <;> simp [byteAt]

/-- Four bytes, from the start of a list. -/
theorem littleNumber_four (bytes : List UInt8) :
    littleNumber (bytes.take 4) =
      byteAt bytes 0 + 256 * (byteAt bytes 1 + 256 * (byteAt bytes 2 + 256 * byteAt bytes 3)) := by
  rcases bytes with _ | ⟨_, _ | ⟨_, _ | ⟨_, _ | ⟨_, _⟩⟩⟩⟩ <;> simp [byteAt]

/-- A byte shifted in below a number. -/
theorem shiftIn_eq (n : Nat) (bytes : List UInt8) (i : Nat) :
    n <<< 8 ||| byteAt bytes i = byteAt bytes i + 256 * n := by
  rw [← Nat.shiftLeft_add_eq_or_of_lt (byteAt_lt bytes i), Nat.shiftLeft_eq, Nat.add_comm,
    Nat.mul_comm]

/-- `ld_word` loads the number that two bytes stand for. -/
theorem ldWord_eq (bytes : List UInt8) (ptr : Nat) :
    ldWord bytes ptr = littleNumber ((bytes.drop ptr).take 2) := by
  rw [littleNumber_two, byteAt_drop, byteAt_drop, Nat.add_zero, ldWord, shiftIn_eq]

theorem ldWord_lt (bytes : List UInt8) (ptr : Nat) : ldWord bytes ptr < 2 ^ 16 := by
  rw [ldWord_eq]
  exact littleNumber_take_lt _ 2

/-- `ld_dword` loads the number that four bytes stand for. -/
theorem ldDword_eq (bytes : List UInt8) (ptr : Nat) :
    ldDword bytes ptr = littleNumber ((bytes.drop ptr).take 4) := by
  simp only [littleNumber_four, byteAt_drop, Nat.add_zero, ldDword, shiftIn_eq]

section Operations

variable {Disk : Type} (drive : Drive Disk)

/-- `move_window` -/
def moveWindow (sector : Nat) (fs : FatFs Disk) : FResult × FatFs Disk :=
  if sector ≠ fs.winsect then
    match drive.diskRead sector 1 fs.pdrv with
    -- Invalidate window if read data is not valid
    | (none, pdrv) => (.diskErr, { fs with pdrv, winsect := 0xFFFFFFFF })
    | (some win, pdrv) => (.ok, { fs with pdrv, win, winsect := sector })
  else (.ok, fs)

/-- `clst2sect` -/
def clst2sect (mount : Mount) (clst : Nat) : Nat :=
  -- Cluster number is origin from 2
  let clst := dword (clst + 2 ^ 32 - 2)
  if dword (mount.nFatent + 2 ^ 32 - 2) ≤ clst then 0
  else dword (mount.database + mount.csize * clst)

/-- A table access that needs `sector` in the window: `get_fat` breaks off with the value
for a disk error where `move_window` fails. -/
def throughWindow (sector : Nat) (fs : FatFs Disk) (access : FatFs Disk → Nat × FatFs Disk) :
    Nat × FatFs Disk :=
  let (res, fs) := moveWindow drive sector fs
  if res ≠ .ok then (0xFFFFFFFF, fs) else access fs

/-- `get_fat` -/
def getFat (clst : Nat) (fs : FatFs Disk) : Nat × FatFs Disk :=
  let fatbase := fs.mount.fatbase
  if clst < 2 ∨ fs.mount.nFatent ≤ clst then (1, fs)
  else
    match fs.mount.fsType with
    | .fat12 =>
        let bc := clst + clst / 2
        throughWindow drive (dword (fatbase + bc / 512)) fs fun fs =>
          let wc := byteAt fs.win (bc % 512)
          let bc := bc + 1
          throughWindow drive (dword (fatbase + bc / 512)) fs fun fs =>
            let wc := wc ||| byteAt fs.win (bc % 512) <<< 8
            (if clst &&& 1 ≠ 0 then wc >>> 4 else wc &&& 0xFFF, fs)
    | .fat16 =>
        throughWindow drive (dword (fatbase + clst / 256)) fs fun fs =>
          (ldWord fs.win (clst * 2 % 512), fs)
    | .fat32 =>
        throughWindow drive (dword (fatbase + clst / 128)) fs fun fs =>
          (ldDword fs.win (clst * 4 % 512) &&& 0x0FFFFFFF, fs)
    | .none => (1, fs)

end Operations

/-- A mounted filesystem object on a ready drive, whose window shows what its sector
contains. -/
structure FatFs.Sound {Disk : Type} (image : Image) (Ready : Disk → Prop) (mount : Mount)
    (fs : FatFs Disk) : Prop where
  mounted : fs.mount = mount
  ready : Ready fs.pdrv
  window : fs.winsect < image.size → fs.win = image.sector fs.winsect

variable {Disk : Type} {drive : Drive Disk} {image : Image} {limit : Nat} {Ready : Disk → Prop}
  {mount : Mount} {fs : FatFs Disk}

/-- A read that bypasses the window. -/
theorem FatFs.Sound.pdrv (sound : fs.Sound image Ready mount) {pdrv : Disk} (ready : Ready pdrv) :
    ({ fs with pdrv } : FatFs Disk).Sound image Ready mount :=
  ⟨sound.mounted, ready, sound.window⟩

/-- The window moves to a sector of the image and shows it, whatever it showed. -/
theorem moveWindow_spec (serves : drive.Serves image limit Ready)
    (sound : fs.Sound image Ready mount) {sector : Nat} (inside : sector < image.size) :
    (moveWindow drive sector fs).2.Sound image Ready mount ∧
      ((moveWindow drive sector fs).1 = .ok ∧
          (moveWindow drive sector fs).2.win = image.sector sector ∨
        (moveWindow drive sector fs).1 = .diskErr ∧ ¬ drive.Unfailing image limit Ready) := by
  by_cases shown : sector = fs.winsect
  · subst shown
    rw [moveWindow, if_neg (by simp)]
    exact ⟨sound, .inl ⟨rfl, sound.window inside⟩⟩
  have within := serves.within_one inside
  have ready := serves.ready fs.pdrv sector 1 sound.ready within
  have answer := serves.read sound.ready within
  rw [Image.sectors_one] at answer
  rw [moveWindow, if_pos shown]
  generalize drive.diskRead sector 1 fs.pdrv = result at ready answer
  obtain ⟨bytes, pdrv⟩ := result
  rcases answer with rfl | ⟨rfl, failing⟩
  · exact ⟨⟨sound.mounted, ready, fun _ => rfl⟩, .inl ⟨rfl, rfl⟩⟩
  · have outside := image.size_lt
    exact ⟨⟨sound.mounted, ready, fun (showing : 0xFFFFFFFF < image.size) => by omega⟩,
      .inr ⟨rfl, failing⟩⟩

end DDSFunctionGen.Fat

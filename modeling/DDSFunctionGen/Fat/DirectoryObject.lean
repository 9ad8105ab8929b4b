import DDSFunctionGen.Fat.FileObject
import DDSFunctionGen.SdCard.FatFs

/-!
# Directory objects

A directory is a table of entries of 32 bytes: the root directory of FAT12 and FAT16 is
a fixed range of sectors, every other one a cluster chain. An object stands at one
entry, which it sees through the window.
-/

namespace DDSFunctionGen.Fat

/-- `DIR`; `dir` is the offset in `win[]` it points to, and the last byte of `fn` is kept
apart as its flags. -/
structure Dir where
  obj : ObjId := {}
  dptr : Nat := 0
  clust : Nat := 0
  sect : Nat := 0
  dir : Nat := 0
  fn : List UInt8 := []
  nsFlag : UInt8 := 0
deriving DecidableEq, Repr

/-- `FILINFO` -/
structure FilInfo where
  fsize : Nat := 0
  fdate : Nat := 0
  ftime : Nat := 0
  fattrib : UInt8 := 0
  fname : SdCard.CString := []
deriving DecidableEq, Repr

/-- `AM_VOL`, `AM_LFN`, `AM_MASK` and `AM_ARC`, bits of an attribute. -/
def amVol : UInt8 := 0x08
def amLfn : UInt8 := 0x0F
def amMask : UInt8 := 0x3F
def amArc : UInt8 := 0x20

/-- `MAX_DIR`, the size a directory may have. -/
def maxDir : Nat := 0x200000

/-- `DDEM` marks a deleted entry; `RDDEM` replaces a first character that collides with
it. -/
def ddem : UInt8 := 0xE5
def rddem : UInt8 := 0x05

/-- The bytes of an entry: `DIR_Name[0]` and `DIR_Attr`. -/
def dirName (entry : List UInt8) : UInt8 := entry.getD 0 0
def dirAttr (entry : List UInt8) : UInt8 := entry.getD 11 0

variable {Disk : Type} (drive : Drive Disk)

/-- The entry that `dir` points to. -/
def Dir.entry (dp : Dir) (fs : FatFs Disk) : List UInt8 := (fs.win.drop dp.dir).take 32

/-- The loop of `dir_sdi` that follows the clusters, for at most `passes` of them. -/
def sdiLoop (csz : Nat) :
    (passes ofs clst : Nat) → FatFs Disk → FResult × Nat × Nat × FatFs Disk
  | 0, ofs, clst, fs => (.ok, ofs, clst, fs)
  | passes + 1, ofs, clst, fs =>
      if ofs < csz then (.ok, ofs, clst, fs)
      else
        let (clst, fs) := getFat drive clst fs
        if clst = 0xFFFFFFFF then (.diskErr, ofs, clst, fs)
        else if clst < 2 ∨ fs.mount.nFatent ≤ clst then (.intErr, ofs, clst, fs)
        else sdiLoop csz passes (ofs - csz) clst fs

/-- The end of `dir_sdi`: the entry at an offset from the first sector of a cluster or of
the static table. -/
def sdiEntry (sect ofs clst : Nat) (dp : Dir) (fs : FatFs Disk) : FResult × Dir × FatFs Disk :=
  let dp := { dp with sect, clust := clst }
  if sect = 0 then (.intErr, dp, fs)
  else (.ok, { dp with sect := dword (sect + ofs / 512), dir := ofs % 512 }, fs)

/-- `dir_sdi` -/
def dirSdi (ofs : Nat) (dp : Dir) (fs : FatFs Disk) : FResult × Dir × FatFs Disk :=
  if maxDir ≤ ofs ∨ ofs % 32 ≠ 0 then (.intErr, dp, fs)
  else
    let dp := { dp with dptr := ofs }
    -- Replace cluster# 0 with root cluster#
    let clst := if dp.obj.sclust = 0 ∧ fs.mount.fsType = .fat32 then fs.mount.dirbase
      else dp.obj.sclust
    if clst = 0 then
      if fs.mount.nRootdir ≤ ofs / 32 then (.intErr, dp, fs)
      else sdiEntry fs.mount.dirbase ofs clst dp fs
    else
      let (res, ofs, clst, fs) := sdiLoop drive (fs.mount.csize * 512) ofs ofs clst fs
      if res ≠ .ok then (res, dp, fs) else sdiEntry (clst2sect fs.mount clst) ofs clst dp fs

/-- The end of `dir_next`. -/
def nextEntry (ofs : Nat) (dp : Dir) (fs : FatFs Disk) : FResult × Dir × FatFs Disk :=
  (.ok, { dp with dptr := ofs, dir := ofs % 512 }, fs)

/-- `dir_next` -/
def dirNext (dp : Dir) (fs : FatFs Disk) : FResult × Dir × FatFs Disk :=
  let ofs := dp.dptr + 32
  if dp.sect = 0 ∨ maxDir ≤ ofs then (.noFile, dp, fs)
  else if ofs % 512 = 0 then
    let dp := { dp with sect := dword (dp.sect + 1) }
    if dp.clust = 0 then
      if fs.mount.nRootdir ≤ ofs / 32 then (.noFile, { dp with sect := 0 }, fs)
      else nextEntry ofs dp fs
    else if ofs / 512 &&& (fs.mount.csize - 1) = 0 then
      let (clst, fs) := getFat drive dp.clust fs
      if clst ≤ 1 then (.intErr, dp, fs)
      else if clst = 0xFFFFFFFF then (.diskErr, dp, fs)
      else if fs.mount.nFatent ≤ clst then (.noFile, { dp with sect := 0 }, fs)
      else nextEntry ofs { dp with clust := clst, sect := clst2sect fs.mount clst } fs
    else nextEntry ofs dp fs
  else nextEntry ofs dp fs

/-- An entry that `dir_read` returns. -/
def validEntry (vol : Bool) (entry : List UInt8) : Bool :=
  let c := dirName entry
  let a := dirAttr entry &&& amMask
  c != ddem && c != 0x2E && a != amLfn && (a &&& ~~~amArc == amVol) == vol

/-- An entry that `dir_find` takes for the name. -/
def matchingEntry (fn : List UInt8) (entry : List UInt8) : Bool :=
  dirAttr entry &&& amVol == 0 && entry.take 11 == fn

/-- The loop of `dir_read` and of `dir_find` to the next entry that is wanted, for at most
`passes` passes; that of `dir_read` also stops before a pass. -/
def scanLoop (stops : Dir → Bool) (wanted : List UInt8 → Bool) :
    (passes : Nat) → FResult → Dir → FatFs Disk → FResult × Dir × FatFs Disk
  | 0, res, dp, fs => (res, dp, fs)
  | passes + 1, res, dp, fs =>
      if stops dp then (res, dp, fs)
      else
        let (res, fs) := moveWindow drive dp.sect fs
        if res ≠ .ok then (res, dp, fs)
        else
          let entry := dp.entry fs
          if dirName entry = 0 then (.noFile, dp, fs)
          else
            let dp := { dp with obj := { dp.obj with attr := dirAttr entry &&& amMask } }
            if wanted entry then (.ok, dp, fs)
            else
              let (res, dp, fs) := dirNext drive dp fs
              if res ≠ .ok then (res, dp, fs) else scanLoop stops wanted passes res dp fs

/-- `dir_read`; a table has at most `MAX_DIR / SZDIRE` entries. -/
def dirRead (vol : Bool) (dp : Dir) (fs : FatFs Disk) : FResult × Dir × FatFs Disk :=
  let (res, dp, fs) :=
    scanLoop drive (fun dp => dp.sect == 0) (validEntry vol) (maxDir / 32) .noFile dp fs
  if res ≠ .ok then (res, { dp with sect := 0 }, fs) else (res, dp, fs)

/-- `dir_find` -/
def dirFind (dp : Dir) (fs : FatFs Disk) : FResult × Dir × FatFs Disk :=
  -- Rewind directory object
  let (res, dp, fs) := dirSdi drive 0 dp fs
  if res ≠ .ok then (res, dp, fs)
  else scanLoop drive (fun _ => false) (matchingEntry dp.fn) (maxDir / 32) res dp fs

/-- What one pass of the loop in `get_fileinfo` appends to the name. -/
def nameChar (raw : List UInt8) (si : Nat) : List UInt8 :=
  let c := raw.getD si 0
  -- Skip padding spaces
  if c = 0x20 then []
  else
    let c := if c = rddem then ddem else c
    if si + 1 = 9 then [0x2E, c] else [c]

/-- The name that `get_fileinfo` makes of the eleven bytes of an entry. -/
def entryName (raw : List UInt8) : SdCard.CString := (List.range 11).flatMap (nameChar raw)

/-- What `get_fileinfo` takes from an entry. -/
def entryInfo (entry : List UInt8) : FilInfo where
  fname := entryName entry
  fattrib := dirAttr entry
  fsize := ldDword entry 28
  ftime := ldWord entry 22
  fdate := ldWord entry 24

/-- `get_fileinfo`; at the end of a directory it stores an empty name only. -/
def getFileinfo (dp : Dir) (fs : FatFs Disk) (fno : FilInfo) : FilInfo :=
  if dp.sect = 0 then { fno with fname := [] } else entryInfo (dp.entry fs)

/-- `f_readdir` -/
def fReaddir (dp : Dir) (fno : FilInfo) (fs : FatFs Disk) :
    FResult × FilInfo × Dir × FatFs Disk :=
  let res := validate drive dp.obj fs
  if res ≠ .ok then (res, fno, dp, fs)
  else
    let (res, dp, fs) := dirRead drive false dp fs
    -- Ignore end of directory
    let res := if res = .noFile then .ok else res
    if res ≠ .ok then (res, fno, dp, fs)
    else
      let fno := getFileinfo dp fs fno
      let (res, dp, fs) := dirNext drive dp fs
      (if res = .noFile then .ok else res, fno, dp, fs)

/-- `f_closedir` -/
def fClosedir (dp : Dir) (fs : FatFs Disk) : FResult × Dir :=
  let res := validate drive dp.obj fs
  if res = .ok then (.ok, { dp with obj := { dp.obj with fs := false } }) else (res, dp)

end DDSFunctionGen.Fat

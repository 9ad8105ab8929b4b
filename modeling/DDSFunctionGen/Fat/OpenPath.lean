import DDSFunctionGen.Fat.MountVolume
import DDSFunctionGen.Fat.ShortName

/-!
# Opening a path

`follow_path` looks up the names of a path one after the other, from the root directory.
A separator at the end of a path is followed by a name that is empty, which is rejected.
-/

namespace DDSFunctionGen.Fat

open DDSFunctionGen.SdCard (amDir)

/-- `ld_clust` -/
def ldClust (mount : Mount) (dir : List UInt8) : Nat :=
  let cl := ldWord dir 26
  if mount.fsType = .fat32 then cl ||| ldWord dir 20 <<< 16 else cl

variable {Disk : Type} (drive : Drive Disk)

/-- The loop of `follow_path`, for at most `passes` names. -/
def followLoop :
    (passes : Nat) → (path : List UInt8) → Dir → FatFs Disk → FResult × Dir × FatFs Disk
  | 0, _, dp, fs => (.ok, dp, fs)
  | passes + 1, path, dp, fs =>
      let (res, path, dp) := createName path dp
      if res ≠ .ok then (res, dp, fs)
      else
        let (res, dp, fs) := dirFind drive dp fs
        let ns := dp.nsFlag
        -- Adjust error code if not last segment
        if res ≠ .ok then (if res = .noFile ∧ ns &&& nsLast = 0 then .noPath else res, dp, fs)
        else if ns &&& nsLast ≠ 0 then (.ok, dp, fs)
        -- It is not a sub-directory and cannot follow
        else if dp.obj.attr &&& amDir = 0 then (.noPath, dp, fs)
        else
          let sclust := ldClust fs.mount (fs.win.drop (dp.dptr % 512))
          followLoop passes path { dp with obj := { dp.obj with sclust } } fs

/-- `follow_path`; every pass of its loop takes a character of the path. -/
def followPath (path : List UInt8) (dp : Dir) (fs : FatFs Disk) : FResult × Dir × FatFs Disk :=
  -- Strip heading separator
  let path := path.dropWhile isSeparator
  let dp := { dp with obj := { dp.obj with sclust := 0 } }
  -- Null path name is the origin directory itself
  if path.getD 0 0 < 0x20 then dirSdi drive 0 { dp with nsFlag := nsNoname } fs
  else followLoop drive path.length path dp fs

/-- `f_open` -/
def fOpen (path : SdCard.CString) (mode : UInt8) (fp : Fil) (vols : Volumes Disk) :
    FResult × Fil × Volumes Disk :=
  let mode := mode &&& faRead
  let (res, path, vols) := findVolume drive path vols
  if res ≠ .ok then (res, { fp with obj := { fp.obj with fs := false } }, vols)
  else
    let (res, dj, fs) := followPath drive path { obj := { fs := true } } vols.fs
    let res :=
      if res ≠ .ok then res
      -- Is it origin directory itself?
      else if dj.nsFlag &&& nsNoname ≠ 0 then .invalidName
      else if dj.obj.attr &&& amDir ≠ 0 then .noFile
      else .ok
    if res ≠ .ok then (res, { fp with obj := { fp.obj with fs := false } }, { vols with fs })
    else
      let dir := fs.win.drop dj.dir
      let obj :=
        { fp.obj with fs := true, id := fs.mount.id, sclust := ldClust fs.mount dir,
                      objsize := ldDword dir 28 }
      (.ok, { fp with obj, flag := mode, err := .ok, sect := 0, fptr := 0 }, { vols with fs })

/-- The part of `f_opendir` after the path was followed. -/
def openFound (dp : Dir) (fs : FatFs Disk) : FResult × Dir × FatFs Disk :=
  if dp.nsFlag &&& nsNoname = 0 ∧ dp.obj.attr &&& amDir = 0 then (.noPath, dp, fs)
  else
    let sclust :=
      if dp.nsFlag &&& nsNoname = 0 then ldClust fs.mount (fs.win.drop dp.dir) else dp.obj.sclust
    -- Rewind directory
    dirSdi drive 0 { dp with obj := { dp.obj with sclust, id := fs.mount.id } } fs

/-- The end of `f_opendir`. -/
def closeUnlessFound (vols : Volumes Disk) :
    FResult × Dir × FatFs Disk → FResult × Dir × Volumes Disk
  | (res, dp, fs) =>
      let res := if res = .noFile then .noPath else res
      if res ≠ .ok then (res, { dp with obj := { dp.obj with fs := false } }, { vols with fs })
      else (.ok, dp, { vols with fs })

/-- `f_opendir` -/
def fOpendir (path : SdCard.CString) (dp : Dir) (vols : Volumes Disk) :
    FResult × Dir × Volumes Disk :=
  let (res, path, vols) := findVolume drive path vols
  if res ≠ .ok then (res, { dp with obj := { dp.obj with fs := false } }, vols)
  else
    let (res, dp, fs) :=
      followPath drive path { dp with obj := { dp.obj with fs := true } } vols.fs
    closeUnlessFound vols (if res ≠ .ok then (res, dp, fs) else openFound drive dp fs)

end DDSFunctionGen.Fat

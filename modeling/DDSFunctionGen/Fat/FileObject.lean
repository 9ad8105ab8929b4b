import DDSFunctionGen.Fat.Volume

/-!
# File objects

An open file has a sector of its own in `buf[]`; what lies in whole sectors is read
past it, directly into the caller's buffer. An error in the middle of an operation is
kept in `err` and answers every later one.
-/

namespace DDSFunctionGen.Fat

/-- `FFOBJID`; `fs` tells whether the pointer to the filesystem object is set. -/
structure ObjId where
  fs : Bool := false
  id : Nat := 0
  attr : UInt8 := 0
  sclust : Nat := 0
  objsize : Nat := 0
deriving DecidableEq, Repr

/-- `FIL` -/
structure Fil where
  obj : ObjId := {}
  flag : UInt8 := 0
  err : FResult := .ok
  fptr : Nat := 0
  clust : Nat := 0
  sect : Nat := 0
  buf : List UInt8 := []
deriving DecidableEq, Repr

/-- `FA_READ` -/
def faRead : UInt8 := 0x01

variable {Disk : Type} (drive : Drive Disk)

/-- `validate` -/
def validate (obj : ObjId) (fs : FatFs Disk) : FResult :=
  if obj.fs ∧ fs.mount.fsType ≠ .none ∧ obj.id = fs.mount.id ∧ drive.diskStatus fs.pdrv then .ok
  else .invalidObject

/-- The step of `f_read` on a cluster boundary: the first cluster of the file, or the
one that follows. -/
def enterCluster (fp : Fil) (fs : FatFs Disk) : FResult × Fil × FatFs Disk :=
  let (clst, fs) := if fp.fptr = 0 then (fp.obj.sclust, fs) else getFat drive fp.clust fs
  if clst < 2 then (.intErr, fp, fs)
  else if clst = 0xFFFFFFFF then (.diskErr, fp, fs)
  else (.ok, { fp with clust := clst }, fs)

/-- `buf[]` filled with a sector, unless it has it. -/
def fillCache (sect : Nat) (fp : Fil) (fs : FatFs Disk) : FResult × Fil × FatFs Disk :=
  if fp.sect ≠ sect then
    match drive.diskRead sect 1 fs.pdrv with
    | (none, pdrv) => (.diskErr, fp, { fs with pdrv })
    | (some buf, pdrv) => (.ok, { fp with buf, sect }, { fs with pdrv })
  else (.ok, fp, fs)

/-- The bytes copied out of `buf[]`. -/
def extractPartial (btr : Nat) (fp : Fil) : List UInt8 :=
  let rcnt := 512 - fp.fptr % 512
  let rcnt := if btr < rcnt then btr else rcnt
  (fp.buf.drop (fp.fptr % 512)).take rcnt

/-- One pass of the loop of `f_read`: the bytes it stores, or the error it aborts
with. -/
def readPass (btr : Nat) (fp : Fil) (fs : FatFs Disk) : FResult × List UInt8 × Fil × FatFs Disk :=
  if fp.fptr % 512 = 0 then
    let csize := fs.mount.csize
    let csect := fp.fptr / 512 &&& (csize - 1)
    let (res, fp, fs) := if csect = 0 then enterCluster drive fp fs else (.ok, fp, fs)
    if res ≠ .ok then (res, [], fp, fs)
    else
      let sect := clst2sect fs.mount fp.clust
      if sect = 0 then (.intErr, [], fp, fs)
      else
        let sect := dword (sect + csect)
        let cc := btr / 512
        if 0 < cc then
          -- Clip at cluster boundary
          let cc := if csize < csect + cc then csize - csect else cc
          match drive.diskRead sect cc fs.pdrv with
          | (none, pdrv) => (.diskErr, [], fp, { fs with pdrv })
          | (some bytes, pdrv) => (.ok, bytes, fp, { fs with pdrv })
        else
          let (res, fp, fs) := fillCache drive sect fp fs
          if res ≠ .ok then (res, [], fp, fs) else (.ok, extractPartial btr fp, fp, fs)
  else (.ok, extractPartial btr fp, fp, fs)

/-- The loop of `f_read`, for at most `passes` passes; every pass stores a byte. -/
def readLoop : (passes btr : Nat) → Fil → FatFs Disk → FResult × List UInt8 × Fil × FatFs Disk
  | 0, _, fp, fs => (.ok, [], fp, fs)
  | passes + 1, btr, fp, fs =>
      if btr = 0 then (.ok, [], fp, fs)
      else
        let (res, bytes, fp, fs) := readPass drive btr fp fs
        if res ≠ .ok then (res, bytes, { fp with err := res }, fs)
        else
          let rcnt := bytes.length
          let (res, rest, fp, fs) :=
            readLoop passes (btr - rcnt) { fp with fptr := fp.fptr + rcnt } fs
          (res, bytes ++ rest, fp, fs)

/-- `f_read`: its result and the bytes stored, `br` of them. -/
def fRead (btr : Nat) (fp : Fil) (fs : FatFs Disk) : FResult × List UInt8 × Fil × FatFs Disk :=
  let res := validate drive fp.obj fs
  if res ≠ .ok then (res, [], fp, fs)
  else if fp.err ≠ .ok then (fp.err, [], fp, fs)
  else if fp.flag &&& faRead = 0 then (.denied, [], fp, fs)
  else
    let remain := fp.obj.objsize - fp.fptr
    -- Truncate btr by remaining bytes
    let btr := if remain < btr then remain else btr
    readLoop drive btr btr fp fs

/-- The loop of `f_lseek` that follows the clusters, for at most `passes` of them: with
the offset that remains, the cluster it lies in. -/
def seekLoop (bcs : Nat) :
    (passes ofs clst : Nat) → Fil → FatFs Disk → FResult × Nat × Nat × Fil × FatFs Disk
  | 0, ofs, clst, fp, fs => (.ok, ofs, clst, fp, fs)
  | passes + 1, ofs, clst, fp, fs =>
      if ofs ≤ bcs then (.ok, ofs, clst, fp, fs)
      else
        let ofs := ofs - bcs
        let fp := { fp with fptr := fp.fptr + bcs }
        let (clst, fs) := getFat drive clst fs
        if clst = 0xFFFFFFFF then (.diskErr, ofs, clst, fp, fs)
        else if clst ≤ 1 ∨ fs.mount.nFatent ≤ clst then (.intErr, ofs, clst, fp, fs)
        else seekLoop bcs passes ofs clst { fp with clust := clst } fs

/-- The part of `f_lseek` from the start of a cluster on: the number is `nsect`. -/
def seekFrom (ofs clst : Nat) (fp : Fil) (fs : FatFs Disk) : FResult × Nat × Fil × FatFs Disk :=
  let bcs := fs.mount.csize * 512
  if clst = 0 then (.ok, 0, fp, fs)
  else
    let (res, ofs, clst, fp, fs) := seekLoop drive bcs ofs ofs clst fp fs
    if res ≠ .ok then (res, 0, fp, fs)
    else
      let fp := { fp with fptr := fp.fptr + ofs }
      if ofs % 512 = 0 then (.ok, 0, fp, fs)
      else
        let nsect := clst2sect fs.mount clst
        if nsect = 0 then (.intErr, 0, fp, fs) else (.ok, dword (nsect + ofs / 512), fp, fs)

/-- The part of `f_lseek` that finds the cluster and the sector of an offset other than
0. -/
def seekCluster (ofs : Nat) (fp : Fil) (fs : FatFs Disk) : FResult × Nat × Fil × FatFs Disk :=
  let ifptr := fp.fptr
  let bcs := fs.mount.csize * 512
  if 0 < ifptr ∧ (ifptr - 1) / bcs ≤ (ofs - 1) / bcs then
    -- start from the current cluster
    let fptr := (ifptr - 1) &&& (0xFFFFFFFF ^^^ (bcs - 1))
    seekFrom drive (ofs - fptr) fp.clust { fp with fptr } fs
  else
    -- start from the first cluster
    let clst := fp.obj.sclust
    seekFrom drive ofs clst { fp with fptr := 0, clust := clst } fs

/-- `f_lseek` -/
def fLseek (ofs : Nat) (fp : Fil) (fs : FatFs Disk) : FResult × Fil × FatFs Disk :=
  let res := validate drive fp.obj fs
  if res ≠ .ok then (res, fp, fs)
  else if fp.err ≠ .ok then (fp.err, fp, fs)
  else
    -- In read-only mode, clip offset with the file size
    let ofs := if fp.obj.objsize < ofs then fp.obj.objsize else ofs
    let (res, nsect, fp, fs) :=
      if 0 < ofs then seekCluster drive ofs fp fs else (.ok, 0, { fp with fptr := 0 }, fs)
    if res ≠ .ok then (res, { fp with err := res }, fs)
    else if fp.fptr % 512 ≠ 0 then
      let (res, fp, fs) := fillCache drive nsect fp fs
      if res ≠ .ok then (res, { fp with err := res }, fs) else (.ok, fp, fs)
    else (.ok, fp, fs)

/-- `f_close` -/
def fClose (fp : Fil) (fs : FatFs Disk) : FResult × Fil :=
  let res := validate drive fp.obj fs
  if res = .ok then (.ok, { fp with obj := { fp.obj with fs := false } }) else (res, fp)

end DDSFunctionGen.Fat

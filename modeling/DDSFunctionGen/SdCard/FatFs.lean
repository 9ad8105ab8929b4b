/-!
# The file operations the firmware uses from FatFs

The volume is read-only and answers every operation from the file's contents:
a read returns the bytes that remain, up to the number requested, and a seek is
clipped to the file's size. A handle that was closed or never opened is
rejected by every operation and left unchanged.
-/

namespace DDSFunctionGen.SdCard

/-- A C string without its terminating zero. -/
abbrev CString := List UInt8

/-- `AM_DIR`, the directory bit of `FILINFO.fattrib`. -/
def amDir : UInt8 := 0x10

/-- The fields of `FILINFO` the firmware reads. -/
structure FileInfo where
  fname : CString := []
  fattrib : UInt8 := 0
deriving DecidableEq, Repr

/-- The files of a volume, by the path given to `f_open`. -/
abbrev Volume := CString → Option (List UInt8)

/-- A `FIL` object: `valid` stands for a non-null `obj.fs`, `content` for the
file it was opened on. -/
structure Fil where
  valid : Bool := false
  content : List UInt8 := []
  fptr : Nat := 0
deriving DecidableEq, Repr

namespace Fil

/-- `f_open(fp, path, FA_READ)`: whether it succeeded, and the handle. -/
def fOpen (volume : Volume) (path : CString) (fp : Fil) : Bool × Fil :=
  match volume path with
  | some content => (true, { valid := true, content, fptr := 0 })
  | none => (false, { fp with valid := false })

/-- `f_read(fp, buff, btr, &br)`: the bytes stored into `buff`; `br` is their
number. -/
def fRead (fp : Fil) (btr : Nat) : List UInt8 × Fil :=
  if fp.valid then
    let bytes := (fp.content.drop fp.fptr).take btr
    (bytes, { fp with fptr := fp.fptr + bytes.length })
  else ([], fp)

/-- `f_lseek(fp, ofs)` on a read-only volume. -/
def fLseek (fp : Fil) (ofs : Nat) : Fil :=
  if fp.valid then { fp with fptr := min ofs fp.content.length } else fp

/-- `f_tell(fp)`. -/
def fTell (fp : Fil) : Nat := fp.fptr

/-- `f_close(fp)`. -/
def fClose (fp : Fil) : Fil := { fp with valid := false }

@[simp] theorem fOpen_of_some {volume : Volume} {path : CString} {content : List UInt8}
    (found : volume path = some content) (fp : Fil) :
    fp.fOpen volume path = (true, { valid := true, content, fptr := 0 }) := by
  simp [fOpen, found]

@[simp] theorem fLseek_content (fp : Fil) (ofs : Nat) : (fp.fLseek ofs).content = fp.content := by
  unfold fLseek
  split <;> rfl

@[simp] theorem fLseek_valid (fp : Fil) (ofs : Nat) : (fp.fLseek ofs).valid = fp.valid := by
  unfold fLseek
  split <;> rfl

end Fil
end DDSFunctionGen.SdCard

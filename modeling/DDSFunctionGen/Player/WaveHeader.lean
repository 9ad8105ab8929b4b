import DDSFunctionGen.SdCard.FatFs

/-!
# Reading the header of a wave file

`wave_ReadHeader` reads the header field by field, ignoring the number of bytes
each read returned: a short read overwrites only the low bytes of its target
and leaves the rest as it was. Targets are header fields, which keep their
previous contents, or locals, which start uninitialised.
-/

namespace DDSFunctionGen.Player

open DDSFunctionGen.SdCard

/-- `s_FileHeader`. -/
structure FileHeader where
  chunkSize : UInt32 := 0
  numChannels : UInt16 := 0
  sampleRate : UInt32 := 0
  byteRate : UInt32 := 0
  blockAlign : UInt16 := 0
  bitsPerSample : UInt16 := 0
  dataLength : UInt32 := 0
  dataOffset : UInt32 := 0
deriving DecidableEq, Repr

/-- The little-endian word of four bytes. -/
def wordOfBytes (b0 b1 b2 b3 : UInt8) : UInt32 :=
  b0.toUInt32 ||| b1.toUInt32 <<< 8 ||| b2.toUInt32 <<< 16 ||| b3.toUInt32 <<< 24

/-- The little-endian half word of two bytes. -/
def halfOfBytes (b0 b1 : UInt8) : UInt16 := b0.toUInt16 ||| b1.toUInt16 <<< 8

/-- A word in memory after a read stored `bytes` at its address. -/
def overwriteWord (old : UInt32) : List UInt8 → UInt32
  | [] => old
  | [b0] => wordOfBytes b0 (old >>> 8).toUInt8 (old >>> 16).toUInt8 (old >>> 24).toUInt8
  | [b0, b1] => wordOfBytes b0 b1 (old >>> 16).toUInt8 (old >>> 24).toUInt8
  | [b0, b1, b2] => wordOfBytes b0 b1 b2 (old >>> 24).toUInt8
  | b0 :: b1 :: b2 :: b3 :: _ => wordOfBytes b0 b1 b2 b3

/-- A half word in memory after a read stored `bytes` at its address. -/
def overwriteHalf (old : UInt16) : List UInt8 → UInt16
  | [] => old
  | [b0] => halfOfBytes b0 (old >>> 8).toUInt8
  | b0 :: b1 :: _ => halfOfBytes b0 b1

/-- `f_read(&fp, &word, 4, &br)`. -/
def readWord (fp : Fil) (old : UInt32) : UInt32 × Fil :=
  let (bytes, fp) := fp.fRead 4
  (overwriteWord old bytes, fp)

/-- `f_read(&fp, &half, 2, &br)`. -/
def readHalf (fp : Fil) (old : UInt16) : UInt16 × Fil :=
  let (bytes, fp) := fp.fRead 2
  (overwriteHalf old bytes, fp)

/-- A chunk identifier as the word its four characters occupy. -/
def chunkRIFF : UInt32 := wordOfBytes 0x52 0x49 0x46 0x46
def chunkWAVE : UInt32 := wordOfBytes 0x57 0x41 0x56 0x45
def chunkFmt : UInt32 := wordOfBytes 0x66 0x6D 0x74 0x20
def chunkFact : UInt32 := wordOfBytes 0x66 0x61 0x63 0x74
def chunkData : UInt32 := wordOfBytes 0x64 0x61 0x74 0x61

/-- The uninitialised locals of one call of `wave_ReadHeader`. -/
structure HeaderLocals where
  buffer : UInt32 := 0
  subchunk1Size : UInt32 := 0
  audioFormat : UInt16 := 0
  cbSize : UInt16 := 0
  cksize : UInt32 := 0
  dwSampleLength : UInt32 := 0
deriving DecidableEq, Repr

/-- The local file object and buffer of `wave_ReadHeader`, and the header it
fills. `buffer[4]` is zero throughout, so `strcmp` compares all four bytes. -/
structure HeaderRead where
  fp : Fil
  buffer : UInt32
  header : FileHeader

/-- The RIFF preamble, up to and including the identifier of the format chunk.
An error returns the header as far as it was filled. -/
def readPreamble (read : HeaderRead) : Except FileHeader HeaderRead :=
  let (buffer, fp) := readWord read.fp read.buffer
  if buffer ≠ chunkRIFF then .error read.header else
  let (chunkSize, fp) := readWord fp read.header.chunkSize
  let header := { read.header with chunkSize }
  let (buffer, fp) := readWord fp buffer
  if buffer ≠ chunkWAVE then .error header else
  let (buffer, fp) := readWord fp buffer
  if buffer ≠ chunkFmt then .error header else
  .ok { fp, buffer, header }

/-- The sixteen bytes of the format chunk, with its announced size. -/
def readFormat (locals : HeaderLocals) (read : HeaderRead) :
    Except FileHeader (UInt32 × HeaderRead) :=
  let (subchunk1Size, fp) := readWord read.fp locals.subchunk1Size
  let header := { read.header with dataOffset := read.header.dataOffset + (20 + subchunk1Size) }
  let (audioFormat, fp) := readHalf fp locals.audioFormat
  if audioFormat ≠ 1 then .error header else
  let (numChannels, fp) := readHalf fp header.numChannels
  let (sampleRate, fp) := readWord fp header.sampleRate
  let (byteRate, fp) := readWord fp header.byteRate
  let (blockAlign, fp) := readHalf fp header.blockAlign
  let (bitsPerSample, fp) := readHalf fp header.bitsPerSample
  .ok (subchunk1Size, { read with
    fp, header := { header with numChannels, sampleRate, byteRate, blockAlign, bitsPerSample } })

/-- The extension of the format chunk, present for two of the three sizes. -/
def skipExtension (locals : HeaderLocals) (subchunk1Size : UInt32) (read : HeaderRead) :
    Except FileHeader HeaderRead :=
  if subchunk1Size = 18 ∨ subchunk1Size = 40 then
    let (cbSize, fp) := readHalf read.fp locals.cbSize
    if cbSize = 22 then .ok { read with fp := (fp.fRead 22).2 } else .ok { read with fp }
  else if subchunk1Size ≠ 16 then .error read.header
  else .ok read

/-- The identifier and length of the data chunk, after an optional fact chunk. -/
def readData (locals : HeaderLocals) (read : HeaderRead) : Except FileHeader HeaderRead :=
  let (buffer, fp) := readWord read.fp read.buffer
  let header := { read.header with dataOffset := read.header.dataOffset + 4 }
  let (buffer, fp, header) :=
    if buffer = chunkFact then
      let (_, fp) := readWord fp locals.cksize
      let (_, fp) := readWord fp locals.dwSampleLength
      let (buffer, fp) := readWord fp buffer
      (buffer, fp, { header with dataOffset := header.dataOffset + 12 })
    else (buffer, fp, header)
  if buffer ≠ chunkData then .error header else
  let (dataLength, fp) := readWord fp header.dataLength
  .ok { fp, buffer, header := { header with
    dataLength, dataOffset := header.dataOffset + 4 } }

/-- The body of `wave_ReadHeader` after the file was opened. -/
def readHeaderFields (locals : HeaderLocals) (fp : Fil) (header : FileHeader) :
    Except FileHeader HeaderRead := do
  let read ← readPreamble { fp, buffer := locals.buffer, header }
  let (subchunk1Size, read) ← readFormat locals read
  let read ← skipExtension locals subchunk1Size read
  readData locals read

/-- `wave_ReadHeader`: whether the header was accepted, and the header
structure it leaves behind. -/
def waveReadHeader (volume : Volume) (locals : HeaderLocals) (header : FileHeader)
    (file : FileInfo) : Bool × FileHeader :=
  let header := { header with dataOffset := 0 }
  match Fil.fOpen volume file.fname {} with
  | (false, _) => (false, header)
  | (true, fp) =>
      match readHeaderFields locals fp header with
      | .error header => (false, header)
      | .ok read => (true, read.header)

/-- A file's own header: what reading it yields, whatever the header structure
and the locals held before. -/
def HasHeader (volume : Volume) (file : FileInfo) (header : FileHeader) : Prop :=
  ∀ locals previous, waveReadHeader volume locals previous file = (true, header)

end DDSFunctionGen.Player

import DDSFunctionGen.Arithmetic.LittleEndian
import DDSFunctionGen.Player.WaveHeader

/-!
# The headers of wave files

A header is laid out by how its format chunk ends and by whether a fact chunk
stands before the data chunk. `wave_ReadHeader` accepts exactly the files that
begin with such a header up to the identifier of the data chunk; the length that
follows it may be cut off.
-/

namespace DDSFunctionGen.Player

open DDSFunctionGen.Arithmetic DDSFunctionGen.SdCard

/-! ## Words in a file -/

/-- The bytes of a word in a file. -/
def wordBytes (word : UInt32) : List UInt8 :=
  [word.toUInt8, (word >>> 8).toUInt8, (word >>> 16).toUInt8, (word >>> 24).toUInt8]

/-- The bytes of a half word in a file. -/
def halfBytes (half : UInt16) : List UInt8 := [half.toUInt8, (half >>> 8).toUInt8]

@[simp] theorem length_wordBytes (word : UInt32) : (wordBytes word).length = 4 := rfl

@[simp] theorem length_halfBytes (half : UInt16) : (halfBytes half).length = 2 := rfl

theorem wordOfBytes_bytes (word : UInt32) :
    wordOfBytes word.toUInt8 (word >>> 8).toUInt8 (word >>> 16).toUInt8 (word >>> 24).toUInt8 =
      word :=
  UInt32.toBitVec_inj.mp (littleWord_bytes word.toBitVec)

theorem halfOfBytes_bytes (half : UInt16) :
    halfOfBytes half.toUInt8 (half >>> 8).toUInt8 = half :=
  UInt16.toBitVec_inj.mp (littleHalf_bytes half.toBitVec)

theorem wordBytes_wordOfBytes (b0 b1 b2 b3 : UInt8) :
    wordBytes (wordOfBytes b0 b1 b2 b3) = [b0, b1, b2, b3] := by
  obtain ⟨first, second, third, fourth⟩ :=
    bytes_littleWord b0.toBitVec b1.toBitVec b2.toBitVec b3.toBitVec
  simp only [wordBytes, List.cons.injEq, and_true]
  exact ⟨UInt8.toBitVec_inj.mp first, UInt8.toBitVec_inj.mp second, UInt8.toBitVec_inj.mp third,
    UInt8.toBitVec_inj.mp fourth⟩

theorem halfBytes_halfOfBytes (b0 b1 : UInt8) : halfBytes (halfOfBytes b0 b1) = [b0, b1] := by
  obtain ⟨first, second⟩ := bytes_littleHalf b0.toBitVec b1.toBitVec
  simp only [halfBytes, List.cons.injEq, and_true]
  exact ⟨UInt8.toBitVec_inj.mp first, UInt8.toBitVec_inj.mp second⟩

@[simp] theorem overwriteWord_wordBytes (old word : UInt32) :
    overwriteWord old (wordBytes word) = word := wordOfBytes_bytes word

@[simp] theorem overwriteHalf_halfBytes (old half : UInt16) :
    overwriteHalf old (halfBytes half) = half := halfOfBytes_bytes half

@[simp] theorem take_word (word : UInt32) (rest : List UInt8) :
    (wordBytes word ++ rest).take 4 = wordBytes word := List.take_left' (length_wordBytes word)

@[simp] theorem drop_word (word : UInt32) (rest : List UInt8) :
    (wordBytes word ++ rest).drop 4 = rest := List.drop_left' (length_wordBytes word)

@[simp] theorem take_half (half : UInt16) (rest : List UInt8) :
    (halfBytes half ++ rest).take 2 = halfBytes half := List.take_left' (length_halfBytes half)

@[simp] theorem drop_half (half : UInt16) (rest : List UInt8) :
    (halfBytes half ++ rest).drop 2 = rest := List.drop_left' (length_halfBytes half)

/-- Four bytes are a word. -/
theorem exists_word {bytes : List UInt8} (long : 4 ≤ bytes.length) :
    ∃ word rest, bytes = wordBytes word ++ rest := by
  match bytes, long with
  | b0 :: b1 :: b2 :: b3 :: rest, _ =>
      exact ⟨wordOfBytes b0 b1 b2 b3, rest, by rw [wordBytes_wordOfBytes]; rfl⟩

/-- Two bytes are a half word. -/
theorem exists_half {bytes : List UInt8} (long : 2 ≤ bytes.length) :
    ∃ half rest, bytes = halfBytes half ++ rest := by
  match bytes, long with
  | b0 :: b1 :: rest, _ =>
      exact ⟨halfOfBytes b0 b1, rest, by rw [halfBytes_halfOfBytes]; rfl⟩

/-- A short read leaves the highest byte of its target. -/
theorem overwriteWord_highest (old : UInt32) {bytes : List UInt8} (short : bytes.length < 4) :
    (overwriteWord old bytes >>> 24).toUInt8 = (old >>> 24).toUInt8 := by
  have highest : ∀ b0 b1 b2 b3, (wordOfBytes b0 b1 b2 b3 >>> 24).toUInt8 = b3 := by
    intro b0 b1 b2 b3
    have bytes := wordBytes_wordOfBytes b0 b1 b2 b3
    simp only [wordBytes, List.cons.injEq] at bytes
    exact bytes.2.2.2.1
  match bytes, short with
  | [], _ => rfl
  | [_], _ => exact highest ..
  | [_, _], _ => exact highest ..
  | [_, _, _], _ => exact highest ..

/-! ## Reading from a position -/

/-- A handle between the bytes it has read and the bytes it will read. -/
def cursor (before rest : List UInt8) : Fil :=
  { valid := true, content := before ++ rest, fptr := before.length }

theorem fRead_cursor (before rest : List UInt8) (btr : Nat) :
    (cursor before rest).fRead btr =
      (rest.take btr, cursor (before ++ rest.take btr) (rest.drop btr)) := by
  simp [Fil.fRead, cursor]

theorem readWord_cursor (before rest : List UInt8) (old : UInt32) :
    readWord (cursor before rest) old =
      (overwriteWord old (rest.take 4), cursor (before ++ rest.take 4) (rest.drop 4)) := by
  rw [readWord, fRead_cursor]

theorem readHalf_cursor (before rest : List UInt8) (old : UInt16) :
    readHalf (cursor before rest) old =
      (overwriteHalf old (rest.take 2), cursor (before ++ rest.take 2) (rest.drop 2)) := by
  rw [readHalf, fRead_cursor]

@[simp] theorem readWord_word (before rest : List UInt8) (word old : UInt32) :
    readWord (cursor before (wordBytes word ++ rest)) old =
      (word, cursor (before ++ wordBytes word) rest) := by
  rw [readWord_cursor, take_word, drop_word, overwriteWord_wordBytes]

@[simp] theorem readHalf_half (before rest : List UInt8) (half old : UInt16) :
    readHalf (cursor before (halfBytes half ++ rest)) old =
      (half, cursor (before ++ halfBytes half) rest) := by
  rw [readHalf_cursor, take_half, drop_half, overwriteHalf_halfBytes]

/-! ## Layouts -/

/-- The fields a header holds. -/
structure WaveFields where
  chunkSize : UInt32
  numChannels : UInt16
  sampleRate : UInt32
  byteRate : UInt32
  blockAlign : UInt16
  bitsPerSample : UInt16
  dataLength : UInt32
deriving DecidableEq, Repr

/-- How a format chunk ends: with its sixteenth byte, with the size of an extension
that is not read, or with an extension of 22 bytes. -/
inductive FormatEnd where
  | plain
  | unread (subchunk1Size : UInt32) (cbSize : UInt16)
      (sized : subchunk1Size = 18 ∨ subchunk1Size = 40) (other : cbSize ≠ 22)
  | extension (subchunk1Size : UInt32) (bytes : List UInt8)
      (sized : subchunk1Size = 18 ∨ subchunk1Size = 40) (length : bytes.length = 22)

/-- The announced size of the format chunk. -/
def FormatEnd.subchunk1Size : FormatEnd → UInt32
  | .plain => 16
  | .unread subchunk1Size .. => subchunk1Size
  | .extension subchunk1Size .. => subchunk1Size

/-- What follows the sixteen bytes of the format chunk. -/
def FormatEnd.bytes : FormatEnd → List UInt8
  | .plain => []
  | .unread _ cbSize .. => halfBytes cbSize
  | .extension _ bytes .. => halfBytes 22 ++ bytes

/-- A fact chunk: its announced size and the word in it. -/
structure FactChunk where
  cksize : UInt32
  dwSampleLength : UInt32
deriving DecidableEq, Repr

/-- The bytes of a fact chunk, if there is one. -/
def factBytes : Option FactChunk → List UInt8
  | none => []
  | some fact => wordBytes chunkFact ++ (wordBytes fact.cksize ++ wordBytes fact.dwSampleLength)

/-- The layout of a header. -/
structure HeaderLayout where
  formatEnd : FormatEnd
  fact : Option FactChunk

namespace HeaderLayout

/-- The header up to and including the identifier of the format chunk. -/
def preamble (chunkSize : UInt32) : List UInt8 :=
  wordBytes chunkRIFF ++ (wordBytes chunkSize ++ (wordBytes chunkWAVE ++ wordBytes chunkFmt))

/-- The announced size of a format chunk and its sixteen bytes. -/
def format (subchunk1Size : UInt32) (fields : WaveFields) : List UInt8 :=
  wordBytes subchunk1Size ++ (halfBytes 1 ++ (halfBytes fields.numChannels ++
    (wordBytes fields.sampleRate ++ (wordBytes fields.byteRate ++
      (halfBytes fields.blockAlign ++ halfBytes fields.bitsPerSample)))))

/-- The header up to and including the identifier of the data chunk. -/
def start (layout : HeaderLayout) (fields : WaveFields) : List UInt8 :=
  preamble fields.chunkSize ++ (format layout.formatEnd.subchunk1Size fields ++
    (layout.formatEnd.bytes ++ (factBytes layout.fact ++ wordBytes chunkData)))

/-- The whole header. -/
def encode (layout : HeaderLayout) (fields : WaveFields) : List UInt8 :=
  layout.start fields ++ wordBytes fields.dataLength

/-- `dataOffset` as `wave_ReadHeader` adds it up. -/
def dataOffset (layout : HeaderLayout) : UInt32 :=
  0 + (20 + layout.formatEnd.subchunk1Size) + 4 + (if layout.fact.isSome then 12 else 0) + 4

/-- The header structure of a header in this layout. -/
def header (layout : HeaderLayout) (fields : WaveFields) : FileHeader where
  chunkSize := fields.chunkSize
  numChannels := fields.numChannels
  sampleRate := fields.sampleRate
  byteRate := fields.byteRate
  blockAlign := fields.blockAlign
  bitsPerSample := fields.bitsPerSample
  dataLength := fields.dataLength
  dataOffset := layout.dataOffset

end HeaderLayout

end DDSFunctionGen.Player

import DDSFunctionGen.Player.HeaderAccepted

/-!
# What an accepted header says

The fields of an accepted header are those the file holds, except for a length cut
off by the end of the file. The offset of the data is added up apart from the
reads and agrees with them where the announced size of the format chunk covers
the extension that was read.
-/

namespace DDSFunctionGen.Player

open DDSFunctionGen.SdCard HeaderLayout

/-- The word at a position of a file. -/
def wordAt (content : List UInt8) (position : Nat) : UInt32 :=
  wordOfBytes (content.getD position 0) (content.getD (position + 1) 0)
    (content.getD (position + 2) 0) (content.getD (position + 3) 0)

/-- The half word at a position of a file. -/
def halfAt (content : List UInt8) (position : Nat) : UInt16 :=
  halfOfBytes (content.getD position 0) (content.getD (position + 1) 0)

/-- The bytes `wave_ReadHeader` asks for between the sixteenth byte of the format
chunk and the next chunk. -/
def extensionLength (content : List UInt8) : Nat :=
  if wordAt content 16 = 18 ∨ wordAt content 16 = 40 then
    if halfAt content 36 = 22 then 24 else 2
  else 0

/-- The bytes `wave_ReadHeader` asks for in all. -/
def headerLength (content : List UInt8) : Nat :=
  36 + extensionLength content +
    (if wordAt content (36 + extensionLength content) = chunkFact then 12 else 0) + 8

/-- The fields are bytes of the file, at their positions. -/
structure FieldsPresent (content : List UInt8) (header : FileHeader) : Prop where
  chunkSize : (content.drop 4).take 4 = wordBytes header.chunkSize
  numChannels : (content.drop 22).take 2 = halfBytes header.numChannels
  sampleRate : (content.drop 24).take 4 = wordBytes header.sampleRate
  byteRate : (content.drop 28).take 4 = wordBytes header.byteRate
  blockAlign : (content.drop 32).take 2 = halfBytes header.blockAlign
  bitsPerSample : (content.drop 34).take 2 = halfBytes header.bitsPerSample
  dataLength : (content.drop (headerLength content - 4)).take 4 = wordBytes header.dataLength

/-- A header whose last field, the length of the data, is missing or cut short. -/
def CutInLength (content : List UInt8) : Prop :=
  ∃ (layout : HeaderLayout) (fields : WaveFields) (tail : List UInt8),
    tail.length < 4 ∧ content = layout.start fields ++ tail

/-- The announced size of the format chunk covers what is read of it. -/
def SizeCoversExtension (content : List UInt8) : Prop :=
  ¬ (wordAt content 16 = 18 ∧ halfAt content 36 = 22) ∧
    ¬ (wordAt content 16 = 40 ∧ halfAt content 36 ≠ 22)

/-! ## Positions -/

theorem wordAt_of_split {content rest : List UInt8} (before : List UInt8) {word : UInt32}
    {position : Nat}
    (split : content = before ++ (wordBytes word ++ rest)) (length : before.length = position) :
    wordAt content position = word := by
  subst split length
  simp [wordAt, wordBytes, wordOfBytes_bytes]

theorem halfAt_of_split {content rest : List UInt8} (before : List UInt8) {half : UInt16}
    {position : Nat}
    (split : content = before ++ (halfBytes half ++ rest)) (length : before.length = position) :
    halfAt content position = half := by
  subst split length
  simp [halfAt, halfBytes, halfOfBytes_bytes]

/-- The word at a position, and what follows it. -/
theorem take_word_at {content rest : List UInt8} {word : UInt32} {position : Nat}
    (found : content.drop position = wordBytes word ++ rest) :
    (content.drop position).take 4 = wordBytes word := by
  rw [found, take_word]

theorem drop_after_word {content rest : List UInt8} {word : UInt32} {position : Nat}
    (found : content.drop position = wordBytes word ++ rest) :
    content.drop (position + 4) = rest := by
  rw [← List.drop_drop, found, drop_word]

theorem take_half_at {content rest : List UInt8} {half : UInt16} {position : Nat}
    (found : content.drop position = halfBytes half ++ rest) :
    (content.drop position).take 2 = halfBytes half := by
  rw [found, take_half]

theorem drop_after_half {content rest : List UInt8} {half : UInt16} {position : Nat}
    (found : content.drop position = halfBytes half ++ rest) :
    content.drop (position + 2) = rest := by
  rw [← List.drop_drop, found, drop_half]

@[simp] theorem length_preamble (chunkSize : UInt32) : (preamble chunkSize).length = 16 := rfl

@[simp] theorem length_format (subchunk1Size : UInt32) (fields : WaveFields) :
    (format subchunk1Size fields).length = 20 := rfl

theorem length_head (chunkSize subchunk1Size : UInt32) (fields : WaveFields) :
    (preamble chunkSize ++ format subchunk1Size fields).length = 36 := rfl

theorem length_factBytes (fact : Option FactChunk) :
    (factBytes fact).length = if fact.isSome then 12 else 0 := by
  cases fact with
  | none => rfl
  | some fact => rfl

variable (layout : HeaderLayout) (fields : WaveFields) (tail : List UInt8)

theorem length_start : (layout.start fields).length =
    40 + layout.formatEnd.bytes.length + if layout.fact.isSome then 12 else 0 := by
  simp only [HeaderLayout.start, List.length_append, length_preamble, length_format,
    length_factBytes, length_wordBytes]
  omega

/-- The bytes of a header in their order. -/
theorem start_append : layout.start fields ++ tail =
    preamble fields.chunkSize ++ (wordBytes layout.formatEnd.subchunk1Size ++ (halfBytes 1 ++
      (halfBytes fields.numChannels ++ (wordBytes fields.sampleRate ++ (wordBytes fields.byteRate ++
        (halfBytes fields.blockAlign ++ (halfBytes fields.bitsPerSample ++
          (layout.formatEnd.bytes ++ (factBytes layout.fact ++
            (wordBytes chunkData ++ tail)))))))))) := by
  simp only [HeaderLayout.start, format, List.append_assoc]

theorem wordAt_subchunk1Size :
    wordAt (layout.start fields ++ tail) 16 = layout.formatEnd.subchunk1Size :=
  wordAt_of_split (preamble fields.chunkSize) (start_append layout fields tail) rfl

/-- The bytes before the end of the format chunk. -/
theorem start_split : layout.start fields ++ tail =
    (preamble fields.chunkSize ++ format layout.formatEnd.subchunk1Size fields) ++
      (layout.formatEnd.bytes ++ (factBytes layout.fact ++ (wordBytes chunkData ++ tail))) := by
  simp only [HeaderLayout.start, List.append_assoc]

/-- The extension is measured as it is laid out. -/
theorem extensionLength_start :
    extensionLength (layout.start fields ++ tail) = layout.formatEnd.bytes.length := by
  have size := wordAt_subchunk1Size layout fields tail
  have split := start_split layout fields tail
  rw [extensionLength, size]
  cases ends : layout.formatEnd with
  | plain =>
      rw [FormatEnd.subchunk1Size, if_neg (by decide)]
      rfl
  | unread subchunk1Size cbSize sized other =>
      rw [ends] at split
      have cb := halfAt_of_split _ split (length_head _ _ _)
      rw [FormatEnd.subchunk1Size, if_pos sized, cb, if_neg other]
      rfl
  | extension subchunk1Size bytes sized length =>
      rw [ends, FormatEnd.bytes, List.append_assoc (halfBytes 22)] at split
      have cb := halfAt_of_split _ split (length_head _ _ _)
      rw [FormatEnd.subchunk1Size, if_pos sized, cb, if_pos rfl, FormatEnd.bytes,
        List.length_append, length, length_halfBytes]

theorem headerLength_start :
    headerLength (layout.start fields ++ tail) = (layout.start fields).length + 4 := by
  have split : layout.start fields ++ tail =
      (preamble fields.chunkSize ++ format layout.formatEnd.subchunk1Size fields ++
        layout.formatEnd.bytes) ++ (factBytes layout.fact ++ (wordBytes chunkData ++ tail)) := by
    simp only [HeaderLayout.start, List.append_assoc]
  have position : (preamble fields.chunkSize ++ format layout.formatEnd.subchunk1Size fields ++
      layout.formatEnd.bytes).length = 36 + layout.formatEnd.bytes.length := by
    simp only [List.length_append, length_preamble, length_format]
  rw [headerLength, extensionLength_start, length_start]
  cases fact : layout.fact with
  | none =>
      rw [fact, factBytes, List.nil_append] at split
      have identifier := wordAt_of_split _ split position
      have differ : chunkData ≠ chunkFact := by decide
      simp only [identifier, differ, Option.isSome_none, Bool.false_eq_true, if_false]
      omega
  | some chunk =>
      rw [fact, factBytes, List.append_assoc (wordBytes chunkFact)] at split
      have identifier := wordAt_of_split _ split position
      simp only [identifier, Option.isSome_some, if_true]
      omega

/-- The offset of the data, as a number. -/
theorem toNat_dataOffset : layout.dataOffset.toNat =
    28 + layout.formatEnd.subchunk1Size.toNat + if layout.fact.isSome then 12 else 0 := by
  have sizes : layout.formatEnd.subchunk1Size = 16 ∨ layout.formatEnd.subchunk1Size = 18 ∨
      layout.formatEnd.subchunk1Size = 40 := by
    cases layout.formatEnd with
    | plain => exact .inl rfl
    | unread _ _ sized _ => exact .inr sized
    | extension _ _ sized _ => exact .inr sized
  rw [HeaderLayout.dataOffset]
  cases layout.fact with
  | none => rcases sizes with size | size | size <;> rw [size] <;> rfl
  | some fact => rcases sizes with size | size | size <;> rw [size] <;> rfl

/-- The offset is where the header ends exactly if the size covers the extension. -/
theorem dataOffset_eq_length_iff :
    layout.dataOffset.toNat = (layout.start fields).length + 4 ↔
      SizeCoversExtension (layout.start fields ++ tail) := by
  have split := start_split layout fields tail
  rw [toNat_dataOffset, length_start, SizeCoversExtension, wordAt_subchunk1Size]
  cases ends : layout.formatEnd with
  | plain =>
      have length : FormatEnd.plain.bytes.length = 0 := rfl
      have size : FormatEnd.plain.subchunk1Size.toNat = 16 := rfl
      refine iff_of_true (by omega) ⟨fun both => ?_, fun both => ?_⟩
      · exact absurd both.1 (by decide)
      · exact absurd both.1 (by decide)
  | unread subchunk1Size cbSize sized other =>
      rw [ends] at split
      have cb := halfAt_of_split _ split (length_head _ _ _)
      rw [cb, FormatEnd.subchunk1Size, FormatEnd.bytes, length_halfBytes]
      rcases sized with rfl | rfl
      · have size : (18 : UInt32).toNat = 18 := rfl
        refine iff_of_true (by omega) ⟨fun both => other both.2, fun both => ?_⟩
        exact absurd both.1 (by decide)
      · have size : (40 : UInt32).toNat = 40 := rfl
        exact iff_of_false (by omega) fun covers => covers.2 ⟨rfl, other⟩
  | extension subchunk1Size bytes sized length =>
      rw [ends, FormatEnd.bytes, List.append_assoc (halfBytes 22)] at split
      have cb := halfAt_of_split _ split (length_head _ _ _)
      rw [cb, FormatEnd.subchunk1Size, FormatEnd.bytes, List.length_append, length,
        length_halfBytes]
      rcases sized with rfl | rfl
      · have size : (18 : UInt32).toNat = 18 := rfl
        exact iff_of_false (by omega) fun covers => covers.1 ⟨rfl, rfl⟩
      · have size : (40 : UInt32).toNat = 40 := rfl
        refine iff_of_true (by omega) ⟨fun both => ?_, fun both => both.2 rfl⟩
        exact absurd both.1 (by decide)

end DDSFunctionGen.Player

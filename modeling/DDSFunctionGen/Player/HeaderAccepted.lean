import DDSFunctionGen.Player.HeaderFormat

/-!
# Which headers are accepted

Each part of `wave_ReadHeader` accepts the part of a header it is written for, and
nothing else. A part that ran out of bytes leaves nothing to read, and the
identifier of the data chunk is then found missing: a stale byte of the buffer
never completes it.
-/

namespace DDSFunctionGen.Player

open DDSFunctionGen.SdCard HeaderLayout

variable {locals : HeaderLocals} {header : FileHeader} {before rest : List UInt8}

/-! ## The parts of a header -/

theorem readPreamble_preamble (chunkSize buffer : UInt32) :
    readPreamble { fp := cursor before (preamble chunkSize ++ rest), buffer, header } =
      .ok { fp := cursor (before ++ preamble chunkSize) rest, buffer := chunkFmt,
            header := { header with chunkSize } } := by
  simp [readPreamble, preamble]

theorem readFormat_format (subchunk1Size : UInt32) (fields : WaveFields) (buffer : UInt32) :
    readFormat locals
        { fp := cursor before (format subchunk1Size fields ++ rest), buffer, header } =
      .ok (subchunk1Size,
        { fp := cursor (before ++ format subchunk1Size fields) rest, buffer,
          header := { header with
            numChannels := fields.numChannels
            sampleRate := fields.sampleRate
            byteRate := fields.byteRate
            blockAlign := fields.blockAlign
            bitsPerSample := fields.bitsPerSample
            dataOffset := header.dataOffset + (20 + subchunk1Size) } }) := by
  simp [readFormat, format]

theorem skipExtension_bytes (formatEnd : FormatEnd) (buffer : UInt32) :
    skipExtension locals formatEnd.subchunk1Size
        { fp := cursor before (formatEnd.bytes ++ rest), buffer, header } =
      .ok { fp := cursor (before ++ formatEnd.bytes) rest, buffer, header } := by
  cases formatEnd with
  | plain => simp [skipExtension, FormatEnd.subchunk1Size, FormatEnd.bytes]
  | unread subchunk1Size cbSize sized other =>
      simp [skipExtension, FormatEnd.subchunk1Size, FormatEnd.bytes, sized, other]
  | extension subchunk1Size bytes sized length =>
      simp [skipExtension, FormatEnd.subchunk1Size, FormatEnd.bytes, sized, fRead_cursor,
        List.take_left' length, List.drop_left' length]

theorem readData_fact (fact : Option FactChunk) :
    readData locals
        { fp := cursor before (factBytes fact ++ (wordBytes chunkData ++ rest)),
          buffer := chunkFmt, header } =
      .ok { fp := cursor (before ++ (factBytes fact ++ (wordBytes chunkData ++ rest.take 4)))
              (rest.drop 4), buffer := chunkData,
            header := { header with
              dataLength := overwriteWord header.dataLength (rest.take 4)
              dataOffset := header.dataOffset + 4 + (if fact.isSome then 12 else 0) + 4 } } := by
  have differ : chunkData ≠ chunkFact := by decide
  have length : ∀ before old, readWord (cursor before rest) old =
      (overwriteWord old (rest.take 4), cursor (before ++ rest.take 4) (rest.drop 4)) :=
    fun before old => readWord_cursor before rest old
  cases fact with
  | none => simp [readData, factBytes, length, differ]
  | some fact => simp [readData, factBytes, length]

/-! ## Nothing else is accepted -/

/-- Nothing is left to read. -/
def Exhausted (fp : Fil) : Prop := ∃ before, fp = cursor before []

/-- A short read does not complete an identifier whose last letter is not in the
buffer yet. -/
theorem long_of_identifier {stale identifier : UInt32} {bytes : List UInt8}
    (complete : overwriteWord stale (bytes.take 4) = identifier)
    (other : (stale >>> 24).toUInt8 ≠ (identifier >>> 24).toUInt8) :
    ∃ rest, bytes = wordBytes identifier ++ rest := by
  by_cases long : 4 ≤ bytes.length
  · obtain ⟨word, rest, rfl⟩ := exists_word long
    rw [List.take_left' (length_wordBytes word), overwriteWord_wordBytes] at complete
    exact ⟨rest, by rw [complete]⟩
  · have short : (bytes.take 4).length < 4 := by
      rw [List.length_take]
      omega
    rw [← complete] at other
    exact absurd (overwriteWord_highest stale short).symm other

/-- An accepted preamble. -/
theorem exists_preamble {buffer : UInt32} {read : HeaderRead}
    (accepted : readPreamble { fp := cursor before rest, buffer, header } = .ok read) :
    ∃ chunkSize tail, rest = preamble chunkSize ++ tail := by
  simp only [readPreamble, readWord_cursor] at accepted
  split at accepted
  · cases accepted
  split at accepted
  · cases accepted
  split at accepted
  · cases accepted
  rename_i riff wave fmt
  rw [Decidable.not_not] at riff wave fmt
  rw [wave] at fmt
  rw [riff] at wave
  obtain ⟨afterWave, wave⟩ := long_of_identifier wave (by decide)
  obtain ⟨tail, fmt⟩ := long_of_identifier fmt (by decide)
  have long : 8 ≤ rest.length := by
    have lengths := congrArg List.length wave
    simp only [List.length_drop, List.length_append, length_wordBytes] at lengths
    omega
  obtain ⟨first, rest, rfl⟩ := exists_word (show 4 ≤ rest.length by omega)
  rw [List.length_append, length_wordBytes] at long
  obtain ⟨chunkSize, rest, rfl⟩ := exists_word (show 4 ≤ rest.length by omega)
  simp only [take_word, drop_word, overwriteWord_wordBytes] at riff wave fmt
  rw [wave, drop_word] at fmt
  exact ⟨chunkSize, tail, by simp [preamble, riff, wave, fmt]⟩

/-- An accepted format chunk, unless the bytes run out in it. -/
theorem exists_format {buffer subchunk1Size : UInt32} {read : HeaderRead}
    (accepted : readFormat locals { fp := cursor before rest, buffer, header } =
      .ok (subchunk1Size, read)) :
    (∃ fields tail, rest = format subchunk1Size fields ++ tail) ∨
      Exhausted read.fp ∧ read.buffer = buffer := by
  by_cases long : 20 ≤ rest.length
  · obtain ⟨size, rest, rfl⟩ := exists_word (show 4 ≤ rest.length by omega)
    rw [List.length_append, length_wordBytes] at long
    obtain ⟨audioFormat, rest, rfl⟩ := exists_half (show 2 ≤ rest.length by omega)
    rw [List.length_append, length_halfBytes] at long
    obtain ⟨numChannels, rest, rfl⟩ := exists_half (show 2 ≤ rest.length by omega)
    rw [List.length_append, length_halfBytes] at long
    obtain ⟨sampleRate, rest, rfl⟩ := exists_word (show 4 ≤ rest.length by omega)
    rw [List.length_append, length_wordBytes] at long
    obtain ⟨byteRate, rest, rfl⟩ := exists_word (show 4 ≤ rest.length by omega)
    rw [List.length_append, length_wordBytes] at long
    obtain ⟨blockAlign, rest, rfl⟩ := exists_half (show 2 ≤ rest.length by omega)
    rw [List.length_append, length_halfBytes] at long
    obtain ⟨bitsPerSample, rest, rfl⟩ := exists_half (show 2 ≤ rest.length by omega)
    simp only [readFormat, readWord_word, readHalf_half] at accepted
    split at accepted
    · cases accepted
    · rename_i pcm
      rw [Decidable.not_not] at pcm
      obtain ⟨rfl, rfl⟩ := Prod.mk.inj (Except.ok.inj accepted)
      let fields : WaveFields :=
        { chunkSize := 0, numChannels, sampleRate, byteRate, blockAlign, bitsPerSample
          dataLength := 0 }
      exact .inl ⟨fields, rest, by simp [format, fields, pcm]⟩
  · simp only [readFormat, readWord_cursor, readHalf_cursor] at accepted
    split at accepted
    · cases accepted
    · obtain ⟨rfl, rfl⟩ := Prod.mk.inj (Except.ok.inj accepted)
      refine .inr ⟨⟨_, congrArg (cursor _) ?_⟩, rfl⟩
      simp only [List.drop_drop]
      exact List.drop_eq_nil_of_le (by omega)

/-- An accepted end of the format chunk, unless the bytes run out in it. -/
theorem exists_formatEnd {buffer subchunk1Size : UInt32} {read : HeaderRead}
    (accepted : skipExtension locals subchunk1Size { fp := cursor before rest, buffer, header } =
      .ok read) :
    (∃ (formatEnd : FormatEnd) (tail : List UInt8),
        subchunk1Size = formatEnd.subchunk1Size ∧ rest = formatEnd.bytes ++ tail) ∨
      Exhausted read.fp ∧ read.buffer = buffer := by
  rw [skipExtension] at accepted
  split at accepted
  · rename_i sized
    by_cases long : 2 ≤ rest.length
    · obtain ⟨cbSize, rest, rfl⟩ := exists_half long
      simp only [readHalf_half] at accepted
      split at accepted
      · rename_i extended
        subst extended
        by_cases longer : 22 ≤ rest.length
        · refine .inl ⟨.extension subchunk1Size (rest.take 22) sized (by simp [longer]),
            rest.drop 22, rfl, ?_⟩
          simp [FormatEnd.bytes]
        · obtain rfl := Except.ok.inj accepted
          rw [fRead_cursor]
          refine .inr ⟨⟨_, congrArg (cursor _) (List.drop_eq_nil_of_le (by omega))⟩, rfl⟩
      · rename_i other
        exact .inl ⟨.unread subchunk1Size cbSize sized other, rest, rfl, rfl⟩
    · have empty : rest.drop 2 = [] := List.drop_eq_nil_of_le (by omega)
      simp only [readHalf_cursor, empty, fRead_cursor] at accepted
      split at accepted
      · obtain rfl := Except.ok.inj accepted
        exact .inr ⟨⟨_, congrArg (cursor _) (List.drop_nil)⟩, rfl⟩
      · obtain rfl := Except.ok.inj accepted
        exact .inr ⟨⟨_, rfl⟩, rfl⟩
  split at accepted
  · cases accepted
  · rename_i plain
    rw [Decidable.not_not] at plain
    exact .inl ⟨.plain, rest, plain, rfl⟩

/-- An accepted data chunk, after the identifier of the format chunk. -/
theorem exists_data {read : HeaderRead}
    (accepted : readData locals { fp := cursor before rest, buffer := chunkFmt, header } =
      .ok read) :
    ∃ fact tail, rest = factBytes fact ++ (wordBytes chunkData ++ tail) := by
  by_cases found : overwriteWord chunkFmt (rest.take 4) = chunkFact
  · obtain ⟨rest, rfl⟩ := long_of_identifier found (by decide)
    simp only [readData, readWord_word, if_true] at accepted
    simp only [readWord_cursor] at accepted
    split at accepted
    · cases accepted
    · rename_i data
      rw [Decidable.not_not] at data
      obtain ⟨tail, data⟩ := long_of_identifier data (by decide)
      have long : 8 ≤ rest.length := by
        have lengths := congrArg List.length data
        simp only [List.length_drop, List.length_append, length_wordBytes] at lengths
        omega
      obtain ⟨cksize, rest, rfl⟩ := exists_word (show 4 ≤ rest.length by omega)
      rw [List.length_append, length_wordBytes] at long
      obtain ⟨dwSampleLength, rest, rfl⟩ := exists_word (show 4 ≤ rest.length by omega)
      rw [drop_word, drop_word] at data
      exact ⟨some { cksize, dwSampleLength }, tail, by simp [factBytes, data]⟩
  · simp only [readData, readWord_cursor, if_neg found] at accepted
    split at accepted
    · cases accepted
    · rename_i data
      rw [Decidable.not_not] at data
      obtain ⟨tail, rfl⟩ := long_of_identifier data (by decide)
      exact ⟨none, tail, rfl⟩

/-! ## Whole headers -/

/-- A handle from which nothing can be read has no data chunk. -/
theorem not_exhausted {read after : HeaderRead} (exhausted : Exhausted read.fp)
    (buffer : read.buffer = chunkFmt) : readData locals read ≠ .ok after := by
  intro accepted
  obtain ⟨fp, stale, header⟩ := read
  obtain ⟨before, rfl⟩ := exhausted
  obtain rfl : stale = chunkFmt := buffer
  obtain ⟨fact, tail, split⟩ := exists_data accepted
  have lengths := congrArg List.length split
  simp only [List.length_nil, List.length_append, length_wordBytes] at lengths
  omega

/-- A file that begins with a header up to the identifier of the data chunk is
accepted; the length of the data is read as far as the file goes. -/
theorem readHeaderFields_start (locals : HeaderLocals) (layout : HeaderLayout) (fields : WaveFields)
    (tail : List UInt8) (previous : FileHeader) :
    readHeaderFields locals (cursor [] (layout.start fields ++ tail))
        { previous with dataOffset := 0 } =
      .ok { fp := cursor (layout.start fields ++ tail.take 4) (tail.drop 4), buffer := chunkData,
            header := layout.header { fields with
              dataLength := overwriteWord previous.dataLength (tail.take 4) } } := by
  simp only [readHeaderFields, bind, Except.bind, HeaderLayout.start, List.append_assoc,
    readPreamble_preamble, readFormat_format, skipExtension_bytes, readData_fact]
  simp only [HeaderLayout.header, HeaderLayout.dataOffset]
  rw [List.nil_append]

/-- Only such files are accepted. -/
theorem exists_start {content : List UInt8} {read : HeaderRead}
    (accepted : readHeaderFields locals (cursor [] content) header = .ok read) :
    ∃ (layout : HeaderLayout) (fields : WaveFields) (tail : List UInt8),
      content = layout.start fields ++ tail := by
  simp only [readHeaderFields, bind, Except.bind] at accepted
  split at accepted
  · cases accepted
  rename_i afterPreamble preambleRead
  obtain ⟨chunkSize, rest, rfl⟩ := exists_preamble preambleRead
  rw [readPreamble_preamble] at preambleRead
  obtain rfl := Except.ok.inj preambleRead
  split at accepted
  · cases accepted
  rename_i afterFormat formatRead
  obtain ⟨subchunk1Size, afterFormat⟩ := afterFormat
  simp only at accepted
  split at accepted
  · cases accepted
  rename_i afterEnd endRead
  obtain ⟨fields, rest, rfl⟩ | ⟨exhausted, buffer⟩ := exists_format formatRead
  · rw [readFormat_format] at formatRead
    obtain ⟨-, rfl⟩ := Prod.mk.inj (Except.ok.inj formatRead)
    obtain ⟨formatEnd, rest, rfl, rfl⟩ | ⟨exhausted, buffer⟩ := exists_formatEnd endRead
    · rw [skipExtension_bytes] at endRead
      obtain rfl := Except.ok.inj endRead
      obtain ⟨fact, tail, rfl⟩ := exists_data accepted
      refine ⟨{ formatEnd, fact }, { fields with chunkSize }, tail, ?_⟩
      simp only [HeaderLayout.start, HeaderLayout.format, List.append_assoc]
    · exact absurd accepted (not_exhausted exhausted buffer)
  · obtain ⟨fp, stale, header⟩ := afterFormat
    obtain ⟨before, rfl⟩ := exhausted
    obtain rfl : stale = chunkFmt := buffer
    obtain ⟨formatEnd, rest, rfl, split⟩ | ⟨exhausted, buffer⟩ := exists_formatEnd endRead
    · obtain ⟨nothing, rfl⟩ := List.append_eq_nil_iff.mp split.symm
      rw [split, skipExtension_bytes] at endRead
      obtain rfl := Except.ok.inj endRead
      exact absurd accepted (not_exhausted ⟨_, rfl⟩ rfl)
    · exact absurd accepted (not_exhausted exhausted buffer)

end DDSFunctionGen.Player

import DDSFunctionGen.Player.HeaderFields

/-!
# Headers decoded

What `wave_ReadHeader` returns for a file: the fields of a complete header,
whatever the header structure held before, and the offset of its data.
-/

namespace DDSFunctionGen.Player

open DDSFunctionGen.SdCard HeaderLayout

variable {volume : Volume} {file : FileInfo} {content : List UInt8}

/-- Reading the header of a file on the volume. -/
theorem waveReadHeader_of_stored (stored : volume file.fname = some content)
    (locals : HeaderLocals) (previous : FileHeader) :
    waveReadHeader volume locals previous file =
      match readHeaderFields locals (cursor [] content) { previous with dataOffset := 0 } with
      | .error header => (false, header)
      | .ok read => (true, read.header) := by
  rw [waveReadHeader, Fil.fOpen_of_some stored]
  rfl

/-- A file that begins with a header up to the identifier of the data chunk. -/
theorem waveReadHeader_start {layout : HeaderLayout} {fields : WaveFields} {tail : List UInt8}
    (stored : volume file.fname = some (layout.start fields ++ tail)) (locals : HeaderLocals)
    (previous : FileHeader) :
    waveReadHeader volume locals previous file =
      (true, layout.header { fields with
        dataLength := overwriteWord previous.dataLength (tail.take 4) }) := by
  rw [waveReadHeader_of_stored stored, readHeaderFields_start]

/-- Only such files are accepted. -/
theorem exists_start_of_accepted {locals : HeaderLocals} {previous : FileHeader}
    (stored : volume file.fname = some content)
    (accepted : (waveReadHeader volume locals previous file).1 = true) :
    ∃ (layout : HeaderLayout) (fields : WaveFields) (tail : List UInt8),
      content = layout.start fields ++ tail := by
  rw [waveReadHeader_of_stored stored] at accepted
  split at accepted
  · cases accepted
  · rename_i read
    exact exists_start read

/-- A complete header is the file's own. -/
theorem encode_hasHeader {layout : HeaderLayout} {fields : WaveFields} {payload : List UInt8}
    (stored : volume file.fname = some (layout.encode fields ++ payload)) :
    HasHeader volume file (layout.header fields) := by
  intro locals previous
  rw [encode, List.append_assoc] at stored
  rw [waveReadHeader_start stored, take_word, overwriteWord_wordBytes]

/-! ## The offset of the data -/

/-- A header all of whose fields are in the file: its data offset is the number of
bytes that were read for it exactly if the announced size of the format chunk
covers the extension. -/
theorem dataOffset_eq_consumed_iff {locals : HeaderLocals} {previous : FileHeader}
    {read : HeaderRead}
    (accepted : readHeaderFields locals (cursor [] content) { previous with dataOffset := 0 } =
      .ok read)
    (inFull : headerLength content ≤ content.length) :
    read.header.dataOffset.toNat = read.fp.fTell ↔ SizeCoversExtension content := by
  obtain ⟨layout, fields, tail, rfl⟩ := exists_start accepted
  rw [readHeaderFields_start] at accepted
  obtain rfl := Except.ok.inj accepted
  rw [headerLength_start, List.length_append] at inFull
  have consumed : (layout.start fields ++ tail.take 4).length = (layout.start fields).length + 4 := by
    rw [List.length_append, List.length_take]
    omega
  rw [Fil.fTell, cursor, consumed]
  exact dataOffset_eq_length_iff layout fields tail

/-- The fields of an 8-bit mono file. -/
def monoFields : WaveFields where
  chunkSize := 548
  numChannels := 1
  sampleRate := 48000
  byteRate := 48000
  blockAlign := 1
  bitsPerSample := 8
  dataLength := 512

/-- A header of the common kind, without a fact chunk. -/
def plainLayout : HeaderLayout := { formatEnd := .plain, fact := none }

/-- A header with an extension and a fact chunk. -/
def extendedLayout : HeaderLayout where
  formatEnd := .extension 40 (List.replicate 22 0) (.inr rfl) List.length_replicate
  fact := some { cksize := 4, dwSampleLength := 512 }

theorem dataOffset_eq_consumed_extended :
    extendedLayout.dataOffset.toNat = (extendedLayout.encode monoFields).length ↔
      SizeCoversExtension (extendedLayout.encode monoFields) := by
  have accepted := readHeaderFields_start {} extendedLayout monoFields
    (wordBytes monoFields.dataLength) {}
  exact dataOffset_eq_consumed_iff accepted (by decide)

/-- The large size of a format chunk, with an extension announced to be empty: the
offset counts 22 bytes that are not read. -/
def emptyExtension : HeaderLayout where
  formatEnd := .unread 40 0 (.inr rfl) (by decide)
  fact := none

theorem dataOffset_beyond_consumed :
    ¬ ∀ (content : List UInt8) (locals : HeaderLocals) (previous : FileHeader) (read : HeaderRead),
        readHeaderFields locals (cursor [] content) { previous with dataOffset := 0 } = .ok read →
        headerLength content ≤ content.length →
        read.header.dataOffset.toNat = read.fp.fTell := by
  intro claimed
  have accepted := readHeaderFields_start {} emptyExtension monoFields
    (wordBytes monoFields.dataLength) {}
  have agrees := claimed _ _ _ _ accepted (by decide)
  exact absurd agrees (by decide)

/-! ## The fields -/

/-- The fields of a complete header are present. -/
theorem fieldsPresent_encode (layout : HeaderLayout) (fields : WaveFields) (payload : List UInt8) :
    FieldsPresent (layout.encode fields ++ payload) (layout.header fields) := by
  have content : layout.encode fields ++ payload =
      layout.start fields ++ (wordBytes fields.dataLength ++ payload) := by
    rw [encode, List.append_assoc]
  obtain ⟨afterRiff, chunkSize⟩ : ∃ rest,
      (layout.encode fields ++ payload).drop 4 = wordBytes fields.chunkSize ++ rest := by
    rw [content, start_append, preamble, List.append_assoc, drop_word, List.append_assoc]
    exact ⟨_, rfl⟩
  obtain ⟨afterFormat, subchunk1Size⟩ : ∃ rest, (layout.encode fields ++ payload).drop 16 =
      wordBytes layout.formatEnd.subchunk1Size ++ (halfBytes 1 ++ (halfBytes fields.numChannels ++
        (wordBytes fields.sampleRate ++ (wordBytes fields.byteRate ++
          (halfBytes fields.blockAlign ++ (halfBytes fields.bitsPerSample ++ rest)))))) := by
    rw [content, start_append]
    exact ⟨_, List.drop_left' (length_preamble fields.chunkSize)⟩
  have numChannels := drop_after_half (drop_after_word subchunk1Size)
  have sampleRate := drop_after_half numChannels
  have byteRate := drop_after_word sampleRate
  have blockAlign := drop_after_word byteRate
  have bitsPerSample := drop_after_half blockAlign
  have dataLength : (layout.encode fields ++ payload).drop (layout.start fields).length =
      wordBytes fields.dataLength ++ payload := by
    rw [content]
    exact List.drop_left
  have position : headerLength (layout.encode fields ++ payload) - 4 =
      (layout.start fields).length := by
    rw [content, headerLength_start, Nat.add_sub_cancel]
  constructor
  · exact take_word_at chunkSize
  · exact take_half_at numChannels
  · exact take_word_at sampleRate
  · exact take_word_at byteRate
  · exact take_half_at blockAlign
  · exact take_half_at bitsPerSample
  · rw [position]
    exact take_word_at dataLength

/-- An accepted header is not cut in its last field exactly if its fields are those
the file holds. -/
theorem fields_present_iff (stored : volume file.fname = some content) (locals : HeaderLocals)
    (previous : FileHeader) :
    ((waveReadHeader volume locals previous file).1 = true →
        FieldsPresent content (waveReadHeader volume locals previous file).2) ↔
      ¬ CutInLength content := by
  constructor
  · rintro present ⟨layout, fields, tail, short, rfl⟩
    rw [waveReadHeader_start stored] at present
    have length := congrArg List.length (present rfl).dataLength
    rw [headerLength_start, Nat.add_sub_cancel, List.drop_left, List.length_take,
      length_wordBytes] at length
    omega
  · intro notCut accepted
    obtain ⟨layout, fields, tail, rfl⟩ := exists_start_of_accepted stored accepted
    have long : 4 ≤ tail.length :=
      Nat.le_of_not_lt fun short => notCut ⟨layout, fields, tail, short, rfl⟩
    obtain ⟨dataLength, payload, rfl⟩ := exists_word long
    rw [waveReadHeader_start stored, take_word, overwriteWord_wordBytes, ← List.append_assoc]
    exact fieldsPresent_encode layout { fields with dataLength } payload

/-- A volume with one file under every name. -/
def oneFile (content : List UInt8) : Volume := fun _ => some content

/-- An 8-bit mono file that announces a number of data bytes and holds some samples. -/
def monoFile (dataLength : UInt32) (samples : Nat) : List UInt8 :=
  plainLayout.encode { monoFields with dataLength } ++ List.replicate samples 0x80

/-- The header of such a file. -/
def monoHeader (dataLength : UInt32) : FileHeader :=
  plainLayout.header { monoFields with dataLength }

theorem monoFile_hasHeader (dataLength : UInt32) (samples : Nat) :
    HasHeader (oneFile (monoFile dataLength samples)) {} (monoHeader dataLength) := by
  have stored : oneFile (monoFile dataLength samples) ({} : FileInfo).fname =
      some (monoFile dataLength samples) := rfl
  exact encode_hasHeader stored

theorem fields_present_plain :
    ((waveReadHeader (oneFile (plainLayout.encode monoFields)) {} {} {}).1 = true →
        FieldsPresent (plainLayout.encode monoFields)
          (waveReadHeader (oneFile (plainLayout.encode monoFields)) {} {} {}).2) ↔
      ¬ CutInLength (plainLayout.encode monoFields) := by
  have stored : oneFile (plainLayout.encode monoFields) ({} : FileInfo).fname =
      some (plainLayout.encode monoFields) := rfl
  exact fields_present_iff stored {} {}

/-- The file ends after the identifier of its data chunk: the length is the one of
the file read before. -/
theorem dataLength_stale :
    ¬ ∀ (volume : Volume) (file : FileInfo) (content : List UInt8) (locals : HeaderLocals)
        (previous : FileHeader), volume file.fname = some content →
        (waveReadHeader volume locals previous file).1 = true →
        FieldsPresent content (waveReadHeader volume locals previous file).2 := by
  intro claimed
  have stored : oneFile (plainLayout.start monoFields) ({} : FileInfo).fname =
      some (plainLayout.start monoFields ++ []) := rfl
  have read := waveReadHeader_start stored {} (plainLayout.header monoFields)
  have present := claimed _ _ _ {} (plainLayout.header monoFields) stored (by rw [read])
  rw [read] at present
  have length := congrArg List.length present.dataLength
  rw [length_wordBytes] at length
  exact absurd length (by decide)

/-! ## Encoded headers -/

/-- The layouts of the WAVE format: sizes 16, 18 with an empty extension, and 40 with
one of 22 bytes; a fact chunk holds one word. -/
def HeaderLayout.Standard (layout : HeaderLayout) : Prop :=
  (match layout.formatEnd with
    | .plain => True
    | .unread subchunk1Size cbSize .. => subchunk1Size = 18 ∧ cbSize = 0
    | .extension subchunk1Size .. => subchunk1Size = 40) ∧
  ∀ fact ∈ layout.fact, fact.cksize = 4

/-- The fields of a header structure. -/
def FileHeader.fields (header : FileHeader) : WaveFields where
  chunkSize := header.chunkSize
  numChannels := header.numChannels
  sampleRate := header.sampleRate
  byteRate := header.byteRate
  blockAlign := header.blockAlign
  bitsPerSample := header.bitsPerSample
  dataLength := header.dataLength

/-- The size of a standard format chunk covers its extension. -/
theorem HeaderLayout.Standard.covers {layout : HeaderLayout} (standard : layout.Standard) :
    layout.formatEnd.subchunk1Size.toNat = 16 + layout.formatEnd.bytes.length := by
  obtain ⟨format, -⟩ := standard
  cases ends : layout.formatEnd with
  | plain => rfl
  | unread subchunk1Size cbSize sized other =>
      rw [ends] at format
      obtain ⟨size, -⟩ : subchunk1Size = 18 ∧ cbSize = 0 := format
      subst size
      rfl
  | extension subchunk1Size bytes sized length =>
      rw [ends] at format
      obtain rfl : subchunk1Size = 40 := format
      rw [FormatEnd.bytes, List.length_append, length, length_halfBytes]
      rfl

/-- The data of a file in a standard layout begin where its header ends. -/
theorem HeaderLayout.Standard.dataOffset_eq {layout : HeaderLayout} (standard : layout.Standard)
    (fields : WaveFields) : layout.dataOffset.toNat = (layout.encode fields).length := by
  have covers := standard.covers
  rw [toNat_dataOffset, encode, List.length_append, length_start, length_wordBytes]
  omega

/-- Reading an encoded header gives back its fields, and the data begin where it
ends. -/
theorem encoded_header_decoded {layout : HeaderLayout} (standard : layout.Standard)
    (fields : WaveFields) (payload : List UInt8)
    (stored : volume file.fname = some (layout.encode fields ++ payload)) :
    ∃ header, HasHeader volume file header ∧ header.fields = fields ∧
      header.dataOffset.toNat = (layout.encode fields).length := by
  exact ⟨layout.header fields, encode_hasHeader stored, rfl, standard.dataOffset_eq fields⟩

/-- The largest of the layouts: its data begin at byte 80. -/
theorem encoded_header_decoded_extended :
    ∃ header, HasHeader (oneFile (extendedLayout.encode monoFields ++ [0x80])) {} header ∧
      header.fields = monoFields ∧ header.dataOffset.toNat = 80 := by
  have standard : extendedLayout.Standard := by
    refine ⟨rfl, ?_⟩
    rintro fact isFact
    obtain rfl := Option.some.inj isFact
    rfl
  have length : (extendedLayout.encode monoFields).length = 80 := by decide
  obtain ⟨header, decoded, fields, dataOffset⟩ :=
    encoded_header_decoded standard monoFields [0x80] (rfl : oneFile _ ({} : FileInfo).fname = _)
  exact ⟨header, decoded, fields, dataOffset.trans length⟩

end DDSFunctionGen.Player

import DDSFunctionGen.Player.WavPlayer

/-!
# The block a refill stores

`ramUpdate` reads as much of a block as the file holds, over what its buffer held
before, and stores the samples of that buffer: `ramUpdate_eq` says all it does.
-/

namespace DDSFunctionGen.Player

open DDSFunctionGen.Firmware DDSFunctionGen.SdCard

/-- The bytes that reading from a handle can still return. -/
def remaining (file : Fil) : Nat := if file.valid then file.content.length - file.fptr else 0

/-- The buffer of `ramUpdate` after its reads: bytes of the file, and beyond them what the
stack held. -/
def refillBuffer (header : FileHeader) (file : Fil) (stack : Nat → UInt8) : Nat → UInt8 :=
  fun index =>
    if index < bytesToRead header ∧ index < remaining file then
      file.content.getD (file.fptr + index) 0
    else stack index

/-- The handle after the reads. -/
def refillFile (header : FileHeader) (file : Fil) : Fil :=
  { file with fptr := file.fptr + min (bytesToRead header) (remaining file) }

/-- The word `ramUpdate` stores for sample `i` of a channel of its buffer. -/
def bufferSample (header : FileHeader) (buffer : Nat → UInt8) (right : Bool) (i : Nat) :
    BitVec 16 :=
  if header.bitsPerSample = 8 then sample8 (buffer i)
  else if header.numChannels = 1 then sample16 buffer i
  else adjustSample (sample16 buffer (i * 2 + right.toNat))

/-- The half a refill stores a channel to. -/
def Refill.destination (refill : Refill) : Bool → Option RamHalf
  | false => refill.ramL
  | true => refill.ramR

/-- Storing the samples of the channels to the halves of a refill. -/
def Refill.store (refill : Refill) (samples : Bool → Nat → BitVec 16) (rams : LookupRams) :
    LookupRams :=
  storeHalf refill.ramR (samples true) (storeHalf refill.ramL (samples false) rams)

/-- Whether a refill is handed the RAM half a word lies in. -/
def Refill.Covers (refill : Refill) (source : Source) (index : Nat) : Prop :=
  (∃ half ∈ refill.ramL, half.Covers source index) ∨ ∃ half ∈ refill.ramR, half.Covers source index

/-- A refill keeps the words outside its halves, whatever it stores. -/
theorem Refill.store_uncovered {refill : Refill} {source : Source} {index : Nat}
    (uncovered : ¬ refill.Covers source index) (samples : Bool → Nat → BitVec 16)
    (rams : LookupRams) : refill.store samples rams source index = rams source index := by
  rw [Refill.store,
    storeHalf_missed fun half right covered => uncovered (.inr ⟨half, right, covered⟩),
    storeHalf_missed fun half left covered => uncovered (.inl ⟨half, left, covered⟩)]

/-- If both channels hold the same samples, each half is given them. -/
theorem Refill.store_handed {refill : Refill} {half : RamHalf}
    (handed : half ∈ refill.ramL ∨ half ∈ refill.ramR) (samples : Nat → BitVec 16)
    (rams : LookupRams) {i : Nat} (inRange : i < 512) :
    refill.store (fun _ => samples) rams half.source (half.offset + i) = samples i := by
  have covered : half.Covers half.source (half.offset + i) := ⟨rfl, by omega, by omega⟩
  have position : half.offset + i - half.offset = i := Nat.add_sub_cancel_left ..
  by_cases isRight : half ∈ refill.ramR
  · rw [Refill.store, isRight, storeHalf_covered covered, position]
  · -- What is stored to the right half afterwards misses the words of this one.
    have isLeft : refill.ramL = some half := handed.resolve_right isRight
    have missed : ∀ other ∈ refill.ramR, ¬ other.Covers half.source (half.offset + i) := by
      intro other otherRight alsoCovered
      obtain rfl := RamHalf.Covers.unique covered alsoCovered
      exact isRight otherRight
    rw [Refill.store, storeHalf_missed missed, isLeft, storeHalf_covered covered, position]

/-- The bytes of a buffer that the samples of a channel are computed from. -/
def channelBytes (header : FileHeader) (right : Bool) : Nat :=
  if header.bitsPerSample = 8 then 512
  else if header.numChannels = 1 then 1024
  else 2046 + 2 * right.toNat

/-! ## Samples -/

/-- Words of a buffer are determined by the bytes they lie on. -/
theorem sample16_congr {buffer block : Nat → UInt8} {i bound : Nat}
    (agree : ∀ index < bound, buffer index = block index) (inRange : 2 * i + 1 < bound) :
    sample16 buffer i = sample16 block i := by
  rw [sample16, sample16, agree (2 * i) (by omega), agree (2 * i + 1) inRange]

/-- So are the samples of a channel. -/
theorem bufferSample_congr {header : FileHeader} {buffer block : Nat → UInt8} {right : Bool}
    (agree : ∀ index < channelBytes header right, buffer index = block index) :
    ∀ i < 512, bufferSample header buffer right i = bufferSample header block right i := by
  intro i inRange
  unfold channelBytes at agree
  unfold bufferSample
  split
  · rename_i eight
    rw [if_pos eight] at agree
    rw [agree i inRange]
  split
  · rename_i eight mono
    rw [if_neg eight, if_pos mono] at agree
    exact sample16_congr agree (by omega)
  · rename_i eight mono
    rw [if_neg eight, if_neg mono] at agree
    rw [sample16_congr agree (by omega)]

theorem channelBytes_le {header : FileHeader} (supported : bytesToRead header ≠ 0) (right : Bool) :
    channelBytes header right ≤ bytesToRead header := by
  have channel := right.toNat_le
  unfold channelBytes bytesToRead at *
  grind

/-- Only the first 512 samples of the channels that have a half are stored. -/
theorem Refill.store_congr {refill : Refill} {first second : Bool → Nat → BitVec 16}
    (agree : ∀ right half, refill.destination right = some half →
      ∀ i < 512, first right i = second right i) (rams : LookupRams) :
    refill.store first rams = refill.store second rams := by
  have channel : ∀ (right : Bool) (rams : LookupRams),
      storeHalf (refill.destination right) (first right) rams =
        storeHalf (refill.destination right) (second right) rams := by
    intro right rams
    cases handed : refill.destination right with
    | none => rfl
    | some half => exact storeHalf_congr (agree right half handed) (some half) rams
  calc refill.store first rams
      = storeHalf refill.ramR (second true) (storeHalf refill.ramL (first false) rams) :=
        channel true _
    _ = refill.store second rams := congrArg _ (channel false rams)

/-! ## Reads -/

theorem fRead_snd (file : Fil) (btr : Nat) :
    (file.fRead btr).2 = { file with fptr := file.fptr + min btr (remaining file) } := by
  by_cases valid : file.valid = true
  · simp [Fil.fRead, remaining, valid]
  · rw [Fil.fRead, remaining, if_neg valid, if_neg valid, Nat.min_zero, Nat.add_zero]

/-- What a read leaves to be read. -/
theorem remaining_fRead (file : Fil) (btr : Nat) :
    remaining (file.fRead btr).2 = remaining file - btr := by
  rw [fRead_snd]
  by_cases valid : file.valid = true
  · simp only [remaining, valid, if_true]
    omega
  · simp [remaining, valid]

/-- A read fills its part of the buffer as far as the file goes. -/
theorem overlay_fRead (file : Fil) (offset btr : Nat) (buffer : Nat → UInt8) (index : Nat) :
    overlay offset (file.fRead btr).1 buffer index =
      if offset ≤ index ∧ index - offset < btr ∧ index - offset < remaining file then
        file.content.getD (file.fptr + (index - offset)) 0
      else buffer index := by
  by_cases valid : file.valid = true
  · simp only [overlay, Fil.fRead, remaining, valid, if_true, List.getD_eq_getElem?_getD,
      List.getElem?_take, List.getElem?_drop]
    by_cases above : offset ≤ index
    · by_cases inRead : index - offset < btr
      · by_cases inFile : index - offset < file.content.length - file.fptr
        · simp [above, inRead, inFile, show file.fptr + (index - offset) < file.content.length by
            omega]
        · simp [above, inRead, inFile, show file.content.length ≤ file.fptr + (index - offset) by
            omega]
      · simp [above, inRead]
    · simp [above]
  · simp [overlay, Fil.fRead, remaining, valid]

/-- One read of the whole block. -/
theorem overlay_refillBuffer {header : FileHeader} {btr : Nat}
    (requested : bytesToRead header = btr) (file : Fil) (stack : Nat → UInt8) :
    overlay 0 (file.fRead btr).1 stack = refillBuffer header file stack := by
  funext index
  rw [overlay_fRead, refillBuffer, requested]
  simp

/-- The two reads of a stereo block. -/
theorem overlay_stereo {header : FileHeader} (requested : bytesToRead header = 2048) (file : Fil)
    (stack : Nat → UInt8) :
    overlay 1024 ((file.fRead 1024).2.fRead 1024).1 (overlay 0 (file.fRead 1024).1 stack) =
      refillBuffer header file stack := by
  funext index
  rw [overlay_fRead, overlay_fRead, refillBuffer, remaining_fRead, requested, fRead_snd]
  by_cases second : 1024 ≤ index ∧ index - 1024 < 1024 ∧ index - 1024 < remaining file - 1024
  · have position : file.fptr + min 1024 (remaining file) + (index - 1024) = file.fptr + index := by
      omega
    rw [if_pos second, if_pos (by omega), position]
  · rw [if_neg second, Nat.sub_zero]
    by_cases inBlock : index < 2048 ∧ index < remaining file
    · rw [if_pos inBlock, if_pos (by omega)]
    · rw [if_neg inBlock, if_neg (by omega)]

theorem fRead_stereo {header : FileHeader} (requested : bytesToRead header = 2048) (file : Fil) :
    ((file.fRead 1024).2.fRead 1024).2 = refillFile header file := by
  have twice : min 1024 (remaining file) + min 1024 (remaining (file.fRead 1024).2) =
      min 2048 (remaining file) := by
    rw [remaining_fRead]
    omega
  rw [refillFile, requested, ← twice, fRead_snd, fRead_snd, Nat.add_assoc]

/-! ## The whole call -/

/-- All that `ramUpdate` does. -/
theorem ramUpdate_eq (refill : Refill) (header : FileHeader) (file : Fil) (rams : LookupRams) :
    ramUpdate refill.ramL refill.ramR header file refill.stack rams =
      if bytesToRead header = 0 then (false, file, rams)
      else (moreData header (refillFile header file), refillFile header file,
        refill.store (bufferSample header (refillBuffer header file refill.stack)) rams) := by
  by_cases eight : header.bitsPerSample = 8
  · have requested : bytesToRead header = 512 := by simp [bytesToRead, eight]
    have sample : ∀ buffer right, bufferSample header buffer right = fun i => sample8 (buffer i) := by
      intro buffer right
      funext i
      rw [bufferSample, if_pos eight]
    rw [ramUpdate, if_pos eight, if_neg (by omega), Refill.store, sample, sample, refillFile,
      requested, ← fRead_snd, ← overlay_refillBuffer requested]
  by_cases sixteen : header.bitsPerSample = 16
  · by_cases mono : header.numChannels = 1
    · have requested : bytesToRead header = 1024 := by simp [bytesToRead, sixteen, mono]
      have sample : ∀ buffer right, bufferSample header buffer right = sample16 buffer := by
        intro buffer right
        funext i
        rw [bufferSample, if_neg eight, if_pos mono]
      rw [ramUpdate, if_neg eight, if_pos sixteen, if_pos mono, if_neg (by omega), Refill.store,
        sample, sample, refillFile, requested, ← fRead_snd, ← overlay_refillBuffer requested]
    by_cases stereo : header.numChannels = 2
    · have requested : bytesToRead header = 2048 := by simp [bytesToRead, sixteen, stereo]
      have sample : ∀ buffer right, bufferSample header buffer right =
          fun i => adjustSample (sample16 buffer (i * 2 + right.toNat)) := by
        intro buffer right
        funext i
        rw [bufferSample, if_neg eight, if_neg mono]
      rw [ramUpdate, if_neg eight, if_pos sixteen, if_neg mono, if_pos stereo, if_neg (by omega),
        Refill.store, sample, sample, ← fRead_stereo requested, ← overlay_stereo requested]
      rfl
    · have requested : bytesToRead header = 0 := by simp [bytesToRead, sixteen, mono, stereo]
      rw [ramUpdate, if_neg eight, if_pos sixteen, if_neg mono, if_neg stereo, if_pos requested]
  · have requested : bytesToRead header = 0 := by simp [bytesToRead, eight, sixteen]
    rw [ramUpdate, if_neg eight, if_neg sixteen, if_pos requested]

/-- A block stored is the block's samples stored. -/
theorem blockStored_eq (header : FileHeader) (content : List UInt8) (position : Nat)
    (refill : Refill) (rams : LookupRams) :
    blockStored header content position refill rams =
      if bytesToRead header = 0 then rams
      else refill.store
        (bufferSample header fun index => content.getD (position + index) 0) rams := rfl

/-- A refill that finds a whole block stores exactly that block. -/
theorem ramUpdate_rams {file : Fil} {header : FileHeader} (valid : file.valid = true)
    (complete : file.fptr + bytesToRead header ≤ file.content.length) (refill : Refill)
    (rams : LookupRams) :
    (ramUpdate refill.ramL refill.ramR header file refill.stack rams).2.2 =
      blockStored header file.content file.fptr refill rams := by
  have whole : remaining file = file.content.length - file.fptr := if_pos valid
  rw [ramUpdate_eq, blockStored_eq]
  split
  · rfl
  · rename_i supported
    apply Refill.store_congr
    intro right half _
    apply bufferSample_congr
    intro index below
    have inBlock := channelBytes_le supported right
    exact if_pos ⟨by omega, by omega⟩

/-- A refill keeps reading the same file and never moves backwards. -/
theorem ramUpdate_file (refill : Refill) (header : FileHeader) (file : Fil) (rams : LookupRams) :
    let file' := (ramUpdate refill.ramL refill.ramR header file refill.stack rams).2.1
    file'.valid = file.valid ∧ file'.content = file.content ∧ file.fptr ≤ file'.fptr := by
  rw [ramUpdate_eq]
  split
  · exact ⟨rfl, rfl, Nat.le_refl _⟩
  · exact ⟨rfl, rfl, Nat.le_add_right _ _⟩

end DDSFunctionGen.Player

import DDSFunctionGen.Firmware.LookupRamInterrupt
import DDSFunctionGen.Player.HeaderDecoded
import DDSFunctionGen.Player.RefillBlock

/-!
# The channels of a wave file

A frame holds one sample of each channel. A refill of two halves is meant to store the
channels apart, and its 16-bit branches do; the 8-bit branch reads every file as if it
had one channel.
-/

namespace DDSFunctionGen.Player

open DDSFunctionGen.Firmware DDSFunctionGen.SdCard

/-! ## Two destinations -/

/-- The halves a refill is handed differ. -/
def Refill.Separate (refill : Refill) : Prop :=
  refill.ramL ≠ none → refill.ramL ≠ refill.ramR

instance (refill : Refill) : Decidable refill.Separate :=
  inferInstanceAs (Decidable (_ → _))

/-- The halves of one call of the interrupt are of different RAMs. -/
theorem isrLookupRam_separate {settings : LookupSettings} {previusValue value : BitVec 8}
    {call : RefillCall} (called : call ∈ isrLookupRam settings previusValue value) {half : RamHalf}
    (handed : call.ramR = some half) : call.ramL.source ≠ half.source := by
  have modulation : ∀ {source waveType modulationON},
      call ∉ modulationCalls source waveType modulationON previusValue value := by
    intro source waveType modulationON member
    unfold modulationCalls at member
    split at member
    · obtain rfl := List.mem_singleton.mp member
      cases handed
    · cases member
  simp only [isrLookupRam, List.mem_append, modulation, or_false] at called
  unfold mainCalls at called
  split at called
  · obtain rfl := List.mem_singleton.mp called
    obtain rfl := Option.some.inj handed
    intro same
    cases same
  split at called
  · obtain rfl := List.mem_singleton.mp called
    cases handed
  split at called
  · obtain rfl := List.mem_singleton.mp called
    cases handed
  · cases called

/-- Each half ends up with the samples of its channel. -/
theorem Refill.store_channel {refill : Refill} (separate : refill.Separate) {right : Bool}
    {half : RamHalf} (handed : refill.destination right = some half)
    (samples : Bool → Nat → BitVec 16) (rams : LookupRams) {i : Nat} (inRange : i < 512) :
    refill.store samples rams half.source (half.offset + i) = samples right i := by
  have covered : half.Covers half.source (half.offset + i) := ⟨rfl, by omega, by omega⟩
  have position : half.offset + i - half.offset = i := Nat.add_sub_cancel_left ..
  cases right with
  | true =>
      obtain handed : refill.ramR = some half := handed
      rw [Refill.store, handed, storeHalf_covered covered, position]
  | false =>
      obtain handed : refill.ramL = some half := handed
      have missed : ∀ other ∈ refill.ramR, ¬ other.Covers half.source (half.offset + i) := by
        intro other isRight alsoCovered
        obtain rfl := RamHalf.Covers.unique covered alsoCovered
        exact separate (by simp [handed]) (handed.trans isRight.symm)
      rw [Refill.store, storeHalf_missed missed, handed, storeHalf_covered covered, position]

/-! ## Frames -/

/-- The bytes of a frame. -/
def frameBytes (header : FileHeader) : Nat :=
  header.numChannels.toNat * (header.bitsPerSample.toNat / 8)

/-- Where the sample of a channel in a frame of a block begins; the frames of a mono file
hold one sample for both. -/
def sampleAddress (header : FileHeader) (position : Nat) (right : Bool) (frame : Nat) : Nat :=
  position + frame * frameBytes header +
    if header.numChannels = 2 ∧ right then header.bitsPerSample.toNat / 8 else 0

/-- The word a sample that begins at an address is converted to. -/
def convertedSample (header : FileHeader) (content : List UInt8) (address : Nat) : BitVec 16 :=
  if header.bitsPerSample = 8 then sample8 (content.getD address 0)
  else if header.numChannels = 1 then (halfAt content address).toBitVec
  else adjustSample (halfAt content address).toBitVec

/-- Word `i` of each half is the sample of its channel in frame `i`, and the next block
begins 512 frames later. -/
def DeInterleaves (header : FileHeader) (content : List UInt8) (position : Nat)
    (refill : Refill) (rams : LookupRams) : Prop :=
  let file : Fil := { valid := true, content, fptr := position }
  let after := ramUpdate refill.ramL refill.ramR header file refill.stack rams
  (∀ right half, refill.destination right = some half → ∀ i < 512,
    after.2.2 half.source (half.offset + i) =
      convertedSample header content (sampleAddress header position right i)) ∧
  after.2.1.fTell = position + 512 * frameBytes header

/-- A 16-bit sample of a block. -/
theorem sample16_block (content : List UInt8) (position i : Nat) :
    sample16 (fun index => content.getD (position + index) 0) i =
      (halfAt content (position + 2 * i)).toBitVec := rfl

/-- In a format whose frames the refill reads whole, its samples are those of the frames. -/
theorem bufferSample_frame {header : FileHeader}
    (bits : header.bitsPerSample = 8 ∨ header.bitsPerSample = 16)
    (channels : header.numChannels = 1 ∨ header.numChannels = 2)
    (whole : ¬ (header.bitsPerSample = 8 ∧ header.numChannels = 2)) (content : List UInt8)
    (position : Nat) (right : Bool) (i : Nat) :
    bufferSample header (fun index => content.getD (position + index) 0) right i =
      convertedSample header content (sampleAddress header position right i) := by
  unfold bufferSample convertedSample sampleAddress frameBytes
  rcases bits with eight | sixteen
  · obtain mono := channels.resolve_right fun stereo => whole ⟨eight, stereo⟩
    simp [eight, mono]
  · have notEight : header.bitsPerSample ≠ 8 := by
      rw [sixteen]
      decide
    rcases channels with mono | stereo
    · rw [if_neg notEight, if_pos mono, if_neg notEight, if_pos mono, sample16_block]
      simp [sixteen, mono, Nat.mul_comm]
    · have notMono : header.numChannels ≠ 1 := by
        rw [stereo]
        decide
      rw [if_neg notEight, if_neg notMono, if_neg notEight, if_neg notMono, sample16_block]
      congr 3
      cases right <;> simp [sixteen, stereo] <;> omega

/-- A whole block of frames is what the refill requests. -/
theorem bytesToRead_frames {header : FileHeader}
    (bits : header.bitsPerSample = 8 ∨ header.bitsPerSample = 16)
    (channels : header.numChannels = 1 ∨ header.numChannels = 2) :
    bytesToRead header = 512 * frameBytes header ↔
      ¬ (header.bitsPerSample = 8 ∧ header.numChannels = 2) := by
  rcases bits with eight | sixteen
  · rcases channels with mono | stereo
    · simp [bytesToRead, frameBytes, eight, mono]
    · simp [bytesToRead, frameBytes, eight, stereo]
  · rcases channels with mono | stereo
    · simp [bytesToRead, frameBytes, sixteen, mono]
    · simp [bytesToRead, frameBytes, sixteen, stereo]

theorem bytesToRead_supported {header : FileHeader}
    (bits : header.bitsPerSample = 8 ∨ header.bitsPerSample = 16)
    (channels : header.numChannels = 1 ∨ header.numChannels = 2) : bytesToRead header ≠ 0 := by
  rcases bits with eight | sixteen
  · simp [bytesToRead, eight]
  · rcases channels with mono | stereo
    · simp [bytesToRead, sixteen, mono]
    · simp [bytesToRead, sixteen, stereo]

/-- With a block of frames left in the file, the channels are stored apart exactly unless
the file has two channels of 8 bits. -/
theorem deInterleaves_iff {header : FileHeader}
    (bits : header.bitsPerSample = 8 ∨ header.bitsPerSample = 16)
    (channels : header.numChannels = 1 ∨ header.numChannels = 2) (content : List UInt8)
    (position : Nat) (complete : position + 512 * frameBytes header ≤ content.length)
    (refill : Refill) (separate : refill.Separate) (rams : LookupRams) :
    DeInterleaves header content position refill rams ↔
      ¬ (header.bitsPerSample = 8 ∧ header.numChannels = 2) := by
  have supported := bytesToRead_supported bits channels
  have block := bytesToRead_frames bits channels
  let file : Fil := { valid := true, content, fptr := position }
  have left : remaining file = content.length - position := rfl
  have smaller : bytesToRead header ≤ 512 * frameBytes header := by
    rcases bits with eight | sixteen <;> rcases channels with mono | stereo <;>
      simp [bytesToRead, frameBytes, *]
  have advance : (refillFile header file).fTell = position + bytesToRead header := by
    have fits : min (bytesToRead header) (remaining file) = bytesToRead header := by omega
    rw [refillFile, fits]
    rfl
  rw [DeInterleaves, ramUpdate_eq, if_neg supported, ← block]
  constructor
  · rintro ⟨-, advanced⟩
    rw [advance] at advanced
    omega
  · intro whole
    refine ⟨fun right half handed i inRange => ?_, by rw [advance, whole]⟩
    show refill.store (bufferSample header (refillBuffer header file refill.stack)) rams
      half.source (half.offset + i) = _
    rw [Refill.store_channel separate handed _ _ inRange,
      ← bufferSample_frame bits channels (block.mp whole)]
    refine bufferSample_congr (fun index below => ?_) i inRange
    have inBlock := channelBytes_le supported right
    exact if_pos ⟨by omega, by omega⟩

/-! ## Two channels of 8 bits -/

/-- The lower halves of the two main RAMs. -/
def stereoRefill : Refill where
  ramL := some { source := .dds0, upper := false }
  ramR := some { source := .dds1, upper := false }

/-- The fields of a file with two channels and one block of frames. -/
def stereoFields (bitsPerSample : UInt16) (blockAlign : UInt16) : WaveFields where
  chunkSize := 36 + 512 * blockAlign.toUInt32
  numChannels := 2
  sampleRate := 48000
  byteRate := 48000 * blockAlign.toUInt32
  blockAlign
  bitsPerSample
  dataLength := 512 * blockAlign.toUInt32

/-- A file of 512 equal frames. -/
def framesFile (fields : WaveFields) (frame : List UInt8) : List UInt8 :=
  plainLayout.encode fields ++ (List.replicate 512 frame).flatten

theorem length_framesFile (fields : WaveFields) (frame : List UInt8) :
    (framesFile fields frame).length = 44 + 512 * frame.length := by
  have header : (plainLayout.encode fields).length = 44 := rfl
  rw [framesFile, List.length_append, header, List.length_flatten, List.map_replicate,
    List.sum_replicate_nat]

theorem deInterleaves_sixteen_bit :
    DeInterleaves (plainLayout.header (stereoFields 16 4))
        (framesFile (stereoFields 16 4) [0x00, 0x10, 0x00, 0xF0]) 44 stereoRefill
        (fun _ _ => 0) ↔
      ¬ ((16 : UInt16) = 8 ∧ (2 : UInt16) = 2) :=
  deInterleaves_iff (.inr rfl) (.inr rfl) _ 44 (by rw [length_framesFile]; decide) stereoRefill
    (by decide) _

/-- Silence on the left and full scale on the right: the left half holds both in turns. -/
theorem eight_bit_stereo_mixed :
    ¬ ∀ (header : FileHeader) (content : List UInt8) (position : Nat) (refill : Refill)
        (rams : LookupRams), header.bitsPerSample = 8 ∨ header.bitsPerSample = 16 →
        header.numChannels = 1 ∨ header.numChannels = 2 →
        position + 512 * frameBytes header ≤ content.length → refill.Separate →
        DeInterleaves header content position refill rams := by
  intro claimed
  obtain ⟨stored, -⟩ := claimed (plainLayout.header (stereoFields 8 2))
    (framesFile (stereoFields 8 2) [0x80, 0xFF]) 44 stereoRefill (fun _ _ => 0) (.inl rfl) (.inr rfl)
    (by rw [length_framesFile]; decide) (by decide)
  have leftWord := stored false { source := .dds0, upper := false } rfl 1 (by decide)
  exact absurd leftWord (by decide +kernel)

end DDSFunctionGen.Player

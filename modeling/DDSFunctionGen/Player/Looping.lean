import Mathlib.Data.List.GetD
import DDSFunctionGen.Player.EndOfData

/-!
# Looped playback

A mono file of whole blocks is played block by block and then again from its first
block: the refill that reads the last block also rewinds the file.
-/

namespace DDSFunctionGen.Player

open DDSFunctionGen.Firmware DDSFunctionGen.SdCard DDSFunctionGen.Semantics

/-- Sample `i` of the data of a mono file, as the word it is converted to. -/
def dataSample (bitsPerSample : UInt16) (data : List UInt8) (i : Nat) : BitVec 16 :=
  if bitsPerSample = 8 then sample8 (data.getD i 0)
  else sample16 (fun index => data.getD index 0) i

/-- The bytes of a block of 512 samples. -/
def blockBytes (bitsPerSample : UInt16) : Nat := if bitsPerSample = 8 then 512 else 1024

/-- A mono file of whole blocks: a header in a standard layout, the data it announces and
anything behind them. Its size is a 32-bit word, as on every FAT volume. -/
structure LoopFile where
  layout : HeaderLayout
  fields : WaveFields
  data : List UInt8
  trailing : List UInt8
  blocks : Nat
  standard : layout.Standard
  mono : fields.numChannels = 1
  bits : fields.bitsPerSample = 8 ∨ fields.bitsPerSample = 16
  nonempty : 1 ≤ blocks
  whole : data.length = blocks * blockBytes fields.bitsPerSample
  announced : fields.dataLength.toNat = data.length
  size : (layout.encode fields ++ (data ++ trailing)).length < 2 ^ 32

namespace LoopFile

variable (loop : LoopFile)

/-- The bytes of the file. -/
def content : List UInt8 := loop.layout.encode loop.fields ++ (loop.data ++ loop.trailing)

/-- Its header, once it has been read. -/
def header : FileHeader := loop.layout.header loop.fields

/-- Where a block begins in the file. -/
def blockStart (block : Nat) : Nat :=
  loop.header.dataOffset.toNat + block * blockBytes loop.fields.bitsPerSample

theorem bytesToRead_header : bytesToRead loop.header = blockBytes loop.fields.bitsPerSample := by
  have mono : loop.header.numChannels = 1 := loop.mono
  rcases loop.bits with eight | sixteen
  · have bits : loop.header.bitsPerSample = 8 := eight
    simp [bytesToRead, blockBytes, bits, eight]
  · have bits : loop.header.bitsPerSample = 16 := sixteen
    simp [bytesToRead, blockBytes, bits, sixteen, mono]

theorem blockBytes_pos : 0 < blockBytes loop.fields.bitsPerSample := by
  unfold blockBytes
  split <;> decide

theorem supported : bytesToRead loop.header ≠ 0 := by
  rw [bytesToRead_header]
  exact Nat.ne_of_gt loop.blockBytes_pos

theorem dataOffset_eq :
    loop.header.dataOffset.toNat = (loop.layout.encode loop.fields).length :=
  loop.standard.dataOffset_eq loop.fields

/-- The data lie in the file. -/
theorem blockStart_le : loop.blockStart loop.blocks ≤ loop.content.length := by
  have whole := loop.whole
  have start := loop.dataOffset_eq
  simp only [content, blockStart, List.length_append]
  omega

/-- The end of the data does not wrap. -/
theorem dataEnd_eq : dataEnd loop.header = loop.blockStart loop.blocks := by
  have within := loop.blockStart_le
  have size : loop.content.length < 2 ^ 32 := loop.size
  have announced : loop.header.dataLength.toNat =
      loop.blocks * blockBytes loop.fields.bitsPerSample := loop.announced.trans loop.whole
  unfold blockStart at *
  rw [dataEnd, UInt32.toNat_add, announced, Nat.mod_eq_of_lt (by omega)]

/-- A byte of the data, where it stands in the file. -/
theorem getD_content {index : Nat} (inData : index < loop.data.length) :
    loop.content.getD (loop.header.dataOffset.toNat + index) 0 = loop.data.getD index 0 := by
  rw [loop.dataOffset_eq, content, List.getD_eq_getElem?_getD, List.getD_eq_getElem?_getD,
    List.getElem?_append_right (Nat.le_add_right _ _), Nat.add_sub_cancel_left,
    List.getElem?_append_left inData]

/-- A refill that starts a block reads it to its end. -/
theorem readTo_block {block : Nat} (inFile : block < loop.blocks) :
    readTo loop.header loop.content (loop.blockStart block) = loop.blockStart (block + 1) := by
  have within := loop.blockStart_le
  have later : loop.blockStart (block + 1) ≤ loop.blockStart loop.blocks :=
    Nat.add_le_add_left (Nat.mul_le_mul_right _ inFile) _
  have next : loop.blockStart (block + 1) =
      loop.blockStart block + blockBytes loop.fields.bitsPerSample := by
    rw [blockStart, blockStart, Nat.succ_mul, Nat.add_assoc]
  rw [readTo, bytesToRead_header]
  omega

/-- The blocks follow one another in a circle. -/
theorem nextPosition_block (count : Nat) :
    nextPosition loop.header loop.content (loop.blockStart (count % loop.blocks)) =
      loop.blockStart ((count + 1) % loop.blocks) := by
  have inFile : count % loop.blocks < loop.blocks := Nat.mod_lt _ loop.nonempty
  have within := loop.blockStart_le
  rw [nextPosition, loop.readTo_block inFile, loop.dataEnd_eq]
  by_cases last : count % loop.blocks + 1 = loop.blocks
  · have first : (count + 1) % loop.blocks = 0 := by
      rw [Nat.add_mod_eq_add_mod_right 1 (Nat.mod_mod count loop.blocks).symm, last, Nat.mod_self]
    rw [last, if_pos (Nat.le_refl _), first, Nat.min_eq_left]
    · rw [blockStart, Nat.zero_mul, Nat.add_zero]
    · exact Nat.le_trans (Nat.le_add_right _ _) within
  · have same : (count + 1) % loop.blocks = count % loop.blocks + 1 := by
      rw [Nat.add_mod_eq_add_mod_right 1 (Nat.mod_mod count loop.blocks).symm,
        Nat.mod_eq_of_lt (by omega)]
    have before : loop.blockStart (count % loop.blocks + 1) < loop.blockStart loop.blocks :=
      Nat.add_lt_add_left (Nat.mul_lt_mul_of_pos_right (by omega) loop.blockBytes_pos) _
    rw [if_neg (Nat.not_le.mpr before), same]

/-! ## The samples of a block -/

/-- The samples of a block of the data. -/
def block (index : Nat) (i : Nat) : BitVec 16 :=
  dataSample loop.fields.bitsPerSample loop.data (index * 512 + i)

/-- In the sequence of all samples played, the data repeat. -/
theorem block_eq_repeated (count : Nat) {i : Nat} (inBlock : i < 512) :
    loop.block (count % loop.blocks) i = dataSample loop.fields.bitsPerSample loop.data
      ((count * 512 + i) % (loop.blocks * 512)) := by
  have position : (count * 512 + i) % (loop.blocks * 512) = count % loop.blocks * 512 + i := by
    have quotient := Nat.div_add_mod count loop.blocks
    have remainder : count % loop.blocks < loop.blocks := Nat.mod_lt _ loop.nonempty
    have below : count % loop.blocks * 512 + i < loop.blocks * 512 := by omega
    have whole : count * 512 + i =
        count % loop.blocks * 512 + i + count / loop.blocks * (loop.blocks * 512) := by
      rw [← Nat.mul_assoc, Nat.mul_comm (count / loop.blocks)]
      omega
    rw [whole, Nat.add_mul_mod_self_right, Nat.mod_eq_of_lt below]
  rw [block, position]

/-- A byte of a block as the refill that starts the block finds it. -/
theorem refillBuffer_block {index : Nat} (inFile : index < loop.blocks) {byte : Nat}
    (inBlock : byte < blockBytes loop.fields.bitsPerSample) (stack : Nat → UInt8) :
    refillBuffer loop.header
        { valid := true, content := loop.content, fptr := loop.blockStart index } stack byte =
      loop.data.getD (index * blockBytes loop.fields.bitsPerSample + byte) 0 := by
  have within := loop.blockStart_le
  have later : (index + 1) * blockBytes loop.fields.bitsPerSample ≤
      loop.blocks * blockBytes loop.fields.bitsPerSample := Nat.mul_le_mul_right _ inFile
  rw [Nat.succ_mul] at later
  have inData : index * blockBytes loop.fields.bitsPerSample + byte < loop.data.length := by
    rw [loop.whole]
    omega
  have left : remaining { valid := true, content := loop.content, fptr := loop.blockStart index } =
      loop.content.length - loop.blockStart index := rfl
  rw [← loop.getD_content inData, refillBuffer, loop.bytesToRead_header, left, if_pos]
  · rw [blockStart, Nat.add_assoc]
  · unfold blockStart at *
    omega

/-- The samples that a refill stores when it starts a block. -/
theorem bufferSample_block {index : Nat} (inFile : index < loop.blocks) (stack : Nat → UInt8)
    (right : Bool) {i : Nat} (inBlock : i < 512) :
    bufferSample loop.header (refillBuffer loop.header
        { valid := true, content := loop.content, fptr := loop.blockStart index } stack) right i =
      loop.block index i := by
  have bytes := fun (byte : Nat) (inBlock : byte < blockBytes loop.fields.bitsPerSample) =>
    loop.refillBuffer_block inFile inBlock stack
  have mono : loop.header.numChannels = 1 := loop.mono
  unfold blockBytes at bytes
  rcases loop.bits with eight | sixteen
  · have bits : loop.header.bitsPerSample = 8 := eight
    rw [bufferSample, if_pos bits, block, dataSample, if_pos eight]
    rw [if_pos eight] at bytes
    rw [bytes i inBlock]
  · have notEight : loop.fields.bitsPerSample ≠ 8 := by
      rw [sixteen]
      decide
    have bits : loop.header.bitsPerSample ≠ 8 := notEight
    rw [bufferSample, if_neg bits, if_pos mono, block, dataSample, if_neg notEight]
    rw [if_neg notEight] at bytes
    have even : index * 1024 + 2 * i = 2 * (index * 512 + i) := by omega
    rw [sample16, sample16, bytes (2 * i) (by omega), bytes (2 * i + 1) (by omega),
      ← Nat.add_assoc, even]

/-! ## Runs -/

variable {loop} {volume : Volume} {player : WavPlayer} {file : FileInfo}

/-- The player after a number of refills of the selected file. -/
def playback (volume : Volume) (player : WavPlayer) (file : FileInfo) (refills : Nat → Refill) :
    Nat → WavPlayer :=
  stateAt (fun player refill => player.ramWavUpdate volume refill) (player.select file) refills

/-- Before every refill, the file plays from a block: it has been opened, or is opened by
the refill. -/
theorem playback_plays (stored : volume file.fname = some loop.content)
    (closed : player.isOpen = false) (refills : Nat → Refill) (count : Nat) :
    ∃ opened : WavPlayer, opened.rams = (playback volume player file refills count).rams ∧
      opened.Playing loop.header loop.content (loop.blockStart (count % loop.blocks)) ∧
      ∀ refill, (playback volume player file refills count).ramWavUpdate volume refill =
        opened.ramWavUpdate volume refill := by
  induction count with
  | zero =>
      have accepted : HasHeader volume file loop.header := encode_hasHeader stored
      obtain ⟨opened, sameRams, playing, same⟩ :=
        WavPlayer.select_plays closed stored fun locals => accepted locals player.waveHeader
      have start : min loop.header.dataOffset.toNat loop.content.length =
          loop.blockStart (0 % loop.blocks) := by
        have within := loop.blockStart_le
        rw [Nat.zero_mod, blockStart, Nat.zero_mul, Nat.add_zero, Nat.min_eq_left]
        exact Nat.le_trans (Nat.le_add_right _ _) within
      rw [start] at playing
      exact ⟨opened, sameRams, playing, fun refill => (same refill).2⟩
  | succ count inductionHypothesis =>
      obtain ⟨opened, -, playing, same⟩ := inductionHypothesis
      obtain ⟨-, -, -, next, -⟩ := playing.refill loop.supported volume (refills count)
      rw [loop.nextPosition_block count, ← same (refills count)] at next
      exact ⟨_, rfl, next, fun _ => rfl⟩

/-- A refill stores the block of the data that is its turn. -/
theorem playback_stores (stored : volume file.fname = some loop.content)
    (closed : player.isOpen = false) (refills : Nat → Refill) (count : Nat) :
    (playback volume player file refills (count + 1)).rams =
      (refills count).store (fun _ => loop.block (count % loop.blocks))
        (playback volume player file refills count).rams := by
  obtain ⟨opened, sameRams, playing, same⟩ := playback_plays stored closed refills count
  obtain ⟨-, -, -, -, rams⟩ := playing.refill loop.supported volume (refills count)
  have update : (playback volume player file refills (count + 1)).rams =
      (opened.ramWavUpdate volume (refills count)).rams := congrArg _ (same (refills count))
  rw [update, rams, sameRams]
  apply Refill.store_congr
  intro right half _ i inBlock
  exact loop.bufferSample_block (Nat.mod_lt _ loop.nonempty) (refills count).stack right inBlock

/-- After a mono file of whole blocks is selected with no file open, refill `count` gives
block `count` of its data, counted round and round, to the halves it is called for, and
keeps all other words. -/
theorem looped_playback (loop : LoopFile) (stored : volume file.fname = some loop.content)
    (closed : player.isOpen = false) (refills : Nat → Refill) (count : Nat) :
    (∀ half, half ∈ (refills count).ramL ∨ half ∈ (refills count).ramR → ∀ i < 512,
        (playback volume player file refills (count + 1)).rams half.source (half.offset + i) =
          loop.block (count % loop.blocks) i) ∧
      ∀ source index, ¬ (refills count).Covers source index →
        (playback volume player file refills (count + 1)).rams source index =
          (playback volume player file refills count).rams source index := by
  rw [playback_stores stored closed refills count]
  constructor
  · intro half handed i inRange
    exact Refill.store_handed handed _ _ inRange
  · intro source index uncovered
    exact Refill.store_uncovered uncovered _ _

/-- A file of two 8-bit blocks, the second one louder, with a byte behind them. -/
def twoBlocks : LoopFile where
  layout := plainLayout
  fields := { monoFields with chunkSize := 1060, dataLength := 1024 }
  data := List.replicate 512 0x90 ++ List.replicate 512 0xFF
  trailing := [0]
  blocks := 2
  standard := ⟨trivial, nofun⟩
  mono := rfl
  bits := .inl rfl
  nonempty := by decide
  whole := by decide +kernel
  announced := by decide +kernel
  size := by decide +kernel

theorem getD_replicate_append {count i : Nat} (inRange : i < count) (sample default : UInt8)
    (rest : List UInt8) : (List.replicate count sample ++ rest).getD i default = sample := by
  have within : i < (List.replicate count sample).length := by rwa [List.length_replicate]
  rw [List.getD_append _ _ _ _ within, List.getD_replicate _ inRange]

/-- Refills of the two halves of a RAM in turns. -/
def turns (count : Nat) : Refill where
  ramL := some { source := .dds0, upper := count % 2 = 1 }
  ramR := none

/-- The third refill stores the first block again and leaves the second one. -/
theorem looped_playback_twoBlocks :
    (∀ i < 512, (playback (oneFile twoBlocks.content) (powerUp fun _ _ => 0) {} turns
        (2 + 1)).rams .dds0 i = sample8 0x90) ∧
      ∀ i < 512, (playback (oneFile twoBlocks.content) (powerUp fun _ _ => 0) {} turns
          (2 + 1)).rams .dds0 (512 + i) =
        (playback (oneFile twoBlocks.content) (powerUp fun _ _ => 0) {} turns
          2).rams .dds0 (512 + i) := by
  have stored : oneFile twoBlocks.content ({} : FileInfo).fname = some twoBlocks.content := rfl
  have closed : (powerUp fun _ _ => 0).isOpen = false := rfl
  obtain ⟨words, kept⟩ := looped_playback twoBlocks stored closed turns 2
  constructor
  · intro i inRange
    have word := words { source := .dds0, upper := false } (.inl rfl) i inRange
    have lower : ({ source := .dds0, upper := false } : RamHalf).offset = 0 := rfl
    rw [lower, Nat.zero_add] at word
    have index : 2 % twoBlocks.blocks * 512 + i = i := Nat.zero_add i
    have byte : twoBlocks.data.getD i 0 = 0x90 := getD_replicate_append inRange _ _ _
    have eight : twoBlocks.fields.bitsPerSample = 8 := rfl
    dsimp only at word
    rw [block, dataSample, if_pos eight, index, byte] at word
    exact word
  · intro i inRange
    have uncovered : ¬ (turns 2).Covers .dds0 (512 + i) := by
      rintro (⟨half, left, -, -, below⟩ | ⟨half, none, -⟩)
      · obtain rfl := Option.some.inj left
        exact absurd below (Nat.not_lt.mpr (Nat.le_add_right 512 i))
      · cases none
    exact kept .dds0 (512 + i) uncovered

end LoopFile
end DDSFunctionGen.Player

import DDSFunctionGen.Player.Channels

/-!
# Whose bytes a refill plays

`ramUpdate` requests a whole block wherever the data chunk or the file ends, and stores
512 samples however many bytes it was given. A word is derived from the data chunk if
no byte outside of it, and nothing on the stack, changes the word.
-/

namespace DDSFunctionGen.Player

open DDSFunctionGen.Firmware DDSFunctionGen.SdCard

/-- Two contents agree on the data chunk. -/
def SameData (header : FileHeader) (content other : List UInt8) : Prop :=
  ∀ index, header.dataOffset.toNat ≤ index →
    index < header.dataOffset.toNat + header.dataLength.toNat → other[index]? = content[index]?

/-- The RAMs after a refill from a position of a file. -/
def refilledRams (header : FileHeader) (content : List UInt8) (position : Nat) (refill : Refill)
    (stack : Nat → UInt8) (rams : LookupRams) : LookupRams :=
  (ramUpdate refill.ramL refill.ramR header { valid := true, content, fptr := position } stack
    rams).2.2

/-- What a refill stores is determined by the data chunk of the file. -/
def PlaysOwnAudio (header : FileHeader) (content : List UInt8) (position : Nat) (refill : Refill)
    (rams : LookupRams) : Prop :=
  ∀ other stack, SameData header content other →
    refilledRams header other position refill stack rams =
      refilledRams header content position refill refill.stack rams

/-- The bytes, from the position of a refill on, that its words are computed from: all of
them up to the last sample of the last channel that has a half. -/
def refillBytes (header : FileHeader) (refill : Refill) : Nat :=
  if bytesToRead header = 0 then 0
  else if refill.ramR.isSome then channelBytes header true
  else if refill.ramL.isSome then channelBytes header false
  else 0

variable {header : FileHeader} {content : List UInt8} {position : Nat} {refill : Refill}

theorem refilledRams_eq (content : List UInt8) (stack : Nat → UInt8) (rams : LookupRams) :
    refilledRams header content position refill stack rams =
      if bytesToRead header = 0 then rams
      else refill.store (bufferSample header
        (refillBuffer header { valid := true, content, fptr := position } stack)) rams := by
  have update := ramUpdate_eq { refill with stack } header
    { valid := true, content, fptr := position } rams
  split
  · rename_i unsupported
    rw [if_pos unsupported] at update
    exact congrArg (fun after => after.2.2) update
  · rename_i supported
    rw [if_neg supported] at update
    exact congrArg (fun after => after.2.2) update

/-! ## Blocks within the data -/

theorem SameData.refl (header : FileHeader) (content : List UInt8) :
    SameData header content content := fun _ _ _ => rfl

theorem channelBytes_mono (header : FileHeader) :
    channelBytes header false ≤ channelBytes header true := by
  unfold channelBytes
  split
  · rfl
  split
  · rfl
  · decide

theorem channelBytes_le_refillBytes (supported : bytesToRead header ≠ 0) {right : Bool}
    {half : RamHalf} (handed : refill.destination right = some half) :
    channelBytes header right ≤ refillBytes header refill := by
  have ordered := channelBytes_mono header
  rw [refillBytes, if_neg supported]
  cases right with
  | true =>
      obtain handed : refill.ramR = some half := handed
      simp [handed]
  | false =>
      obtain handed : refill.ramL = some half := handed
      simp only [handed, Option.isSome_some, if_true]
      split <;> omega

theorem refillBytes_le (header : FileHeader) (refill : Refill) :
    refillBytes header refill ≤ bytesToRead header := by
  unfold refillBytes
  split
  · omega
  · rename_i supported
    have left := channelBytes_le supported false
    have right := channelBytes_le supported true
    split
    · exact right
    split
    · exact left
    · omega

/-- A byte within the data and the file is read as it stands there. -/
theorem refillBuffer_inData {other : List UInt8} (same : SameData header content other)
    (inData : header.dataOffset.toNat ≤ position) {index : Nat}
    (requested : index < bytesToRead header)
    (inside : position + index <
      min (header.dataOffset.toNat + header.dataLength.toNat) content.length)
    (stack : Nat → UInt8) :
    refillBuffer header { valid := true, content := other, fptr := position } stack index =
      content.getD (position + index) 0 := by
  have agrees := same (position + index) (by omega) (by omega)
  have inFile : position + index < content.length := by omega
  obtain ⟨inOther, -⟩ :=
    List.getElem?_eq_some_iff.mp (agrees.trans (List.getElem?_eq_getElem inFile))
  have left : remaining { valid := true, content := other, fptr := position } =
      other.length - position := rfl
  rw [refillBuffer, if_pos ⟨requested, by omega⟩]
  simp only [List.getD_eq_getElem?_getD, agrees]

/-- A refill whose bytes lie within the data and the file. -/
theorem playsOwnAudio_of_inside (inData : header.dataOffset.toNat ≤ position)
    (inside : refillBytes header refill = 0 ∨ position + refillBytes header refill ≤
      min (header.dataOffset.toNat + header.dataLength.toNat) content.length)
    (rams : LookupRams) : PlaysOwnAudio header content position refill rams := by
  intro other stack same
  rw [refilledRams_eq, refilledRams_eq]
  split
  · rfl
  · rename_i supported
    apply Refill.store_congr
    intro right half handed
    apply bufferSample_congr
    intro index below
    have ofChannel := channelBytes_le_refillBytes supported handed
    have ofRefill := refillBytes_le header refill
    have within : position + index <
        min (header.dataOffset.toNat + header.dataLength.toNat) content.length := by omega
    rw [refillBuffer_inData same inData (by omega) within,
      refillBuffer_inData (.refl header content) inData (by omega) within]

/-! ## Blocks beyond the data -/

/-- Changing the last byte of a channel from 1 to 2 changes its last sample. -/
theorem bufferSample_last {right : Bool} {first second : Nat → UInt8}
    (ones : first (channelBytes header right - 1) = 1)
    (twos : second (channelBytes header right - 1) = 2)
    (agree : ∀ index, index ≠ channelBytes header right - 1 → first index = second index) :
    bufferSample header first right 511 ≠ bufferSample header second right 511 := by
  have halves : ∀ low, (halfOfBytes low 1).toBitVec ≠ (halfOfBytes low 2).toBitVec := by
    intro low same
    have bytes := congrArg halfBytes (UInt16.toBitVec_inj.mp same)
    rw [halfBytes_halfOfBytes, halfBytes_halfOfBytes] at bytes
    exact absurd bytes (by simp)
  have adjusted : ∀ low, adjustSample (halfOfBytes low 1).toBitVec ≠
      adjustSample (halfOfBytes low 2).toBitVec := by
    have each : ∀ low : Fin 256, adjustSample (halfOfBytes (UInt8.ofFin low) 1).toBitVec ≠
        adjustSample (halfOfBytes (UInt8.ofFin low) 2).toBitVec := by decide +kernel
    exact fun low => each low.toFin
  unfold channelBytes at ones twos agree
  unfold bufferSample
  split
  · rename_i eight
    rw [if_pos eight] at ones twos
    rw [ones, twos]
    decide
  split
  · rename_i eight mono
    rw [if_neg eight, if_pos mono] at ones twos agree
    rw [sample16, sample16, ← agree (2 * 511) (by decide), ones, twos]
    exact halves _
  · rename_i eight mono
    rw [if_neg eight, if_neg mono] at ones twos agree
    have last : 2 * (511 * 2 + right.toNat) + 1 = 2046 + 2 * right.toNat - 1 := by omega
    rw [sample16, sample16, last, ← agree (2 * (511 * 2 + right.toNat)) (by omega), ones, twos]
    exact adjusted _

/-- The last channel that has a half, whose samples are the last to be stored. -/
theorem last_channel (needed : refillBytes header refill ≠ 0) :
    bytesToRead header ≠ 0 ∧ ∃ (right : Bool) (half : RamHalf),
      refillBytes header refill = channelBytes header right ∧
      ∀ samples rams, refill.store samples rams half.source (half.offset + 511) =
        samples right 511 := by
  have supported : bytesToRead header ≠ 0 := by
    intro unsupported
    rw [refillBytes, if_pos unsupported] at needed
    exact needed rfl
  have last : ∀ half : RamHalf, half.Covers half.source (half.offset + 511) :=
    fun half => ⟨rfl, by omega, by omega⟩
  refine ⟨supported, ?_⟩
  rw [refillBytes, if_neg supported] at needed ⊢
  cases isRight : refill.ramR with
  | some half =>
      refine ⟨true, half, rfl, fun samples rams => ?_⟩
      rw [Refill.store, isRight, storeHalf_covered (last half), Nat.add_sub_cancel_left]
  | none =>
      cases isLeft : refill.ramL with
      | some half =>
          refine ⟨false, half, rfl, fun samples rams => ?_⟩
          rw [Refill.store, isRight, isLeft, storeHalf_none, storeHalf_covered (last half),
            Nat.add_sub_cancel_left]
      | none => simp [isRight, isLeft] at needed

/-- A refill whose last byte lies beyond the data or the file stores a word that depends
on that byte, or on the stack. -/
theorem inside_of_playsOwnAudio {rams : LookupRams}
    (plays : PlaysOwnAudio header content position refill rams)
    (needed : refillBytes header refill ≠ 0) :
    position + refillBytes header refill ≤
      min (header.dataOffset.toNat + header.dataLength.toNat) content.length := by
  apply Decidable.byContradiction
  intro outside
  obtain ⟨supported, right, half, bytes, stored⟩ := last_channel needed
  have word : ∀ other stack, SameData header content other →
      bufferSample header
        (refillBuffer header { valid := true, content := other, fptr := position } stack) right 511 =
      refilledRams header content position refill refill.stack rams half.source (half.offset + 511) := by
    intro other stack same
    rw [← plays other stack same, refilledRams_eq, if_neg supported]
    exact (stored _ rams).symm
  have ofRefill := refillBytes_le header refill
  rw [bytes] at needed outside ofRefill
  by_cases inFile : position + (channelBytes header right - 1) < content.length
  · -- the byte is in the file, after the data
    have same : ∀ value, SameData header content
        (content.set (position + (channelBytes header right - 1)) value) := by
      intro value index above below
      exact List.getElem?_set_ne (by omega)
    refine bufferSample_last ?_ ?_ ?_
      ((word _ refill.stack (same 1)).trans (word _ refill.stack (same 2)).symm)
    · simp [refillBuffer, remaining, inFile]
      omega
    · simp [refillBuffer, remaining, inFile]
      omega
    · intro index other
      have differs : position + (channelBytes header right - 1) ≠ position + index := by omega
      simp only [refillBuffer, remaining, if_true, List.length_set, List.getD_eq_getElem?_getD,
        List.getElem?_set_ne differs]
  · -- the byte is on the stack
    let stack (value : UInt8) : Nat → UInt8 := fun index =>
      if index = channelBytes header right - 1 then value else refill.stack index
    have same := SameData.refl header content
    refine bufferSample_last ?_ ?_ ?_ ((word _ (stack 1) same).trans (word _ (stack 2) same).symm)
    · simp [refillBuffer, remaining, stack]
      omega
    · simp [refillBuffer, remaining, stack]
      omega
    · intro index other
      simp only [refillBuffer, stack, if_neg other]

/-- A refill from a position in the data plays nothing but the data exactly if the bytes
its words are computed from lie within the data chunk and the file. -/
theorem plays_own_audio_iff (content : List UInt8) (inData : header.dataOffset.toNat ≤ position)
    (refill : Refill) (rams : LookupRams) :
    PlaysOwnAudio header content position refill rams ↔
      refillBytes header refill = 0 ∨ position + refillBytes header refill ≤
        min (header.dataOffset.toNat + header.dataLength.toNat) content.length := by
  constructor
  · intro plays
    by_cases none : refillBytes header refill = 0
    · exact .inl none
    · exact .inr (inside_of_playsOwnAudio plays none)
  · intro inside
    exact playsOwnAudio_of_inside inData inside rams

/-- A refill of one half, that finds a value on the stack. -/
def monoRefill (value : UInt8) : Refill where
  ramL := some { source := .dds0, upper := false }
  ramR := none
  stack := fun _ => value

theorem plays_own_audio_block :
    PlaysOwnAudio (monoHeader 512) (monoFile 512 512) 44 (monoRefill 0) (fun _ _ => 0) ↔
      refillBytes (monoHeader 512) (monoRefill 0) = 0 ∨
        44 + refillBytes (monoHeader 512) (monoRefill 0) ≤
          min ((monoHeader 512).dataOffset.toNat + (monoHeader 512).dataLength.toNat)
            (monoFile 512 512).length :=
  plays_own_audio_iff (monoFile 512 512) (by decide) (monoRefill 0) _

/-- The data are shorter than a block and end the file: the last words come from the
stack. -/
theorem short_data_plays_stack :
    ¬ ∀ (volume : Volume) (file : FileInfo) (header : FileHeader) (content : List UInt8)
        (position : Nat) (refill : Refill) (rams : LookupRams),
        volume file.fname = some content → HasHeader volume file header →
        header.dataOffset.toNat ≤ position →
        position < header.dataOffset.toNat + header.dataLength.toNat →
        PlaysOwnAudio header content position refill rams := by
  intro claimed
  have plays := claimed (oneFile (monoFile 100 100)) {} (monoHeader 100) (monoFile 100 100) 44
    (monoRefill 0) (fun _ _ => 0) rfl (monoFile_hasHeader 100 100) (by decide) (by decide)
  have same := plays (monoFile 100 100) (fun _ => 1) (.refl _ _)
  have word := congrFun (congrFun same .dds0) 511
  exact absurd word (by decide +kernel)

end DDSFunctionGen.Player

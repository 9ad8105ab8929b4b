import DDSFunctionGen.Player.HeaderDecoded
import DDSFunctionGen.Player.RefillBlock
import DDSFunctionGen.Semantics.Execution
import Mathlib.Algebra.Ring.Nat

/-!
# The end of the data

The refills of an open file move its position through the data chunk; `ramUpdate`
compares the position with the end of the data, a 32-bit sum, and the refill rewinds the
file once the position has reached it.
-/

namespace DDSFunctionGen.Player

open DDSFunctionGen.Firmware DDSFunctionGen.SdCard DDSFunctionGen.Semantics

namespace WavPlayer

/-- The player after the read of a refill, before its branch `if(endOfFile)`. -/
def afterRead (volume : Volume) (refill : Refill) (player : WavPlayer) : WavPlayer :=
  (if player.isOpen then player else (player.openFile volume refill.locals).2).fill refill

/-- The branch `if(endOfFile)` rewinds the file. -/
def Rewinds (player : WavPlayer) : Prop :=
  player.endOfFile = true ∧ ¬ (player.isOpen = true ∧ player.isFileValid = false)

instance (player : WavPlayer) : Decidable player.Rewinds := inferInstanceAs (Decidable (_ ∧ _))

/-- A file is being played, from a position on. -/
structure Playing (header : FileHeader) (content : List UInt8) (position : Nat)
    (player : WavPlayer) : Prop where
  isFileValid : player.isFileValid = true
  isOpen : player.isOpen = true
  notEnded : player.endOfFile = false
  waveHeader : player.waveHeader = header
  fp : player.fp = { valid := true, content, fptr := position }

end WavPlayer

/-- A refill rewinds the file exactly if its read has reached the end of the data, or of
the file. -/
def RewindsExactly (volume : Volume) (player : WavPlayer) : Event → Prop
  | .refill refill =>
      let read := player.afterRead volume refill
      read.Rewinds ↔
        min (read.waveHeader.dataOffset.toNat + read.waveHeader.dataLength.toNat)
          read.fp.content.length ≤ read.fp.fTell
  | _ => True

/-- The end of the data as the code computes it. -/
def dataEnd (header : FileHeader) : Nat := (header.dataOffset + header.dataLength).toNat

/-- The end of the data lies in the file; where the sum wraps, one block reaches it. -/
def EndDetectable (header : FileHeader) (content : List UInt8) : Prop :=
  dataEnd header ≤ content.length ∧
    (header.dataOffset.toNat + header.dataLength.toNat < 2 ^ 32 ∨
      min (header.dataOffset.toNat + header.dataLength.toNat) content.length ≤
        header.dataOffset.toNat + bytesToRead header)

instance (header : FileHeader) (content : List UInt8) : Decidable (EndDetectable header content) :=
  inferInstanceAs (Decidable (_ ∧ _))

/-! ## One refill -/

/-- The position a refill reads to. -/
def readTo (header : FileHeader) (content : List UInt8) (position : Nat) : Nat :=
  position + min (bytesToRead header) (content.length - position)

/-- The position a refill leaves. -/
def nextPosition (header : FileHeader) (content : List UInt8) (position : Nat) : Nat :=
  if dataEnd header ≤ readTo header content position then
    min header.dataOffset.toNat content.length
  else readTo header content position

theorem moreData_refillFile (header : FileHeader) (content : List UInt8) (position : Nat) :
    moreData header (refillFile header { valid := true, content, fptr := position }) =
      !decide (dataEnd header ≤ readTo header content position) := by
  simp only [← decide_not, Nat.not_le]
  rfl

namespace WavPlayer

variable {volume : Volume} {player : WavPlayer} {header : FileHeader} {content : List UInt8}
  {position : Nat}

/-- All that a refill does to a file being played. -/
theorem Playing.refill (playing : player.Playing header content position)
    (supported : bytesToRead header ≠ 0) (volume : Volume) (refill : Refill) :
    (player.afterRead volume refill).waveHeader = header ∧
    (player.afterRead volume refill).fp =
      { valid := true, content, fptr := readTo header content position } ∧
    ((player.afterRead volume refill).Rewinds ↔
      dataEnd header ≤ readTo header content position) ∧
    (player.ramWavUpdate volume refill).Playing header content
      (nextPosition header content position) ∧
    (player.ramWavUpdate volume refill).rams = refill.store (bufferSample header
      (refillBuffer header { valid := true, content, fptr := position } refill.stack))
        player.rams := by
  obtain ⟨isFileValid, isOpen, notEnded, rfl, fp⟩ := playing
  have read : player.afterRead volume refill =
      { player with
        fp := { valid := true, content, fptr := readTo player.waveHeader content position }
        rams := refill.store (bufferSample player.waveHeader
          (refillBuffer player.waveHeader { valid := true, content, fptr := position }
            refill.stack)) player.rams
        endOfFile := decide (dataEnd player.waveHeader ≤
          readTo player.waveHeader content position) } := by
    rw [afterRead, if_pos isOpen, fill, ramUpdate_eq, if_neg supported, fp, notEnded]
    simp only [moreData_refillFile, Bool.not_not, Bool.false_or]
    rfl
  have update : player.ramWavUpdate volume refill =
      (player.afterRead volume refill).handleEndOfFile refill := by
    rw [ramWavUpdate, if_pos isFileValid, if_pos isOpen, afterRead, if_pos isOpen]
  refine ⟨by rw [read], by rw [read], by simp [read, Rewinds, isFileValid], ?_, ?_⟩
  · rw [update, read, handleEndOfFile]
    by_cases ended : dataEnd player.waveHeader ≤ readTo player.waveHeader content position
    · constructor <;> simp [ended, isFileValid, isOpen, nextPosition, Fil.fLseek]
    · constructor <;> simp [ended, isFileValid, isOpen, nextPosition]
  · rw [update, read, handleEndOfFile]
    by_cases ended : dataEnd player.waveHeader ≤ readTo player.waveHeader content position
    · simp [ended, isFileValid]
    · simp [ended]

/-- A file that is selected with none open starts to play at its data: its first refill is
a refill of the file just opened. -/
theorem select_plays (closed : player.isOpen = false) {file : FileInfo}
    (stored : volume file.fname = some content)
    (accepted : ∀ locals, waveReadHeader volume locals player.waveHeader file = (true, header)) :
    ∃ opened : WavPlayer, opened.rams = player.rams ∧
      opened.Playing header content (min header.dataOffset.toNat content.length) ∧
      ∀ refill, (player.select file).afterRead volume refill = opened.afterRead volume refill ∧
        (player.select file).ramWavUpdate volume refill = opened.ramWavUpdate volume refill := by
  let opened : WavPlayer := { player.select file with
    waveHeader := header
    fp := { valid := true, content, fptr := min header.dataOffset.toNat content.length }
    isOpen := true }
  have opens : ∀ locals, (player.select file).openFile volume locals = (true, opened) := by
    intro locals
    simp [openFile, select, accepted locals, stored, opened, Fil.fLseek]
  have selected : (player.select file).isFileValid = true := rfl
  have unopened : ¬ (player.select file).isOpen = true := by simp [select, closed]
  refine ⟨opened, rfl, ⟨rfl, rfl, rfl, rfl, rfl⟩, fun refill => ⟨?_, ?_⟩⟩
  · rw [afterRead, if_neg unopened, opens]
    rfl
  · rw [ramWavUpdate, if_pos selected, if_neg unopened, opens]
    rfl

/-! ## Runs of refills -/

/-- A refill of a file being played rewinds exactly if the two ends are reached alike. -/
theorem Playing.rewindsExactly_iff (playing : player.Playing header content position)
    (supported : bytesToRead header ≠ 0) (refill : Refill) :
    RewindsExactly volume player (.refill refill) ↔
      (dataEnd header ≤ readTo header content position ↔
        min (header.dataOffset.toNat + header.dataLength.toNat) content.length ≤
          readTo header content position) := by
  obtain ⟨waveHeader, fp, rewinds, -, -⟩ := playing.refill supported volume refill
  rw [RewindsExactly, waveHeader, fp]
  exact iff_congr rewinds Iff.rfl

/-- Where the end is detectable, every refill of a run from the data on rewinds exactly. -/
theorem Playing.along (playing : player.Playing header content position)
    (supported : bytesToRead header ≠ 0) (detectable : EndDetectable header content)
    (inData : min header.dataOffset.toNat content.length ≤ position) (refills : List Refill) :
    Along (step volume) (RewindsExactly volume) player (refills.map .refill) := by
  induction refills generalizing player position with
  | nil => trivial
  | cons refill rest inductionHypothesis =>
      obtain ⟨-, -, -, next, -⟩ := playing.refill supported volume refill
      obtain ⟨inFile, sum⟩ := detectable
      have wrapped : dataEnd header =
          (header.dataOffset.toNat + header.dataLength.toNat) % 2 ^ 32 := UInt32.toNat_add ..
      have small := header.dataLength.toNat_lt
      refine ⟨(playing.rewindsExactly_iff supported refill).mpr ?_,
        inductionHypothesis next ?_⟩
      · unfold readTo
        omega
      · unfold nextPosition readTo
        split <;> omega

end WavPlayer
end DDSFunctionGen.Player

import DDSFunctionGen.Player.Stop

/-!
# The words a refill writes

`ram_wav_update` stores to the two halves it is called with, and to nothing
while no file is selected and none is left to be closed.
-/

namespace DDSFunctionGen.Player

open DDSFunctionGen.Firmware DDSFunctionGen.SdCard

/-- A refill has nothing to store: no file is selected, and none is open that STOP
has ended. -/
structure WavPlayer.Quiet (player : WavPlayer) : Prop where
  notValid : player.isFileValid = false
  notEnded : player.endOfFile = true → player.isOpen = false

instance (player : WavPlayer) : Decidable player.Quiet :=
  decidable_of_iff (player.isFileValid = false ∧ (player.endOfFile = true → player.isOpen = false))
    ⟨fun both => ⟨both.1, both.2⟩, fun quiet => ⟨quiet.1, quiet.2⟩⟩

variable {source : Source} {index : Nat}

theorem ramUpdate_uncovered {refill : Refill} (uncovered : ¬ refill.Covers source index)
    (header : FileHeader) (file : Fil) (rams : LookupRams) :
    (ramUpdate refill.ramL refill.ramR header file refill.stack rams).2.2 source index =
      rams source index := by
  rw [ramUpdate_eq]
  split
  · rfl
  · exact Refill.store_uncovered uncovered _ rams

namespace WavPlayer

theorem handleEndOfFile_uncovered {refill : Refill} (uncovered : ¬ refill.Covers source index)
    (player : WavPlayer) :
    (player.handleEndOfFile refill).rams source index = player.rams source index := by
  unfold handleEndOfFile
  split
  · split
    · exact silence_uncovered uncovered player.rams
    · rfl
  · rfl

theorem openFile_rams (volume : Volume) (locals : HeaderLocals) (player : WavPlayer) :
    (player.openFile volume locals).2.rams = player.rams := by
  unfold openFile
  split <;> rfl

/-- A refill keeps the words outside its halves. -/
theorem ramWavUpdate_uncovered (volume : Volume) {refill : Refill}
    (uncovered : ¬ refill.Covers source index) (player : WavPlayer) :
    (player.ramWavUpdate volume refill).rams source index = player.rams source index := by
  have filled : ∀ player : WavPlayer,
      ((player.fill refill).handleEndOfFile refill).rams source index = player.rams source index :=
    fun player => (handleEndOfFile_uncovered uncovered _).trans
      (ramUpdate_uncovered uncovered player.waveHeader player.fp player.rams)
  have opened := player.openFile_rams volume refill.locals
  unfold ramWavUpdate
  split
  · split
    · exact filled player
    · split
      · rename_i accepted
        rw [accepted] at opened
        rw [filled, opened]
      · rename_i rejected
        rw [rejected] at opened
        rw [opened]
  · exact handleEndOfFile_uncovered uncovered player

/-- A refill that has nothing to store keeps the RAMs, and there is nothing to store
afterwards. -/
theorem Quiet.refill {player : WavPlayer} (quiet : player.Quiet) (volume : Volume)
    (refill : Refill) :
    (player.ramWavUpdate volume refill).Quiet ∧
      (player.ramWavUpdate volume refill).rams = player.rams := by
  have update : player.ramWavUpdate volume refill = player.handleEndOfFile refill := by
    rw [ramWavUpdate, quiet.notValid]
    rfl
  rw [update, handleEndOfFile]
  split
  · rename_i ended
    have closed := quiet.notEnded ended
    rw [if_neg (by simp [closed])]
    refine ⟨⟨quiet.notValid, fun ended => ?_⟩, rfl⟩
    cases ended
  · exact ⟨quiet, rfl⟩

end WavPlayer
end DDSFunctionGen.Player

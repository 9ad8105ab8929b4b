import DDSFunctionGen.Player.Selection

/-!
# What STOP leaves in the lookup RAMs

The first refill after STOP zeroes the half it was called for and closes the
file; with the file closed, no later refill takes the zeroing branch again.
-/

namespace DDSFunctionGen.Player

open DDSFunctionGen.Firmware DDSFunctionGen.SdCard DDSFunctionGen.Semantics

/-- A RAM is silent, the file closed and `isOpen` cleared. -/
def Silenced (source : Source) (player : WavPlayer) : Prop :=
  (∀ index < 1024, player.rams source index = 0) ∧
    player.fp.valid = false ∧ player.isOpen = false

/-- A player with no file open and none selected. -/
structure WavPlayer.Idle (player : WavPlayer) : Prop where
  notValid : player.isFileValid = false
  notOpen : player.isOpen = false
  closed : player.fp.valid = false

namespace WavPlayer

variable {player : WavPlayer} {source : Source} {index : Nat}

theorem storeHalf_zero (destination : Option RamHalf) (rams : LookupRams) :
    storeHalf destination (fun _ => 0) rams source index = 0 ∨
      storeHalf destination (fun _ => 0) rams source index = rams source index := by
  cases destination with
  | none => exact .inr rfl
  | some half =>
      by_cases covered : half.Covers source index
      · exact .inl (storeHalf_covered covered _ rams)
      · exact .inr (storeHalf_uncovered covered _ rams)

/-- The covered words are zeroed. -/
theorem silence_covered {refill : Refill} (covered : refill.Covers source index)
    (rams : LookupRams) : silence refill rams source index = 0 := by
  rcases covered with ⟨half, left, covered⟩ | ⟨half, right, covered⟩
  · have zeroed : storeHalf refill.ramL (fun _ => 0) rams source index = 0 := by
      rw [left]
      exact storeHalf_covered covered _ rams
    rcases storeHalf_zero refill.ramR (storeHalf refill.ramL (fun _ => 0) rams) with zero | kept
    · exact zero
    · exact kept.trans zeroed
  · rw [silence, right]
    exact storeHalf_covered covered _ _

/-- All other words are kept. -/
theorem silence_uncovered {refill : Refill} (uncovered : ¬ refill.Covers source index)
    (rams : LookupRams) : silence refill rams source index = rams source index :=
  Refill.store_uncovered uncovered (fun _ _ => 0) rams

/-- The first refill after STOP zeroes its halves and closes the file. -/
theorem first_refill_after_stop (volume : Volume) (isOpen : player.isOpen = true)
    (refill : Refill) :
    step volume (step volume player .stop) (.refill refill) =
      { player with
        rams := silence refill player.rams
        fp := player.fp.fClose
        isFileValid := false
        isOpen := false
        endOfFile := true } := by
  simp [step, stop, ramWavUpdate, handleEndOfFile, isOpen]

/-- A refill of an idle player writes no RAM and stays idle. -/
theorem Idle.refill (idle : player.Idle) (volume : Volume) (refill : Refill) :
    (step volume player (.refill refill)).Idle ∧
      (step volume player (.refill refill)).rams = player.rams := by
  have update : step volume player (.refill refill) = player.handleEndOfFile refill := by
    simp [step, ramWavUpdate, idle.notValid]
  rw [update, handleEndOfFile]
  split
  · rw [if_neg (by simp [idle.notOpen])]
    exact ⟨⟨idle.notValid, idle.notOpen, (player.fp.fLseek_valid _).trans idle.closed⟩, rfl⟩
  · exact ⟨idle, rfl⟩

/-- So does any number of them. -/
theorem Idle.refills (idle : player.Idle) (volume : Volume) (refills : List Refill) :
    (run (step volume) player (refills.map .refill)).Idle ∧
      (run (step volume) player (refills.map .refill)).rams = player.rams := by
  induction refills generalizing player with
  | nil => exact ⟨idle, rfl⟩
  | cons refill rest inductionHypothesis =>
      obtain ⟨stillIdle, sameRams⟩ := idle.refill volume refill
      obtain ⟨finallyIdle, finalRams⟩ := inductionHypothesis stillIdle
      exact ⟨finallyIdle, finalRams.trans sameRams⟩

end WavPlayer

/-- STOP with a file open, followed by any refills: the file ends up closed, and
a RAM ends up silent exactly if every word outside the halves handed to the
first of them already was zero. -/
theorem stop_silences_iff (volume : Volume) (player : WavPlayer) (isOpen : player.isOpen = true)
    (source : Source) (first : Refill) (rest : List Refill) :
    Silenced source (run (step volume) player (.stop :: (first :: rest).map .refill)) ↔
      ∀ index < 1024, ¬ first.Covers source index → player.rams source index = 0 := by
  have closed := WavPlayer.first_refill_after_stop volume isOpen first
  have idle : (step volume (step volume player .stop) (.refill first)).Idle := by
    rw [closed]
    exact ⟨rfl, rfl, rfl⟩
  obtain ⟨finallyIdle, finalRams⟩ := idle.refills volume rest
  have rams : (run (step volume) player (.stop :: (first :: rest).map .refill)).rams =
      WavPlayer.silence first player.rams := finalRams.trans (congrArg WavPlayer.rams closed)
  rw [Silenced, rams]
  constructor
  · rintro ⟨silent, -⟩ index inRange uncovered
    rw [← WavPlayer.silence_uncovered uncovered player.rams]
    exact silent index inRange
  · intro alreadyZero
    refine ⟨fun index inRange => ?_, finallyIdle.closed, finallyIdle.notOpen⟩
    by_cases covered : first.Covers source index
    · exact WavPlayer.silence_covered covered player.rams
    · rw [WavPlayer.silence_uncovered covered]
      exact alreadyZero index inRange covered

/-- A refill of the upper half of the first channel's main RAM. -/
def upperRefill : Refill := { ramL := some { source := .dds0, upper := true }, ramR := none }

/-- Only the lower half was filled when STOP is pressed, and it is refilled first. -/
theorem stop_silences_lower_half :
    Silenced .dds0 (run (step toneVolume)
      { powerUp fun _ index => if index < 512 then sample8 0xFF else 0 with
        wavFile := toneA, waveHeader := toneHeader, isFileValid := true, isOpen := true
        fp := { valid := true, content := toneFile 0xFF, fptr := 556 } }
      (.stop :: [lowerRefill, upperRefill].map .refill)) := by
  refine (stop_silences_iff toneVolume _ rfl .dds0 lowerRefill [upperRefill]).mpr ?_
  intro index inRange uncovered
  have upper : ¬ index < 512 := by
    intro lower
    exact uncovered (.inl ⟨_, rfl, rfl, Nat.zero_le index, lower⟩)
  exact if_neg upper

/-- Both halves were playing when STOP was pressed and both are refilled
afterwards: the upper one keeps its audio. -/
theorem stop_leaves_second_half :
    (run (step toneVolume) (powerUp fun _ _ => 0)
        [.select toneA, .refill lowerRefill, .refill upperRefill]).isOpen = true ∧
      (∀ index < 1024, lowerRefill.Covers .dds0 index ∨ upperRefill.Covers .dds0 index) ∧
      ¬ Silenced .dds0 (run (step toneVolume) (powerUp fun _ _ => 0)
        ([.select toneA, .refill lowerRefill, .refill upperRefill] ++
          .stop :: [lowerRefill, upperRefill].map .refill)) := by
  refine ⟨by decide +kernel, ?_, ?_⟩
  · intro index inRange
    simp only [Refill.Covers, lowerRefill, upperRefill, RamHalf.Covers, RamHalf.offset]
    simp
    omega
  · rintro ⟨silent, -⟩
    have playing : (run (step toneVolume) (powerUp fun _ _ => 0)
        ([.select toneA, .refill lowerRefill, .refill upperRefill] ++
          .stop :: [lowerRefill, upperRefill].map .refill)).rams .dds0 512 = sample8 0xFF := by
      decide +kernel
    exact absurd (playing.symm.trans (silent 512 (by decide))) (by decide)

end DDSFunctionGen.Player

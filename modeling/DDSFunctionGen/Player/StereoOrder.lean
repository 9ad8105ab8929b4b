import DDSFunctionGen.Arithmetic.SignedWord
import DDSFunctionGen.Player.Channels

/-!
# The order of stereo samples

Stereo samples are moved away from zero by 1200 before they are stored to 16-bit RAM
words. Nothing clamps the result, so a sample closer than that to the end of the 16-bit
range is stored with the other sign.
-/

namespace DDSFunctionGen.Player

open DDSFunctionGen.Arithmetic DDSFunctionGen.Firmware DDSFunctionGen.SdCard

/-- A sample that 1200 can be added to, or taken from, in 16 bits. -/
def Adjustable (sample : BitVec 16) : Prop := -31568 ≤ sample.toInt ∧ sample.toInt ≤ 31567

instance (sample : BitVec 16) : Decidable (Adjustable sample) :=
  inferInstanceAs (Decidable (_ ∧ _))

/-- Words are stored in the order of their samples and with their signs. -/
structure KeepsOrder (samples stored : Nat → BitVec 16) : Prop where
  order : ∀ s < 512, ∀ t < 512, (samples s).toInt ≤ (samples t).toInt →
    (stored s).toInt ≤ (stored t).toInt
  positive : ∀ s < 512, 0 < (samples s).toInt → 0 ≤ (stored s).toInt
  negative : ∀ s < 512, (samples s).toInt < 0 → (stored s).toInt ≤ 0

/-- An adjustable sample is moved by exactly 1200. -/
theorem Adjustable.toInt {sample : BitVec 16} (adjustable : Adjustable sample) :
    (adjustSample sample).toInt =
      if 0 < sample.toInt then sample.toInt + 1200 else sample.toInt - 1200 := by
  obtain ⟨lower, upper⟩ := adjustable
  unfold adjustSample
  split
  · have fits : Fits 16 (sample.toInt + 1200) := by constructor <;> omega
    rw [BitVec.toInt_ofInt, bmod_of_fits fits]
  · have fits : Fits 16 (sample.toInt - 1200) := by constructor <;> omega
    rw [BitVec.toInt_ofInt, bmod_of_fits fits]

/-- Any other sample changes its sign. -/
theorem adjustable_of_signs {sample : BitVec 16}
    (positive : 0 < sample.toInt → 0 ≤ (adjustSample sample).toInt)
    (negative : sample.toInt < 0 → (adjustSample sample).toInt ≤ 0) : Adjustable sample := by
  have range := fits_toInt sample
  unfold Fits at range
  by_cases above : 0 < sample.toInt
  · have kept := positive above
    rw [adjustSample, if_pos above, BitVec.toInt_ofInt, Int.bmod_def] at kept
    constructor <;> omega
  · constructor
    · by_cases below : sample.toInt < 0
      · have kept := negative below
        rw [adjustSample, if_neg above, BitVec.toInt_ofInt, Int.bmod_def] at kept
        omega
      · omega
    · omega

/-- Samples are stored in order exactly if all of them are adjustable. -/
theorem keepsOrder_iff {samples stored : Nat → BitVec 16}
    (adjusted : ∀ i < 512, stored i = adjustSample (samples i)) :
    KeepsOrder samples stored ↔ ∀ i < 512, Adjustable (samples i) := by
  constructor
  · intro keeps i inRange
    have positive := keeps.positive i inRange
    have negative := keeps.negative i inRange
    rw [adjusted i inRange] at positive negative
    exact adjustable_of_signs positive negative
  · intro adjustable
    have moved : ∀ i < 512, (stored i).toInt =
        if 0 < (samples i).toInt then (samples i).toInt + 1200 else (samples i).toInt - 1200 := by
      intro i inRange
      rw [adjusted i inRange, (adjustable i inRange).toInt]
    constructor
    · intro s sInRange t tInRange ordered
      rw [moved s sInRange, moved t tInRange]
      split <;> split <;> omega
    · intro s inRange positive
      rw [moved s inRange, if_pos positive]
      omega
    · intro s inRange negative
      rw [moved s inRange, if_neg (by omega)]
      omega

/-- The samples of a channel in the buffer of a refill, as they were read. -/
def channelSamples (header : FileHeader) (file : Fil) (stack : Nat → UInt8) (right : Bool) :
    Nat → BitVec 16 :=
  fun i => sample16 (refillBuffer header file stack) (i * 2 + right.toNat)

/-- A refill from a 16-bit stereo file keeps the order and the signs of the samples of
every half it is handed exactly if all of them are adjustable. -/
theorem stereo_order_kept_iff {header : FileHeader} (sixteen : header.bitsPerSample = 16)
    (stereo : header.numChannels = 2) (content : List UInt8) (position : Nat) (refill : Refill)
    (separate : refill.Separate) (rams : LookupRams) :
    let file : Fil := { valid := true, content, fptr := position }
    let stored := (ramUpdate refill.ramL refill.ramR header file refill.stack rams).2.2
    (∀ right half, refill.destination right = some half →
        KeepsOrder (channelSamples header file refill.stack right)
          (fun i => stored half.source (half.offset + i))) ↔
      ∀ right half, refill.destination right = some half → ∀ i < 512,
        Adjustable (channelSamples header file refill.stack right i) := by
  intro file stored
  have supported := bytesToRead_supported (.inr sixteen) (.inr stereo)
  have adjusted : ∀ right half, refill.destination right = some half → ∀ i < 512,
      stored half.source (half.offset + i) =
        adjustSample (channelSamples header file refill.stack right i) := by
    intro right half handed i inRange
    have update : stored =
        refill.store (bufferSample header (refillBuffer header file refill.stack)) rams := by
      simp only [stored]
      rw [ramUpdate_eq, if_neg supported]
    rw [update, Refill.store_channel separate handed _ _ inRange]
    simp [bufferSample, sixteen, stereo, channelSamples]
  constructor
  · intro keeps right half handed
    exact (keepsOrder_iff (adjusted right half handed)).mp (keeps right half handed)
  · intro adjustable right half handed
    exact (keepsOrder_iff (adjusted right half handed)).mpr (adjustable right half handed)

theorem stereo_order_kept_quiet :
    let file : Fil :=
      { valid := true, content := framesFile (stereoFields 16 4) [0, 0x10, 0, 0xF0], fptr := 44 }
    let header := plainLayout.header (stereoFields 16 4)
    let stored := (ramUpdate stereoRefill.ramL stereoRefill.ramR header file stereoRefill.stack
      fun _ _ => 0).2.2
    (∀ right half, stereoRefill.destination right = some half →
        KeepsOrder (channelSamples header file stereoRefill.stack right)
          (fun i => stored half.source (half.offset + i))) ↔
      ∀ right half, stereoRefill.destination right = some half → ∀ i < 512,
        Adjustable (channelSamples header file stereoRefill.stack right i) :=
  stereo_order_kept_iff rfl rfl _ 44 stereoRefill (by decide) _

/-- Full scale on the left: 32767 is stored as -31569. -/
theorem loud_sample_wraps :
    ¬ ∀ (header : FileHeader) (content : List UInt8) (position : Nat) (refill : Refill)
        (rams : LookupRams), header.bitsPerSample = 16 → header.numChannels = 2 →
        refill.Separate →
        let file : Fil := { valid := true, content, fptr := position }
        let stored := (ramUpdate refill.ramL refill.ramR header file refill.stack rams).2.2
        ∀ right half, refill.destination right = some half →
          KeepsOrder (channelSamples header file refill.stack right)
            (fun i => stored half.source (half.offset + i)) := by
  intro claimed
  have keeps := claimed (plainLayout.header (stereoFields 16 4))
    (framesFile (stereoFields 16 4) [0xFF, 0x7F, 0, 0]) 44 stereoRefill (fun _ _ => 0) rfl rfl
    (by decide) false { source := .dds0, upper := false } rfl
  have positive := keeps.positive 0 (by decide) (by decide +kernel)
  exact absurd positive (by decide +kernel)

end DDSFunctionGen.Player

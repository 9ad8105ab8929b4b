/-!
# The lookup RAMs shared by the firmware and the wave generators

Each of the two channels reads three RAMs of 1024 words: the main waveform and
the AM and FM modulation waveforms. The firmware refills them half by half.
-/

namespace DDSFunctionGen.Firmware

/-- `e_WaveType`. -/
inductive WaveType where
  | square | triangele | sawtooth | sine | arb | none
deriving DecidableEq, Repr

/-- The six wave generators, in the order of the lookup-RAM interrupt lines. -/
inductive Source where
  | dds0 | dds0AM | dds0FM | dds1 | dds1AM | dds1FM
deriving DecidableEq, Repr

/-- The RAM words `ram[offset .. offset + 512)` a refill is pointed at. -/
structure RamHalf where
  source : Source
  upper : Bool
deriving DecidableEq, Repr

/-- The first word of a half: `&ramLookup[0]` or `&ramLookup[512]`. -/
def RamHalf.offset (half : RamHalf) : Nat := if half.upper then 512 else 0

/-- Whether a RAM word belongs to a half. -/
def RamHalf.Covers (half : RamHalf) (source : Source) (index : Nat) : Prop :=
  source = half.source ∧ half.offset ≤ index ∧ index < half.offset + 512

instance (half : RamHalf) (source : Source) (index : Nat) :
    Decidable (half.Covers source index) :=
  inferInstanceAs (Decidable (_ ∧ _))

/-- A RAM word lies in one half. -/
theorem RamHalf.Covers.unique {half other : RamHalf} {source : Source} {index : Nat}
    (covered : half.Covers source index) (alsoCovered : other.Covers source index) :
    half = other := by
  obtain ⟨source, upper⟩ := half
  obtain ⟨otherSource, otherUpper⟩ := other
  obtain ⟨rfl, above, below⟩ := covered
  obtain ⟨rfl, otherAbove, otherBelow⟩ := alsoCovered
  simp only [RamHalf.offset] at above below otherAbove otherBelow
  cases upper with
  | false =>
      cases otherUpper with
      | false => rfl
      | true => exact absurd below (Nat.not_lt.mpr otherAbove)
  | true =>
      cases otherUpper with
      | false => exact absurd otherBelow (Nat.not_lt.mpr above)
      | true => rfl

/-- The contents of the six RAMs, as 16-bit words. -/
abbrev LookupRams := Source → Nat → BitVec 16

/-- The loop `for (i = 0; i < 512; i++) ram[i] = samples(i)`, skipped for a null
pointer. -/
def storeHalf (destination : Option RamHalf) (samples : Nat → BitVec 16) (rams : LookupRams) :
    LookupRams :=
  match destination with
  | none => rams
  | some half => fun source index =>
      if half.Covers source index then samples (index - half.offset) else rams source index

@[simp] theorem storeHalf_none (samples : Nat → BitVec 16) (rams : LookupRams) :
    storeHalf none samples rams = rams := rfl

theorem storeHalf_covered {half : RamHalf} {source : Source} {index : Nat}
    (covered : half.Covers source index) (samples : Nat → BitVec 16) (rams : LookupRams) :
    storeHalf (some half) samples rams source index = samples (index - half.offset) :=
  if_pos covered

theorem storeHalf_uncovered {half : RamHalf} {source : Source} {index : Nat}
    (uncovered : ¬ half.Covers source index) (samples : Nat → BitVec 16) (rams : LookupRams) :
    storeHalf (some half) samples rams source index = rams source index :=
  if_neg uncovered

/-- A word outside the destination is kept. -/
theorem storeHalf_missed {destination : Option RamHalf} {source : Source} {index : Nat}
    (missed : ∀ half ∈ destination, ¬ half.Covers source index) (samples : Nat → BitVec 16)
    (rams : LookupRams) : storeHalf destination samples rams source index = rams source index := by
  cases destination with
  | none => rfl
  | some half => exact storeHalf_uncovered (missed half rfl) samples rams

/-- Only the first 512 samples are stored. -/
theorem storeHalf_congr {first second : Nat → BitVec 16}
    (agree : ∀ i < 512, first i = second i) (destination : Option RamHalf) (rams : LookupRams) :
    storeHalf destination first rams = storeHalf destination second rams := by
  cases destination with
  | none => rfl
  | some half =>
      funext source index
      by_cases covered : half.Covers source index
      · have below : index - half.offset < 512 := by
          have := covered.2
          omega
        rw [storeHalf_covered covered, storeHalf_covered covered, agree _ below]
      · rw [storeHalf_uncovered covered, storeHalf_uncovered covered]

end DDSFunctionGen.Firmware

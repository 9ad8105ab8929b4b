import DDSFunctionGen.Arithmetic.SinglePrecision
import DDSFunctionGen.Firmware.SweepModulation
import DDSFunctionGen.Menu.Ranges

/-!
# The ranges of the converted settings

Four functions of `hardware.c` scale a setting and convert it to an unsigned
integer, which C leaves undefined outside the range of the type. C floats are
read as exact rationals; only the constants are rounded to `float`, which takes
the phase word `0xFFFFFFFF` to `2 ^ 32`.
-/

namespace DDSFunctionGen.Firmware

open DDSFunctionGen.Arithmetic DDSFunctionGen.Menu

/-- `(float)_DDS_PHASE_WORD_WHIDT` -/
def phaseWordWhidt : ℚ := single 0xFFFFFFFF

/-- `(float)_DDS_CLOCK_FREQ` -/
def clockFreq : ℚ := single 200000000

/-- `(float)_FIXED_POINT_CONSTANT` -/
def fixedPointScale : ℚ := single 32767

/-- The functions that scale and convert a setting. -/
inductive Conversion where
  | phaseStep
  | phaseOffset
  | amplitudeOffset
  | modIndex
deriving DecidableEq, Repr

namespace Conversion

/-- The number the function converts to an integer. -/
def number (conversion : Conversion) (editableValue : EditableValue ℚ) : ℚ :=
  match conversion with
  | .phaseStep => editableValue.floatValue * (phaseWordWhidt / clockFreq)
  | .phaseOffset => editableValue.floatValue / editableValue.maxValue * phaseWordWhidt
  | .amplitudeOffset => editableValue.floatValue * ((1023 - 2940) / 100) + 2940
  | .modIndex => editableValue.floatValue / editableValue.maxValue * fixedPointScale

/-- The width of the unsigned result. -/
def width : Conversion → ℕ
  | .phaseStep | .phaseOffset => 32
  | .amplitudeOffset | .modIndex => 16

/-- The result, where C defines it. -/
def result (conversion : Conversion) (editableValue : EditableValue ℚ) : Option ℕ :=
  let number := conversion.number editableValue
  if -1 < number ∧ number < 2 ^ conversion.width then some ⌊number⌋₊ else none

/-- The number lies in the range of the register and the port behind it. -/
def Fits (conversion : Conversion) (number : ℚ) : Prop :=
  match conversion with
  | .phaseStep => 0 ≤ number ∧ number < 2 ^ 31
  | .phaseOffset => 0 ≤ number ∧ number < 2 ^ 32
  | .amplitudeOffset => 0 ≤ number ∧ number ≤ 4095
  | .modIndex => 0 ≤ number ∧ number ≤ 32767

/-- In the order of the settings, which `ComputeAmplitudeOffset` reverses. -/
def Ordered {Number : Type} [LE Number] (conversion : Conversion) (low high : Number) : Prop :=
  match conversion with
  | .amplitudeOffset => high ≤ low
  | _ => low ≤ high

/-- A signed port takes the word: the deviation of the FM modulator, or a modulation
index. -/
def Signed : Conversion → Prop
  | .phaseStep | .modIndex => True
  | .phaseOffset | .amplitudeOffset => False

end Conversion

/-- The conversion that the register update applies to a field. -/
def conversionOf : DDSField → Option Conversion
  | .frequency | .amModulationFrequency | .fmModulationFrequency | .fmFrequencyDeviation
  | .pmModulationFrequency => some .phaseStep
  | .phaseOffset => some .phaseOffset
  | .dcOffset => some .amplitudeOffset
  | .amModulationIndex | .pmModulationIndex => some .modIndex
  | .amplitude => none

/-- A value that the user interface accepts for a field: between the bounds that the
field declares. -/
structure Accepted (field : DDSField) (setting : EditableValue ℚ) : Prop where
  inRange : setting.InRange
  bounds : setting.SameBounds (ddsDefaults.value field)

/-- What is expected of a conversion at a setting: the number is in range, so that the
result is defined and not negative on a signed port, and larger settings give numbers
and results in order. -/
structure Conversion.InOrder (conversion : Conversion) (field : DDSField)
    (setting : EditableValue ℚ) : Prop where
  fits : conversion.Fits (conversion.number setting)
  defined : ∃ word, conversion.result setting = some word ∧
    (conversion.Signed → 0 ≤ (BitVec.ofNat conversion.width word).toInt)
  number : ∀ larger, Accepted field larger → setting.floatValue ≤ larger.floatValue →
    conversion.Ordered (conversion.number setting) (conversion.number larger)
  result : ∀ larger, Accepted field larger → setting.floatValue ≤ larger.floatValue →
    ∀ word ∈ conversion.result setting, ∀ largerWord ∈ conversion.result larger,
      conversion.Ordered word largerWord

/-! ## The constants -/

theorem phaseWordWhidt_eq : phaseWordWhidt = 2 ^ 32 := by
  have places : Nat.log 2 4294967295 = 31 := by
    rw [Nat.log_eq_iff (by simp)]
    norm_num
  have rounded := @roundTo_natCast_eq 24 4294967295 16777216 8 (by rw [places]) (by norm_num [abs_lt])
  norm_num at rounded
  exact rounded

theorem clockFreq_eq : clockFreq = 200000000 := by
  have places : Nat.log 2 200000000 = 27 := by
    rw [Nat.log_eq_iff (by simp)]
    norm_num
  have rounded := @roundTo_natCast_eq 24 200000000 12500000 4 (by rw [places]) (by norm_num)
  norm_num at rounded
  exact rounded

theorem fixedPointScale_eq : fixedPointScale = 32767 := by
  have kept := @roundTo_natCast 24 32767 (by decide)
  exact_mod_cast kept

/-! ## The accepted settings -/

section Accepted

variable {field : DDSField} {conversion : Conversion} {setting : EditableValue ℚ}

/-- Whatever the menu writes, the variables of a channel hold accepted values. -/
theorem accepted_of_writes {before after : Globals ℚ}
    (writes : Relation.ReflTransGen Write before after) (valid : before.Valid)
    (channel : Channel) (field : DDSField) :
    Accepted field ((after.dds channel).value field) := by
  have kept := (writes_valid writes valid).dds channel
  exact ⟨kept.inRange field, kept.bounds field⟩

/-- The converted fields start at zero. -/
theorem Accepted.minValue_eq (accepted : Accepted field setting)
    (converts : conversionOf field = some conversion) : setting.minValue = 0 := by
  rw [accepted.bounds.minValue]
  cases field with
  | amplitude => cases converts
  | _ => rfl

theorem Accepted.maxValue_pos (accepted : Accepted field setting) : 0 < setting.maxValue := by
  rw [accepted.bounds.maxValue]
  cases field <;> decide +kernel

theorem Accepted.maxValue_phaseStep (accepted : Accepted field setting)
    (converts : conversionOf field = some .phaseStep) : setting.maxValue = 20000000 := by
  rw [accepted.bounds.maxValue]
  cases field <;> first | rfl | cases converts

theorem Accepted.maxValue_amplitudeOffset (accepted : Accepted field setting)
    (converts : conversionOf field = some .amplitudeOffset) : setting.maxValue = 100 := by
  rw [accepted.bounds.maxValue]
  cases field <;> first | rfl | cases converts

end Accepted

/-! ## The numbers -/

namespace Conversion

variable {field : DDSField} {conversion : Conversion} {setting larger : EditableValue ℚ}

/-- A setting that fits the range is converted. -/
theorem result_of_fits (fits : conversion.Fits (conversion.number setting)) :
    conversion.result setting = some ⌊conversion.number setting⌋₊ := by
  have within : -1 < conversion.number setting ∧
      conversion.number setting < 2 ^ conversion.width := by
    cases conversion with
    | phaseStep => exact ⟨by linarith [fits.1], lt_trans fits.2 (by norm_num [width])⟩
    | phaseOffset => exact ⟨by linarith [fits.1], fits.2⟩
    | amplitudeOffset => exact ⟨by linarith [fits.1], lt_of_le_of_lt fits.2 (by norm_num [width])⟩
    | modIndex => exact ⟨by linarith [fits.1], lt_of_le_of_lt fits.2 (by norm_num [width])⟩
  exact if_pos within

/-- The result is the number rounded towards zero. -/
theorem eq_floor_of_mem {word : ℕ} (member : word ∈ conversion.result setting) :
    word = ⌊conversion.number setting⌋₊ := by
  rw [Option.mem_def] at member
  simp only [result] at member
  split at member
  · exact (Option.some.inj member).symm
  · cases member

/-- What fits a signed port is not negative there. -/
theorem toInt_nonneg (fits : conversion.Fits (conversion.number setting))
    (signed : conversion.Signed) :
    0 ≤ (BitVec.ofNat conversion.width ⌊conversion.number setting⌋₊).toInt := by
  have small : 2 * ⌊conversion.number setting⌋₊ < 2 ^ conversion.width := by
    cases conversion with
    | phaseStep =>
        have floor := (Nat.floor_lt fits.1).mpr (show _ < ((2 ^ 31 : ℕ) : ℚ) by exact_mod_cast fits.2)
        simp only [width]
        omega
    | modIndex =>
        have floor := Nat.floor_le_of_le (show _ ≤ ((32767 : ℕ) : ℚ) by exact_mod_cast fits.2)
        simp only [width]
        omega
    | phaseOffset | amplitudeOffset => exact signed.elim
  rw [BitVec.toInt_eq_toNat_of_lt]
  · exact Int.natCast_nonneg _
  · rw [BitVec.toNat_ofNat, Nat.mod_eq_of_lt (by omega)]
    exact small

/-- Rounding down keeps the order. -/
theorem Ordered.floor {low high : ℚ} (ordered : conversion.Ordered low high) :
    conversion.Ordered ⌊low⌋₊ ⌊high⌋₊ := by
  cases conversion with
  | amplitudeOffset => exact Nat.floor_mono ordered
  | phaseStep | phaseOffset | modIndex => exact Nat.floor_mono ordered

/-- The numbers are in the order of the settings. -/
theorem number_ordered (accepted : Accepted field setting) (acceptedLarger : Accepted field larger)
    (le : setting.floatValue ≤ larger.floatValue) :
    conversion.Ordered (conversion.number setting) (conversion.number larger) := by
  have sameMax : larger.maxValue = setting.maxValue :=
    acceptedLarger.bounds.maxValue.trans accepted.bounds.maxValue.symm
  have positive := accepted.maxValue_pos
  cases conversion with
  | phaseStep =>
      simp only [Ordered, number, phaseWordWhidt_eq, clockFreq_eq]
      gcongr
  | phaseOffset =>
      simp only [Ordered, number, phaseWordWhidt_eq, sameMax]
      gcongr
  | amplitudeOffset =>
      simp only [Ordered, number]
      linarith
  | modIndex =>
      simp only [Ordered, number, fixedPointScale_eq, sameMax]
      gcongr

/-- A part of the maximum. -/
theorem quotient_mem (accepted : Accepted field setting)
    (converts : conversionOf field = some conversion) :
    0 ≤ setting.floatValue / setting.maxValue ∧ setting.floatValue / setting.maxValue ≤ 1 := by
  have nonneg : 0 ≤ setting.floatValue := by
    rw [← accepted.minValue_eq converts]
    exact accepted.inRange.1
  exact ⟨div_nonneg nonneg accepted.maxValue_pos.le,
    div_le_one_of_le₀ accepted.inRange.2 accepted.maxValue_pos.le⟩

/-- The phase word is reached at the maximum, and only there. -/
theorem phaseOffset_lt_iff (accepted : Accepted field setting) :
    Conversion.phaseOffset.number setting < 2 ^ 32 ↔ setting.floatValue < setting.maxValue := by
  rw [number, phaseWordWhidt_eq, mul_lt_iff_lt_one_left (by norm_num),
    div_lt_one accepted.maxValue_pos]

/-- The phase offset is the only field converted by `ComputePhaseOffset`. -/
theorem eq_phaseOffset_iff (converts : conversionOf field = some conversion) :
    field = .phaseOffset ↔ conversion = .phaseOffset := by
  constructor
  · rintro rfl
    exact (Option.some.inj converts).symm
  · rintro rfl
    cases field <;> first | rfl | cases converts

/-- Every number fits its range, a phase offset below its maximum. -/
theorem fits_iff (accepted : Accepted field setting)
    (converts : conversionOf field = some conversion) :
    conversion.Fits (conversion.number setting) ↔
      (field = .phaseOffset → setting.floatValue < setting.maxValue) := by
  have lower := accepted.inRange.1
  have upper := accepted.inRange.2
  rw [accepted.minValue_eq converts] at lower
  rw [eq_phaseOffset_iff converts]
  have quotient := quotient_mem accepted converts
  cases conversion with
  | phaseStep =>
      rw [accepted.maxValue_phaseStep converts] at upper
      simp only [Fits, number, phaseWordWhidt_eq, clockFreq_eq, reduceCtorEq, false_implies, iff_true]
      constructor <;> linarith
  | phaseOffset =>
      have nonneg : 0 ≤ Conversion.phaseOffset.number setting := by
        rw [number, phaseWordWhidt_eq]
        exact mul_nonneg quotient.1 (by norm_num)
      rw [Fits, phaseOffset_lt_iff accepted]
      simp [nonneg]
  | amplitudeOffset =>
      rw [accepted.maxValue_amplitudeOffset converts] at upper
      simp only [Fits, number, reduceCtorEq, false_implies, iff_true]
      constructor <;> linarith
  | modIndex =>
      simp only [Fits, number, fixedPointScale_eq, reduceCtorEq, false_implies, iff_true]
      constructor <;> linarith

/-- The phase step as the modulator's model computes it. -/
theorem result_phaseStep (accepted : Accepted field setting)
    (converts : conversionOf field = some .phaseStep) :
    Conversion.phaseStep.result setting =
      some (computePhaseStep (phaseWordWhidt / clockFreq) setting).toNat := by
  have fits : Conversion.phaseStep.Fits (Conversion.phaseStep.number setting) := by
    apply (fits_iff accepted converts).mpr
    rintro rfl
    cases converts
  have lower : 0 ≤ ⌊setting.floatValue * (phaseWordWhidt / clockFreq)⌋ :=
    Int.floor_nonneg.mpr fits.1
  have upper : ⌊setting.floatValue * (phaseWordWhidt / clockFreq)⌋ < 2 ^ 31 := by
    rw [Int.floor_lt]
    exact_mod_cast fits.2
  have truncated : CFloat.toInt (setting.floatValue * (phaseWordWhidt / clockFreq)) =
      ⌊setting.floatValue * (phaseWordWhidt / clockFreq)⌋ := toInt_eq_floor fits.1
  rw [result_of_fits fits, computePhaseStep, truncated, BitVec.toNat_ofInt,
    Int.emod_eq_of_lt lower (by omega), Int.floor_toNat]
  rfl

end Conversion

/-- Every accepted setting is converted in order, except the largest phase offset. -/
theorem conversion_inOrder_iff {field : DDSField} {conversion : Conversion}
    (converts : conversionOf field = some conversion) {setting : EditableValue ℚ}
    (accepted : Accepted field setting) :
    conversion.InOrder field setting ↔
      (field = .phaseOffset → setting.floatValue < setting.maxValue) := by
  rw [← Conversion.fits_iff accepted converts]
  constructor
  · rintro inOrder
    exact inOrder.fits
  · rintro fits
    refine ⟨fits, ⟨_, Conversion.result_of_fits fits, Conversion.toInt_nonneg fits⟩, ?_, ?_⟩
    · rintro larger acceptedLarger le
      exact Conversion.number_ordered accepted acceptedLarger le
    · rintro larger acceptedLarger le word member largerWord largerMember
      rw [Conversion.eq_floor_of_mem member, Conversion.eq_floor_of_mem largerMember]
      exact (Conversion.number_ordered accepted acceptedLarger le).floor

/-- The phase offset a turn above its default. -/
def fullTurn : EditableValue ℚ := addToEditableValue ddsDefaults.phaseOffset 360

theorem fullTurn_accepted : Accepted .phaseOffset fullTurn := by
  refine ⟨?_, ?_, ?_⟩
  · unfold EditableValue.InRange
    decide +kernel
  · decide +kernel
  · decide +kernel

/-- A tenth of a degree below the full turn, a phase offset is converted in order. -/
theorem conversion_inOrder_below_turn :
    Conversion.phaseOffset.InOrder .phaseOffset
      (addToEditableValue ddsDefaults.phaseOffset (3599 / 10)) := by
  have accepted : Accepted .phaseOffset
      (addToEditableValue ddsDefaults.phaseOffset (3599 / 10)) := by
    refine ⟨?_, ?_, ?_⟩
    · unfold EditableValue.InRange
      decide +kernel
    · decide +kernel
    · decide +kernel
  exact (conversion_inOrder_iff rfl accepted).mpr fun _ => by decide +kernel

/-- A full turn is accepted, and its number is one above the largest word. -/
theorem fullTurn_overflows :
    Accepted .phaseOffset fullTurn ∧ Conversion.phaseOffset.number fullTurn = 2 ^ 32 ∧
      Conversion.phaseOffset.result fullTurn = none ∧
      ¬Conversion.phaseOffset.Fits (Conversion.phaseOffset.number fullTurn) := by
  have whole : fullTurn.floatValue / fullTurn.maxValue = 1 := by decide +kernel
  have number : Conversion.phaseOffset.number fullTurn = 2 ^ 32 := by
    rw [Conversion.number, whole, one_mul, phaseWordWhidt_eq]
  have outside : ¬Conversion.phaseOffset.number fullTurn < 2 ^ 32 := by
    rw [number]
    exact lt_irrefl _
  refine ⟨fullTurn_accepted, number, if_neg ?_, ?_⟩
  · rintro within
    exact outside within.2
  · rintro fits
    exact outside fits.2

end DDSFunctionGen.Firmware

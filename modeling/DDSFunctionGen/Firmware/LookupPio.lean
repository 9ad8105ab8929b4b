import DDSFunctionGen.Firmware.LookupRamInterrupt
import Mathlib.Tactic.ByContra

/-!
# Edge capture of the lookup-RAM lines

The PIO of the six refill lines captures every change of a line until
`EDGE_CAP` is written, whatever the value. `ISR_lookupRam` reads the lines
first and writes `EDGE_CAP` last; the refills are in between, while the lines go
on changing.
-/

namespace DDSFunctionGen.Firmware

open DDSFunctionGen.Semantics

/-- The step of `ISR_lookupRam` that comes next. -/
inductive IsrPoint where
  | idle
  | refill (value : BitVec 8)
  | store (value : BitVec 8)
  | clear
deriving DecidableEq, Repr

/-- The PIO, and what the interrupt reads and has done. -/
structure LookupPio where
  line : Source → Bool := fun _ => false
  edgeCapture : BitVec 8 := 0
  irqMask : BitVec 8 := 0
  settings : LookupSettings
  previusValue : BitVec 8 := 0
  point : IsrPoint := .idle
  refills : List RefillCall := []

/-- A line changes, the interrupt is taken or goes on, or the main loop writes the
mask or the settings. -/
inductive PioEvent where
  | toggle (source : Source)
  | interrupt
  | advance
  | writeMask (irqMask : BitVec 8)
  | configure (settings : LookupSettings)
deriving DecidableEq, Repr

namespace LookupPio

/-- `irq` -/
def irq (pio : LookupPio) : Bool := pio.edgeCapture &&& pio.irqMask != 0

/-- The bit of a source in a register. -/
def bit (register : BitVec 8) (source : Source) : Bool := register &&& source.mask != 0

/-- The next statement of the interrupt. -/
def advance (pio : LookupPio) : LookupPio :=
  match pio.point with
  | .idle => pio
  | .refill value =>
      { pio with
        refills := pio.refills ++ isrLookupRam pio.settings pio.previusValue value
        point := .store value }
  | .store value => { pio with previusValue := value, point := .clear }
  | .clear => { pio with edgeCapture := 0, point := .idle }

/-- The interrupt is taken while it is pending, with the read of the lines. The main
loop does not run until it has returned. -/
def step (pio : LookupPio) : PioEvent → LookupPio
  | .toggle source =>
      { pio with
        line := fun other => if other = source then !pio.line source else pio.line other
        edgeCapture := pio.edgeCapture ||| source.mask }
  | .interrupt =>
      if pio.point = .idle ∧ pio.irq then { pio with point := .refill (pioData pio.line) } else pio
  | .advance => pio.advance
  | .writeMask irqMask => if pio.point = .idle then { pio with irqMask } else pio
  | .configure settings => if pio.point = .idle then { pio with settings } else pio

/-- The interrupt is pending, and refills what the source has left when it is taken
with the lines as they are. -/
structure RefillPending (pio : LookupPio) (source : Source) : Prop where
  captured : bit pio.edgeCapture source = true
  irq : pio.irq = true
  refills : pio.settings.playing source = true → pio.settings.pacedBy source = source →
    (handedHalves (isrLookupRam pio.settings pio.previusValue (pioData pio.line))).filter
      (fun half => half.source = source) = [{ source, upper := !pio.line source }]

/-- No event is lost: outside the interrupt, every unmasked line that differs from
`previusValue` is captured. -/
def KeepsEvents (pio : LookupPio) : Prop :=
  pio.point = .idle → ∀ source, bit pio.irqMask source = true →
    pio.line source ≠ bit pio.previusValue source → pio.RefillPending source

/-- An unmasked line is as the interrupt has read it when `EDGE_CAP` is written, and
a line that is unmasked has no change that was dropped while it was masked. -/
def ClearsRead (pio : LookupPio) : PioEvent → Prop
  | .advance => pio.point = .clear → ∀ source, bit pio.irqMask source = true →
      pio.line source = bit pio.previusValue source
  | .writeMask irqMask => pio.point = .idle → ∀ source, bit irqMask source = true →
      bit pio.irqMask source = false → pio.line source ≠ bit pio.previusValue source →
      bit pio.edgeCapture source = true
  | _ => True

/-! ## Registers -/

theorem bit_zero (source : Source) : bit 0 source = false := by
  show (0#8 &&& source.mask != 0#8) = false
  rw [BitVec.zero_and]
  rfl

/-- A bit that is set is the whole mask. -/
theorem and_mask_of_bit {register : BitVec 8} {source : Source}
    (isSet : bit register source = true) : register &&& source.mask = source.mask := by
  obtain zero | one := masked_eq_zero_or_mask source register
  · rw [bit, zero] at isSet
    exact absurd isSet (by decide)
  · exact one

theorem bit_or_mask_self (register : BitVec 8) (source : Source) :
    bit (register ||| source.mask) source = true := by
  rw [bit, BitVec.and_or_distrib_right, BitVec.and_self, bne_iff_ne]
  intro none
  exact source.mask_ne_zero (BitVec.or_eq_zero_iff.mp none).2

theorem bit_or_mask (register : BitVec 8) {source other : Source} (isSet : bit register other = true) :
    bit (register ||| source.mask) other = true := by
  rw [bit, BitVec.and_or_distrib_right, and_mask_of_bit isSet]
  cases source <;> cases other <;> rfl

theorem irq_of_bits {pio : LookupPio} {source : Source}
    (captured : bit pio.edgeCapture source = true) (unmasked : bit pio.irqMask source = true) :
    pio.irq = true := by
  rw [irq, bne_iff_ne]
  intro (none : pio.edgeCapture &&& pio.irqMask = 0#8)
  have masked : pio.edgeCapture &&& pio.irqMask &&& source.mask = source.mask := by
    rw [BitVec.and_assoc, and_mask_of_bit unmasked, and_mask_of_bit captured]
  rw [none, BitVec.zero_and] at masked
  exact source.mask_ne_zero masked.symm

/-! ## Events -/

variable {pio : LookupPio}

/-- A captured change of an unmasked line is going to be refilled. -/
theorem refillPending {source : Source} (captured : bit pio.edgeCapture source = true)
    (unmasked : bit pio.irqMask source = true)
    (changed : pio.line source ≠ bit pio.previusValue source) : pio.RefillPending source where
  captured := captured
  irq := irq_of_bits captured unmasked
  refills playing paced := by
    rw [handedHalves_pioData, paced, if_pos ⟨playing, changed⟩]

theorem KeepsEvents.toggle (keeps : KeepsEvents pio) (toggled : Source) :
    KeepsEvents (pio.step (.toggle toggled)) := by
  intro idle source unmasked changed
  apply refillPending ?_ unmasked changed
  by_cases same : source = toggled
  · rw [same]
    exact bit_or_mask_self pio.edgeCapture toggled
  · apply bit_or_mask
    refine (keeps idle source unmasked ?_).captured
    simpa only [step, if_neg same] using changed

/-- Writing `EDGE_CAP` keeps the events exactly if the lines are as they were read. -/
theorem keepsEvents_clear_iff (clearing : pio.point = .clear) :
    KeepsEvents (pio.step .advance) ↔ ClearsRead pio .advance := by
  have cleared : pio.step .advance = { pio with edgeCapture := 0, point := .idle } := by
    rw [step, advance, clearing]
  rw [cleared]
  constructor
  · intro keeps _ source unmasked
    by_contra changed
    have captured := (keeps rfl source unmasked changed).captured
    exact absurd ((bit_zero source).symm.trans captured) Bool.false_ne_true
  · intro read _ source unmasked changed
    exact absurd (read clearing source unmasked) changed

/-- A mask keeps the events exactly if no change of a line it uncovers was dropped. -/
theorem KeepsEvents.writeMask_iff (keeps : KeepsEvents pio) (irqMask : BitVec 8) :
    KeepsEvents (pio.step (.writeMask irqMask)) ↔ ClearsRead pio (.writeMask irqMask) := by
  rw [step]
  by_cases idle : pio.point = .idle
  · rw [if_pos idle]
    constructor
    · intro kept _ source unmasked _ changed
      exact (kept idle source unmasked changed).captured
    · intro captured _ source unmasked changed
      apply refillPending ?_ unmasked changed
      cases before : bit pio.irqMask source with
      | false => exact captured idle source unmasked before changed
      | true => exact (keeps idle source before changed).captured
  · rw [if_neg idle]
    exact iff_of_true keeps fun now => absurd now idle

/-- A step keeps the events exactly if it clears no change that was not read. -/
theorem KeepsEvents.step_iff (keeps : KeepsEvents pio) (event : PioEvent) :
    KeepsEvents (pio.step event) ↔ ClearsRead pio event := by
  cases event with
  | toggle source => exact iff_of_true (keeps.toggle source) trivial
  | interrupt =>
      refine iff_of_true ?_ trivial
      rw [step]
      split
      · exact fun idle => nomatch idle
      · exact keeps
  | writeMask irqMask => exact keeps.writeMask_iff irqMask
  | configure settings =>
      refine iff_of_true ?_ trivial
      rw [step]
      split
      · intro idle source unmasked changed
        exact refillPending (keeps idle source unmasked changed).captured unmasked changed
      · exact keeps
  | advance =>
      cases point : pio.point with
      | clear => exact keepsEvents_clear_iff point
      | idle =>
          refine iff_of_true ?_ fun clearing => ?_
          · rw [step, advance, point]
            exact keeps
          · rw [point] at clearing
            exact nomatch clearing
      | refill value | store value =>
          refine iff_of_true ?_ fun clearing => ?_
          · rw [step, advance, point]
            exact fun idle => nomatch idle
          · rw [point] at clearing
            exact nomatch clearing

/-- From power-up, no event is lost exactly in the runs in which every write of
`EDGE_CAP` finds the unmasked lines as the interrupt has read them, and no mask
uncovers a line with a dropped change. -/
theorem events_kept_iff (settings : LookupSettings) (events : List PioEvent) :
    Along step (fun pio event => KeepsEvents (pio.step event)) { settings } events ↔
      Along step ClearsRead { settings } events := by
  have initial : KeepsEvents { settings } := by
    intro _ source _ changed
    exact absurd (bit_zero source).symm changed
  exact along_iff_of_invariant (fun _ event keeps read => (keeps.step_iff event).mpr read)
    (fun _ event keeps => keeps.step_iff event) initial

/-- A line changes a second time while the interrupt refills after the first. -/
theorem change_during_refill_lost :
    ¬ ∀ (settings : LookupSettings) (events : List PioEvent),
      Along step (fun pio event => KeepsEvents (pio.step event)) { settings } events := by
  intro claimed
  let wave : ChannelSettings :=
    { waveType := .arb, amWaveType := .sine, fmWaveType := .sine, amModulationON := false
      fmModulationON := false }
  have kept := (claimed { dds0 := wave, dds1 := { wave with waveType := .sine } }
    ([.writeMask 0x01, .toggle .dds0, .interrupt, .advance, .toggle .dds0, .advance] ++
      [.advance])).last
  have captured := (kept (by decide) .dds0 (by decide) (by decide)).captured
  exact absurd captured (by decide)

end LookupPio
end DDSFunctionGen.Firmware

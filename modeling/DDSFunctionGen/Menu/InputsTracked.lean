import DDSFunctionGen.Menu.PendingInputs

/-!
# What the loop knows of its inputs

The volatile variables say which inputs are still to be handled, as long as every
clear comes before the next input and no handler is called with several buttons.
-/

namespace DDSFunctionGen.Menu

open DDSFunctionGen.SdCard DDSFunctionGen.Semantics

/-! ## Bits of a byte -/

@[simp] theorem pressed_or (first second : UInt8) (button : Button) :
    pressed (first ||| second) button = (pressed first button || pressed second button) := by
  rw [pressed, UInt8.toBitVec_or, BitVec.getLsbD_or]
  rfl

@[simp] theorem pressed_masked (value : UInt8) (button : Button) :
    pressed (value &&& btnDisplayMask) button = pressed value button := by
  have inMask : ∀ button : Button, btnDisplayMask.toBitVec.getLsbD button = true := by decide
  rw [pressed, UInt8.toBitVec_and, BitVec.getLsbD_and, inMask, Bool.and_true]
  rfl

@[simp] theorem pressed_zero (button : Button) : pressed 0 button = false := by
  rw [pressed, UInt8.toBitVec_zero, BitVec.getLsbD_zero]

theorem pressed_buttonCode : ∀ button : Button, pressed (buttonCode button) button = true := by
  decide

namespace MenuLoop

variable {F : Type}

/-- The count still pending: between a call and its clear, without what the handler
was called with. -/
def pendingCount (loop : MenuLoop F) : Int8 :=
  match loop.point with
  | .clearBtnEncoder delivered | .clearEncoder delivered => loop.pending.encoder - delivered
  | _ => loop.pending.encoder

/-- Nothing has been entered since the handler was called, and the handler of the
buttons was called with a single one. -/
def ClearsHandled (loop : MenuLoop F) : LoopEvent → Prop
  | .advance =>
      match loop.point with
      | .clearEncoder delivered => loop.pending.encoder = delivered
      | .clearDisplay delivered =>
          (∀ button, pressed delivered button = true → delivered = buttonCode button) ∧
            ∀ button, loop.record.since button = false
      | _ => True
  | _ => True

/-- What the record says of the variables. A handler that is called with several
buttons leaves them awaiting. -/
structure Tracked (loop : MenuLoop F) : Prop where
  rotations : loop.record.delivered + loop.pendingCount = loop.record.increments
  awaits : (∀ delivered, loop.point ≠ .clearDisplay delivered) → ∀ button,
    loop.record.awaiting button = pressed loop.pending.btnDisplay button
  handled : ∀ delivered, loop.point = .clearDisplay delivered → ∀ button,
    loop.record.awaiting button =
        (pressed delivered button && decide (delivered ≠ buttonCode button) ||
          loop.record.since button) ∧
      pressed loop.pending.btnDisplay button =
        (pressed delivered button || loop.record.since button)
  once : ∀ button, loop.record.executed button + (loop.record.awaiting button).toNat +
    loop.record.merged button = loop.record.presses button

variable {loop : MenuLoop F}

/-! ## The points of the loop -/

/-- A point at which no value is being handled. -/
def Unhandled : DrawPoint → Prop
  | .clearBtnEncoder _ | .clearEncoder _ | .clearDisplay _ => False
  | _ => True

theorem pendingCount_of_unhandled (plain : Unhandled loop.point) :
    loop.pendingCount = loop.pending.encoder := by
  rw [pendingCount]
  split
  · rename_i point
    rw [point] at plain
    exact plain.elim
  · rename_i point
    rw [point] at plain
    exact plain.elim
  · rfl

theorem not_clearDisplay_of_unhandled (plain : Unhandled loop.point) (delivered : UInt8) :
    loop.point ≠ .clearDisplay delivered := by
  intro clearing
  rw [clearing] at plain
  exact plain

theorem Tracked.of_unhandled (plain : Unhandled loop.point)
    (rotations : loop.record.delivered + loop.pending.encoder = loop.record.increments)
    (awaits : ∀ button, loop.record.awaiting button = pressed loop.pending.btnDisplay button)
    (once : ∀ button, loop.record.executed button + (loop.record.awaiting button).toNat +
      loop.record.merged button = loop.record.presses button) : Tracked loop where
  rotations := by
    rw [pendingCount_of_unhandled plain]
    exact rotations
  awaits _ := awaits
  handled delivered clearing := absurd clearing (not_clearDisplay_of_unhandled plain delivered)
  once := once

/-- The loop goes on where no variable is involved. -/
theorem Tracked.move (tracked : Tracked loop) (plain : Unhandled loop.point) {next : MenuLoop F}
    (plainNext : Unhandled next.point) (record : next.record = loop.record)
    (encoder : next.pending.encoder = loop.pending.encoder)
    (btnDisplay : next.pending.btnDisplay = loop.pending.btnDisplay) : Tracked next := by
  have rotations := tracked.rotations
  rw [pendingCount_of_unhandled plain] at rotations
  apply Tracked.of_unhandled plainNext
  · rw [record, encoder]
    exact rotations
  · rw [record, btnDisplay]
    exact tracked.awaits (not_clearDisplay_of_unhandled plain)
  · rw [record]
    exact tracked.once

theorem Tracked.branch (tracked : Tracked loop) (plain : Unhandled loop.point) (condition : Prop)
    [Decidable condition] {first second : DrawPoint} (plainFirst : Unhandled first)
    (plainSecond : Unhandled second) :
    Tracked { loop with point := if condition then first else second } := by
  have plainNext : Unhandled (if condition then first else second) := by
    split_ifs
    · exact plainFirst
    · exact plainSecond
  exact tracked.move plain plainNext rfl rfl rfl

/-- All that was handed to a handler is executed, and nothing has been entered since. -/
theorem Tracked.none_awaits_iff (tracked : Tracked loop) {delivered : UInt8}
    (clearing : loop.point = .clearDisplay delivered) :
    (∀ button, loop.record.awaiting button = false) ↔
      (∀ button, pressed delivered button = true → delivered = buttonCode button) ∧
        ∀ button, loop.record.since button = false := by
  rw [← forall_and]
  apply forall_congr'
  intro button
  rw [(tracked.handled delivered clearing button).1, Bool.or_eq_false_iff]
  apply and_congr_left
  intro _
  rw [Bool.and_eq_false_imp, decide_eq_false_iff_not, not_not]

/-! ## Interrupts and steps -/

variable [CFloat F]

theorem Tracked.isrBtnEncoder (tracked : Tracked loop) (card : Card) (data : UInt8) :
    Tracked (loop.step card (.isrBtnEncoder data)) where
  rotations := by
    have rotations := tracked.rotations
    have count : (loop.step card (.isrBtnEncoder data)).pendingCount =
        loop.pendingCount + rotation (~~~data) := by
      simp only [pendingCount, step, Pending.isrBtnEncoder]
      split
      · grind
      · grind
      · rfl
    rw [count]
    simp only [step, InputRecord.rotate]
    grind
  awaits := tracked.awaits
  handled := tracked.handled
  once := tracked.once

theorem Tracked.isrBtnDisplay (tracked : Tracked loop) (card : Card) (data : UInt8) :
    Tracked (loop.step card (.isrBtnDisplay data)) where
  rotations := tracked.rotations
  awaits elsewhere button := by
    simp only [step, InputRecord.press, Pending.isrBtnDisplay, pressed_or, pressed_masked,
      tracked.awaits elsewhere button]
  handled delivered clearing button := by
    obtain ⟨awaited, held⟩ := tracked.handled delivered clearing button
    simp only [step, InputRecord.press, Pending.isrBtnDisplay, pressed_or, pressed_masked,
      awaited, held, Bool.or_assoc, and_self]
  once button := by
    have once := tracked.once button
    simp only [step, InputRecord.press]
    cases pressed (~~~data) button with
    | false => simpa using once
    | true =>
        rw [Bool.or_true, Bool.true_and, ← once]
        cases loop.record.awaiting button with
        | false => exact Nat.add_right_comm _ _ _
        | true => rfl

/-- The handler of the display buttons is handed the buttons awaiting it. -/
theorem Tracked.callDisplay {menu : MenuState F} {pending : Pending} {record : InputRecord}
    (tracked : Tracked { menu, pending, point := .callDisplay, record }) (card : Card) :
    Tracked (MenuLoop.advance card { menu, pending, point := .callDisplay, record }) := by
  have rotations := tracked.rotations
  have awaits := tracked.awaits (by rintro _ ⟨⟩)
  exact
    { rotations
      awaits := fun elsewhere => absurd rfl (elsewhere pending.btnDisplay)
      handled := by
        rintro _ ⟨⟩ button
        simp only [MenuLoop.advance, InputRecord.execute, Bool.or_false, and_true]
        rw [← awaits button]
      once := fun button => by
        have once := tracked.once button
        simp only [MenuLoop.advance, InputRecord.execute]
        by_cases executed : pending.btnDisplay = buttonCode button
        · have awaited : record.awaiting button = true := by
            rw [awaits, executed]
            exact pressed_buttonCode button
          simp only [awaited] at once
          simpa [executed, awaited] using once
        · simpa [executed] using once }

theorem Tracked.advance (tracked : Tracked loop) (card : Card)
    (handled : ClearsHandled loop .advance) : Tracked (loop.advance card) := by
  obtain ⟨menu, pending, point, record⟩ := loop
  have rotations := tracked.rotations
  cases point with
  | testEncoder => exact tracked.branch trivial _ trivial trivial
  | callEncoder =>
      exact
        { rotations := by
            simp only [MenuLoop.advance, pendingCount, InputRecord.deliver] at rotations ⊢
            grind
          awaits := fun _ => tracked.awaits (by rintro _ ⟨⟩)
          handled := by rintro _ ⟨⟩
          once := tracked.once }
  | clearBtnEncoder delivered =>
      exact
        { rotations
          awaits := fun _ => tracked.awaits (by rintro _ ⟨⟩)
          handled := by rintro _ ⟨⟩
          once := tracked.once }
  | clearEncoder delivered =>
      have plain : Unhandled DrawPoint.testDisplay := trivial
      apply Tracked.of_unhandled plain
      · simp only [MenuLoop.advance, pendingCount, ClearsHandled] at rotations handled ⊢
        grind
      · exact tracked.awaits (by rintro _ ⟨⟩)
      · exact tracked.once
  | testDisplay => exact tracked.branch trivial _ trivial trivial
  | callDisplay => exact tracked.callDisplay card
  | clearDisplay delivered =>
      have plain : Unhandled DrawPoint.testKeypad := trivial
      have none := (tracked.none_awaits_iff rfl).mpr handled
      apply Tracked.of_unhandled plain
      · exact rotations
      · intro button
        exact (none button).trans (pressed_zero button).symm
      · exact tracked.once
  | testKeypad => exact tracked.branch trivial _ trivial trivial
  | callKeypad => exact tracked.move trivial trivial rfl rfl rfl
  | clearKeypad => exact tracked.move trivial trivial rfl rfl rfl
  | testRedraw => exact tracked.move trivial trivial rfl rfl rfl

theorem Tracked.step (tracked : Tracked loop) (card : Card) (event : LoopEvent)
    (handled : ClearsHandled loop event) : Tracked (loop.step card event) := by
  cases event with
  | advance => exact tracked.advance card handled
  | isrBtnEncoder data => exact tracked.isrBtnEncoder card data
  | isrBtnDisplay data => exact tracked.isrBtnDisplay card data
  | isrKeypad data =>
      by_cases key : data ≠ 0xFF
      · simp only [MenuLoop.step, Pending.isrKeypad, if_pos key]
        exact ⟨tracked.rotations, tracked.awaits, tracked.handled, tracked.once⟩
      · simp only [MenuLoop.step, Pending.isrKeypad, if_neg key]
        exact tracked
  | isrBtnEnable data =>
      exact ⟨tracked.rotations, tracked.awaits, tracked.handled, tracked.once⟩

end MenuLoop
end DDSFunctionGen.Menu

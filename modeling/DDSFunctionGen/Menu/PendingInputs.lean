import DDSFunctionGen.Menu.Draw

/-!
# Inputs between the interrupts and the menu

The interrupts leave rotations, presses and keys in volatile variables.
`menu_draw` tests each variable, calls a handler with its value and clears it,
three steps that an interrupt can come between.
-/

namespace DDSFunctionGen.Menu

open DDSFunctionGen.SdCard DDSFunctionGen.Semantics

/-- The step of `menu_draw` that comes next. A clear keeps the argument that the
handler was called with, for comparison. -/
inductive DrawPoint where
  | testEncoder
  | callEncoder
  | clearBtnEncoder (delivered : Int8)
  | clearEncoder (delivered : Int8)
  | testDisplay
  | callDisplay
  | clearDisplay (delivered : UInt8)
  | testKeypad
  | callKeypad
  | clearKeypad
  | testRedraw
deriving DecidableEq, Repr

/-- The loop takes a step, or an interrupt runs with the data it reads from its port. -/
inductive LoopEvent where
  | advance
  | isrBtnEncoder (data : UInt8)
  | isrBtnDisplay (data : UInt8)
  | isrKeypad (data : UInt8)
  | isrBtnEnable (data : UInt8)
deriving DecidableEq, Repr

/-- `_BTN_DISPLAY`, `_BTN_ENCODER`, `_ENCODER_1` and `_ENCODER_0`. -/
def btnDisplayMask : UInt8 := 0b00111111
def btnEncoderMask : UInt8 := 0b00011001
def encoder1 : UInt8 := 0x02
def encoder0 : UInt8 := 0x04

/-- What `ISR_btnEncoder` adds to `encoder`. -/
def rotation (value : UInt8) : Int8 :=
  if value &&& encoder0 ≠ 0 then
    if value &&& encoder1 = 0 then -1 else 0
  else if value &&& encoder1 ≠ 0 then
    if value &&& encoder0 = 0 then 1 else 0
  else 0

namespace Pending

/-- `ISR_btnEncoder` -/
def isrBtnEncoder (pending : Pending) (data : UInt8) : Pending :=
  let value := ~~~data
  { pending with
    btnEncoder := pending.btnEncoder ||| (value &&& btnEncoderMask)
    encoder := pending.encoder + rotation value }

/-- `ISR_btnDisplay` -/
def isrBtnDisplay (pending : Pending) (data : UInt8) : Pending :=
  let value := ~~~data
  { pending with btnDisplay := pending.btnDisplay ||| (value &&& btnDisplayMask) }

/-- `ISR_Keypad` -/
def isrKeypad (pending : Pending) (data : UInt8) : Pending :=
  if data ≠ 0xFF then { pending with keypad := data } else pending

end Pending

/-- The display buttons, from the top. -/
abbrev Button := Fin 6

/-- `_BTN_DISPLAY_0` to `_BTN_DISPLAY_5`, the cases of every `btn_display`. -/
def buttonCode : Button → UInt8
  | 0 => btnDisplay0
  | 1 => btnDisplay1
  | 2 => btnDisplay2
  | 3 => btnDisplay3
  | 4 => btnDisplay4
  | 5 => btnDisplay5

/-- The bit of a button is set. -/
def pressed (byte : UInt8) (button : Button) : Bool := byte.toBitVec.getLsbD button

/-- What the interrupts have entered and what the handlers have done with it.
`awaiting` are the buttons whose press is not executed yet, `since` those pressed
since the last call of a `btn_display`. A press of a button that awaits its handler
sets no new bit, and is merged. -/
structure InputRecord where
  increments : Int8 := 0
  delivered : Int8 := 0
  presses : Button → Nat := fun _ => 0
  merged : Button → Nat := fun _ => 0
  executed : Button → Nat := fun _ => 0
  awaiting : Button → Bool := fun _ => false
  since : Button → Bool := fun _ => false

namespace InputRecord

/-- The encoder is turned. -/
def rotate (record : InputRecord) (value : UInt8) : InputRecord :=
  { record with increments := record.increments + rotation value }

/-- A handler is called with a count. -/
def deliver (record : InputRecord) (encoder : Int8) : InputRecord :=
  { record with delivered := record.delivered + encoder }

/-- Buttons are pushed. -/
def press (record : InputRecord) (value : UInt8) : InputRecord :=
  { record with
    presses := fun button => record.presses button + (pressed value button).toNat
    merged := fun button =>
      record.merged button + (pressed value button && record.awaiting button).toNat
    awaiting := fun button => record.awaiting button || pressed value button
    since := fun button => record.since button || pressed value button }

/-- A handler executes the button whose case the byte matches. -/
def execute (record : InputRecord) (btnDisplay : UInt8) : InputRecord :=
  { record with
    executed := fun button =>
      record.executed button + (decide (btnDisplay = buttonCode button)).toNat
    awaiting := fun button => record.awaiting button && decide (btnDisplay ≠ buttonCode button)
    since := fun _ => false }

end InputRecord

/-- The main loop in `menu_draw`, with the record of its inputs. -/
structure MenuLoop (F : Type) where
  menu : MenuState F
  pending : Pending
  point : DrawPoint
  record : InputRecord

namespace MenuLoop

variable {F : Type} [CFloat F]

/-- The program after `menu_init`. `keypad` is a key already. -/
def powerUp (rams : Firmware.LookupRams) : MenuLoop F where
  menu := .powerUp rams
  pending := { keypad := 0x00 }
  point := .testEncoder
  record := {}

/-- The next step of `menu_draw`. -/
def advance (card : Card) (loop : MenuLoop F) : MenuLoop F :=
  match loop.point with
  | .testEncoder =>
      { loop with
        point :=
          if loop.pending.btnEncoder ≠ 0 ∨ loop.pending.encoder ≠ 0 then .callEncoder
          else .testDisplay }
  | .callEncoder =>
      { loop with
        menu := loop.menu.step card (.encoder loop.pending.btnEncoder loop.pending.encoder)
        point := .clearBtnEncoder loop.pending.encoder
        record := loop.record.deliver loop.pending.encoder }
  | .clearBtnEncoder delivered =>
      { loop with
        pending := { loop.pending with btnEncoder := 0 }
        point := .clearEncoder delivered }
  | .clearEncoder _ =>
      { loop with pending := { loop.pending with encoder := 0 }, point := .testDisplay }
  | .testDisplay =>
      { loop with point := if loop.pending.btnDisplay ≠ 0 then .callDisplay else .testKeypad }
  | .callDisplay =>
      { loop with
        menu := loop.menu.step card (.display loop.pending.btnDisplay)
        point := .clearDisplay loop.pending.btnDisplay
        record := loop.record.execute loop.pending.btnDisplay }
  | .clearDisplay _ =>
      { loop with pending := { loop.pending with btnDisplay := 0 }, point := .testKeypad }
  | .testKeypad =>
      { loop with point := if loop.pending.keypad ≠ 0xFF then .callKeypad else .testRedraw }
  | .callKeypad =>
      { loop with
        menu := loop.menu.step card (.keypad loop.pending.keypad)
        point := .clearKeypad }
  | .clearKeypad =>
      { loop with pending := { loop.pending with keypad := 0xFF }, point := .testRedraw }
  | .testRedraw =>
      { loop with
        menu := if loop.menu.redrawScreen then loop.menu.redraw card else loop.menu
        point := .testEncoder }

/-- A step of the loop or an interrupt. -/
def step (card : Card) (loop : MenuLoop F) : LoopEvent → MenuLoop F
  | .advance => loop.advance card
  | .isrBtnEncoder data =>
      { loop with
        pending := loop.pending.isrBtnEncoder data
        record := loop.record.rotate (~~~data) }
  | .isrBtnDisplay data =>
      { loop with
        pending := loop.pending.isrBtnDisplay data
        record := loop.record.press (~~~data) }
  | .isrKeypad data => { loop with pending := loop.pending.isrKeypad data }
  | .isrBtnEnable data => { loop with menu := loop.menu.isrBtnEnable (~~~data) }

/-! ## An undisturbed call -/

/-- The loop gets from one state to another by its own steps. -/
def Advances (card : Card) (first second : MenuLoop F) : Prop :=
  ∃ count, run (step card) first (List.replicate count .advance) = second

variable {card : Card}

theorem Advances.refl (loop : MenuLoop F) : Advances card loop loop := ⟨0, rfl⟩

theorem Advances.step {first middle second : MenuLoop F} (next : first.advance card = middle)
    (rest : Advances card middle second) : Advances card first second := by
  obtain ⟨count, reached⟩ := rest
  rw [← next] at reached
  exact ⟨count + 1, reached⟩

theorem Advances.trans {first middle last : MenuLoop F} (before : Advances card first middle)
    (after : Advances card middle last) : Advances card first last := by
  obtain ⟨countBefore, rfl⟩ := before
  obtain ⟨countAfter, rfl⟩ := after
  exact ⟨countBefore + countAfter, by rw [List.replicate_add, run_append]⟩

variable (card) (menu : MenuState F) (pending : Pending) (record : InputRecord)

theorem encoder_advances :
    ∃ record', Advances card ⟨menu, pending, .testEncoder, record⟩
      ⟨if pending.btnEncoder ≠ 0 ∨ pending.encoder ≠ 0 then
          menu.step card (.encoder pending.btnEncoder pending.encoder)
        else menu,
        { pending with btnEncoder := 0, encoder := 0 }, .testDisplay, record'⟩ := by
  by_cases turned : pending.btnEncoder ≠ 0 ∨ pending.encoder ≠ 0
  · rw [if_pos turned]
    have tested : MenuLoop.advance card ⟨menu, pending, .testEncoder, record⟩ =
        ⟨menu, pending, .callEncoder, record⟩ := by
      rw [advance, if_pos turned]
    exact ⟨_, .step tested ⟨3, rfl⟩⟩
  · rw [if_neg turned]
    have tested : MenuLoop.advance card ⟨menu, pending, .testEncoder, record⟩ =
        ⟨menu, pending, .testDisplay, record⟩ := by
      rw [advance, if_neg turned]
    obtain ⟨noButton, noTurn⟩ := not_or.mp turned
    rw [← not_not.mp noButton, ← not_not.mp noTurn]
    exact ⟨record, .step tested (.refl _)⟩

theorem display_advances :
    ∃ record', Advances card ⟨menu, pending, .testDisplay, record⟩
      ⟨if pending.btnDisplay ≠ 0 then menu.step card (.display pending.btnDisplay) else menu,
        { pending with btnDisplay := 0 }, .testKeypad, record'⟩ := by
  by_cases pushed : pending.btnDisplay ≠ 0
  · rw [if_pos pushed]
    have tested : MenuLoop.advance card ⟨menu, pending, .testDisplay, record⟩ =
        ⟨menu, pending, .callDisplay, record⟩ := by
      rw [advance, if_pos pushed]
    exact ⟨_, .step tested ⟨2, rfl⟩⟩
  · rw [if_neg pushed]
    have tested : MenuLoop.advance card ⟨menu, pending, .testDisplay, record⟩ =
        ⟨menu, pending, .testKeypad, record⟩ := by
      rw [advance, if_neg pushed]
    rw [← not_not.mp pushed]
    exact ⟨record, .step tested (.refl _)⟩

theorem keypad_advances :
    ∃ record', Advances card ⟨menu, pending, .testKeypad, record⟩
      ⟨if pending.keypad ≠ 0xFF then menu.step card (.keypad pending.keypad) else menu,
        { pending with keypad := 0xFF }, .testRedraw, record'⟩ := by
  by_cases typed : pending.keypad ≠ 0xFF
  · rw [if_pos typed]
    have tested : MenuLoop.advance card ⟨menu, pending, .testKeypad, record⟩ =
        ⟨menu, pending, .callKeypad, record⟩ := by
      rw [advance, if_pos typed]
    exact ⟨_, .step tested ⟨2, rfl⟩⟩
  · rw [if_neg typed]
    have tested : MenuLoop.advance card ⟨menu, pending, .testKeypad, record⟩ =
        ⟨menu, pending, .testRedraw, record⟩ := by
      rw [advance, if_neg typed]
    rw [← not_not.mp typed]
    exact ⟨record, .step tested (.refl _)⟩

/-- Without an interrupt, the steps make up `menu_draw`. -/
theorem menuDraw_advances :
    ∃ record', Advances card ⟨menu, pending, .testEncoder, record⟩
      ⟨menu.menuDraw card pending, {}, .testEncoder, record'⟩ := by
  obtain ⟨turned, encoder⟩ := encoder_advances card menu pending record
  let afterEncoder : MenuState F :=
    if pending.btnEncoder ≠ 0 ∨ pending.encoder ≠ 0 then
      menu.step card (.encoder pending.btnEncoder pending.encoder)
    else menu
  obtain ⟨pushed, display⟩ :=
    display_advances card afterEncoder { pending with btnEncoder := 0, encoder := 0 } turned
  let afterDisplay : MenuState F :=
    if pending.btnDisplay ≠ 0 then afterEncoder.step card (.display pending.btnDisplay)
    else afterEncoder
  obtain ⟨typed, keypad⟩ :=
    keypad_advances card afterDisplay { keypad := pending.keypad } pushed
  exact ⟨typed, encoder.trans (display.trans (keypad.trans ⟨1, rfl⟩))⟩

end MenuLoop
end DDSFunctionGen.Menu

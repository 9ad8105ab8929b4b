import DDSFunctionGen.Menu.PageStack

/-!
# What becomes of an entry

A key starts an entry if the typing screen is not initialized, and types to it. Apart
from the keypad, the menu ends entries by resetting the screen, and never changes one.
-/

namespace DDSFunctionGen.Menu

/-- An entry is shown, and 0 as long as no digit was typed. -/
structure TypingScreen.Entry {F : Type} [CFloat F] (typed : Bool) (typingScreen : TypingScreen F) :
    Prop where
  shown : typingScreen.initialized = true → typingScreen.shown = true
  untyped : typingScreen.initialized = true → typed = false → typingScreen.buffer = CFloat.ofInt 0

namespace TypingScreen

variable {F : Type} [CFloat F] {typed : Bool} {typingScreen before after : TypingScreen F}

theorem Entry.of_ended (ended : typingScreen.initialized = false) : typingScreen.Entry typed := by
  constructor
  · exact fun initialized => nomatch ended.symm.trans initialized
  · exact fun initialized => nomatch ended.symm.trans initialized

theorem Entry.leaves (entry : before.Entry typed) (leaves : before.LeavesEntry after) :
    after.Entry typed := by
  constructor
  · intro initialized
    obtain ⟨initialized, shown, -⟩ := leaves initialized
    exact shown.trans (entry.shown initialized)
  · intro initialized untyped
    obtain ⟨initialized, -, buffer⟩ := leaves initialized
    exact buffer.trans (entry.untyped initialized untyped)

/-- After its first statement, a key finds an entry. -/
theorem Entry.startEntry (entry : typingScreen.Entry typed) (value : EditableValue F) :
    (typingScreen.startEntry value).initialized = true ∧
      (typingScreen.startEntry value).Entry typed := by
  unfold TypingScreen.startEntry
  split
  · rename_i initialized
    exact ⟨initialized, entry⟩
  · exact ⟨rfl, ⟨fun _ => rfl, fun _ _ => rfl⟩⟩

/-- The keys keep entries as they should be; digits make them typed. -/
theorem Entry.typeKey (entry : typingScreen.Entry typed) (value : EditableValue F)
    (keyPressed : UInt8) :
    (typingScreen.typeKey value keyPressed).1.Entry (typed || decide (keyPressed < 0x0A)) := by
  unfold TypingScreen.typeKey
  split
  · rename_i digit
    constructor
    · unfold typeDigit
      split
      · exact fun _ => rfl
      · exact fun _ => rfl
    · intro _ untyped
      simp [digit] at untyped
  · rename_i notDigit
    rw [decide_eq_false notDigit, Bool.or_false]
    split
    · exact entry.leaves fun initialized => ⟨initialized, rfl, rfl⟩
    split
    · refine entry.leaves ?_
      unfold confirm
      split
      · exact .of_ended rfl
      split
      · dsimp only
        split
        · exact .of_ended rfl
        · exact .of_ended rfl
      · exact .of_eq rfl
    split
    · exact entry.leaves fun initialized => ⟨initialized, rfl, rfl⟩
    · exact entry

/-- `#` on an entry that is 0 keeps the value exactly if the entry is marked invalid, out
of range or equal to the value. -/
theorem confirm_zero_iff (initialized : typingScreen.initialized = true)
    (shown : typingScreen.shown = true) (zero : typingScreen.buffer = CFloat.ofInt 0)
    (value : EditableValue F) :
    (typingScreen.confirm value).2.floatValue = value.floatValue ↔
      typingScreen.invalidValue = true ∨
        let finalValue := CFloat.ofInt 0 *
          multiplier value.availableMeasuringUnits typingScreen.measuringUnitIndex
        (value.minValue ≤ finalValue ∧ finalValue ≤ value.maxValue) →
          finalValue = value.floatValue := by
  unfold confirm
  by_cases invalid : typingScreen.invalidValue = true
  · simp [invalid]
  · rw [if_neg invalid, initialized, shown, zero]
    dsimp only
    rw [if_pos (by rfl)]
    by_cases inRange : value.minValue ≤ CFloat.ofInt 0 *
          multiplier value.availableMeasuringUnits typingScreen.measuringUnitIndex ∧
        CFloat.ofInt 0 * multiplier value.availableMeasuringUnits typingScreen.measuringUnitIndex ≤
          value.maxValue
    · rw [if_pos inRange]
      simp [invalid, inRange]
    · rw [if_neg inRange]
      simp only [true_iff]
      exact .inr fun within => absurd within inRange

end TypingScreen

/-! ## Events -/

namespace MenuState

variable {F : Type} [CFloat F]

theorem Changes.leavesEntry {menu after : MenuState F} (changes : menu.Changes after) :
    menu.typingScreen.LeavesEntry after.typingScreen := by
  induction changes with
  | refl => exact .of_eq rfl
  | tail _ change left =>
      cases change with
      | typing leaves => exact left.trans leaves
      | write | select | fill | point | other => exact left

theorem redraw_leavesEntry (card : SdCard.Card) (menu : MenuState F) :
    menu.typingScreen.LeavesEntry (menu.redraw card).typingScreen := by
  obtain ⟨before, changes, redraws⟩ := menu.redraw_changes card
  obtain ⟨globals, saved, sdPage, drawn⟩ := before.draw_eq card
  rw [redraws, drawn]
  exact changes.leavesEntry

/-- Nothing but the keypad changes an entry. -/
theorem step_leavesEntry (card : SdCard.Card) (menu : MenuState F) {event : MenuEvent}
    (noKey : ∀ keyPressed, event ≠ .keypad keyPressed) :
    menu.typingScreen.LeavesEntry (menu.step card event).typingScreen := by
  cases event with
  | keypad keyPressed => exact absurd rfl (noKey keyPressed)
  | redraw => exact menu.redraw_leavesEntry card
  | encoder | display | enable => exact Changes.leavesEntry (menu.step_changes card nofun nofun)

end MenuState
end DDSFunctionGen.Menu

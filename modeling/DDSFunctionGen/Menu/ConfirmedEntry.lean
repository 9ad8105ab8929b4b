import DDSFunctionGen.Menu.SdSelection
import DDSFunctionGen.Menu.TypedEntry

/-!
# Confirming without typing

`#` commits an entry only if it is initialized, but by then the first statement of
`menu_ProcessKeypadPress` has initialized one: with no digit typed, `#` commits 0.
-/

namespace DDSFunctionGen.Menu

open DDSFunctionGen.Semantics

/-- The menu, and whether a digit has been typed since its typing screen was last
initialized or reset. -/
structure EntrySession (F : Type) where
  menu : MenuState F
  typed : Bool := false

namespace MenuState

variable {F : Type}

/-- The value that the keypad types to. -/
def typedValue (menu : MenuState F) : Option ValueRef :=
  match menu.menuPage.page with
  | .main | .sweep | .amModulation | .fmModulation | .phaseOffset =>
      if menu.typingScreen.enabled then menu.target else none
  | .graphicMenu | .settings | .sd => none

/-- A digit reaches the typing screen. -/
def typesDigit (menu : MenuState F) : MenuEvent → Bool
  | .keypad keyPressed => menu.typedValue.isSome && decide (keyPressed < 0x0A)
  | _ => false

end MenuState

namespace EntrySession

variable {F : Type} [CFloat F]

/-- One event. -/
def step (card : SdCard.Card) (session : EntrySession F) (event : MenuEvent) : EntrySession F :=
  let menu := session.menu.step card event
  { menu
    typed := (session.typed || session.menu.typesDigit event) && menu.typingScreen.initialized }

/-- With no digit typed, `#` keeps the value of the typing screen. -/
def ConfirmsTyped (card : SdCard.Card) (session : EntrySession F) : MenuEvent → Prop
  | .keypad keyPressed => keyPressed = 0x10 → session.typed = false →
      ∀ ref, session.menu.target = some ref →
        ((session.menu.step card (.keypad keyPressed)).globals.value ref).floatValue =
          (session.menu.globals.value ref).floatValue
  | _ => True

/-- With no digit typed, `#` has nothing to commit: the typing screen takes no keys, it shows
an invalid value, 0 is not a valid value, or is the value already. -/
def NothingToConfirm (session : EntrySession F) : MenuEvent → Prop
  | .keypad keyPressed => keyPressed = 0x10 → session.typed = false →
      ∀ ref, session.menu.typedValue = some ref →
        let value := session.menu.globals.value ref
        let zero := CFloat.ofInt 0 * TypingScreen.multiplier value.availableMeasuringUnits
          session.menu.typingScreen.measuringUnitIndex
        (session.menu.typingScreen.initialized = true ∧
            session.menu.typingScreen.invalidValue = true) ∨
          (value.minValue ≤ zero ∧ zero ≤ value.maxValue → zero = value.floatValue)
  | _ => True

end EntrySession

namespace MenuState

variable {F : Type} [CFloat F]

/-- A page hands its keys to the typing screen, or has no use for them. -/
theorem btnKeypad_cases (menu : MenuState F) (keyPressed : UInt8) :
    menu.typedValue = (if menu.typingScreen.enabled then menu.target else none) ∧
        menu.btnKeypad keyPressed =
          { menu with toEditor := menu.toEditor.processKeypadPress keyPressed } ∨
      menu.typedValue = none ∧ menu.btnKeypad keyPressed = menu := by
  unfold typedValue btnKeypad
  cases menu.menuPage.page with
  | main | sweep | amModulation | fmModulation | phaseOffset => exact .inl ⟨rfl, rfl⟩
  | graphicMenu | settings | sd => exact .inr ⟨rfl, rfl⟩

/-- A key that reaches a value. -/
theorem btnKeypad_typed {menu : MenuState F} {ref : ValueRef} (typed : menu.typedValue = some ref)
    (keyPressed : UInt8) :
    let value := menu.globals.value ref
    let entry := (menu.typingScreen.startEntry value).typeKey value keyPressed
    (menu.btnKeypad keyPressed).globals = menu.globals.setValue ref entry.2 ∧
      (menu.btnKeypad keyPressed).typingScreen = entry.1.clampSelectedDigit entry.2 := by
  rcases menu.btnKeypad_cases keyPressed with ⟨target, pressed⟩ | ⟨untyped, -⟩
  · rw [typed] at target
    split at target
    · rename_i enabled
      rw [pressed, Editor.processKeypadPress, if_pos enabled, ← target]
      exact ⟨rfl, rfl⟩
    · cases target
  · rw [untyped] at typed
    cases typed

/-- Any other key. -/
theorem btnKeypad_untyped {menu : MenuState F} (untyped : menu.typedValue = none)
    (keyPressed : UInt8) :
    (menu.btnKeypad keyPressed).globals = menu.globals ∧
      (menu.btnKeypad keyPressed).typingScreen = menu.typingScreen := by
  rcases menu.btnKeypad_cases keyPressed with ⟨target, pressed⟩ | ⟨-, pressed⟩
  · rw [pressed, Editor.processKeypadPress]
    rw [untyped] at target
    split at target
    · rename_i enabled
      rw [if_pos enabled, ← target]
      exact ⟨rfl, rfl⟩
    · rename_i disabled
      rw [if_neg disabled]
      exact ⟨rfl, rfl⟩
  · rw [pressed]
    exact ⟨rfl, rfl⟩

theorem target_of_typedValue {menu : MenuState F} {ref : ValueRef}
    (typed : menu.typedValue = some ref) : menu.target = some ref := by
  rcases menu.btnKeypad_cases 0 with ⟨target, -⟩ | ⟨untyped, -⟩
  · rw [typed] at target
    split at target
    · exact target.symm
    · cases target
  · rw [untyped] at typed
    cases typed

end MenuState

namespace EntrySession

variable {F : Type} [CFloat F]

/-- The entry of a session is as its digits have made it. -/
def Sound (session : EntrySession F) : Prop := session.menu.typingScreen.Entry session.typed

/-- Every event keeps it so. -/
theorem Sound.step {session : EntrySession F} (sound : session.Sound) (card : SdCard.Card)
    (event : MenuEvent) : (session.step card event).Sound := by
  have kept : ∀ {screen : TypingScreen F},
      screen.Entry (session.typed || session.menu.typesDigit event) →
      screen.Entry ((session.typed || session.menu.typesDigit event) && screen.initialized) := by
    intro screen entry
    refine ⟨entry.shown, fun initialized untyped => entry.untyped initialized ?_⟩
    rwa [initialized, Bool.and_true] at untyped
  have left (leaves : session.menu.typingScreen.LeavesEntry
      (session.menu.step card event).typingScreen) (noDigit : session.menu.typesDigit event = false) :
      (session.step card event).Sound := by
    apply kept
    rw [noDigit, Bool.or_false]
    exact sound.leaves leaves
  cases event with
  | keypad keyPressed =>
      cases typed : session.menu.typedValue with
      | none =>
          obtain ⟨-, typingScreen⟩ := MenuState.btnKeypad_untyped typed keyPressed
          refine left (.of_eq typingScreen) ?_
          rw [MenuState.typesDigit, typed]
          rfl
      | some ref =>
          obtain ⟨-, typingScreen⟩ := MenuState.btnKeypad_typed typed keyPressed
          apply kept
          have same : (session.menu.step card (.keypad keyPressed)).typingScreen =
              (session.menu.btnKeypad keyPressed).typingScreen := rfl
          rw [MenuState.typesDigit, typed, Option.isSome_some, Bool.true_and, same, typingScreen]
          have started := (sound.startEntry (session.menu.globals.value ref)).2
          exact (started.typeKey (session.menu.globals.value ref) keyPressed).leaves
            fun initialized => ⟨initialized, rfl, rfl⟩
  | encoder | display | redraw | enable =>
      exact left (session.menu.step_leavesEntry card nofun) rfl

/-- `#` keeps the value without digits exactly if there is nothing to confirm. -/
theorem Sound.confirmsTyped_iff {session : EntrySession F} (sound : session.Sound)
    (card : SdCard.Card) (event : MenuEvent) :
    session.ConfirmsTyped card event ↔ session.NothingToConfirm event := by
  cases event with
  | encoder | display | redraw | enable => exact Iff.rfl
  | keypad keyPressed =>
      refine forall_congr' fun hash => forall_congr' fun untyped => ?_
      subst hash
      have sameGlobals : (session.menu.step card (.keypad 0x10)).globals =
          (session.menu.btnKeypad 0x10).globals := rfl
      rw [sameGlobals]
      cases typed : session.menu.typedValue with
      | none =>
          obtain ⟨globals, -⟩ := MenuState.btnKeypad_untyped typed 0x10
          refine iff_of_true (fun ref _ => by rw [globals]) nofun
      | some ref =>
          have target := MenuState.target_of_typedValue typed
          obtain ⟨globals, -⟩ := MenuState.btnKeypad_typed typed 0x10
          obtain ⟨initialized, entry⟩ := sound.startEntry (session.menu.globals.value ref)
          have confirmed := TypingScreen.confirm_zero_iff initialized (entry.shown initialized)
            (entry.untyped initialized untyped) (session.menu.globals.value ref)
          have marked : ((session.menu.typingScreen.startEntry
                (session.menu.globals.value ref)).invalidValue = true ↔
              session.menu.typingScreen.initialized = true ∧
                session.menu.typingScreen.invalidValue = true) ∧
              (session.menu.typingScreen.startEntry
                (session.menu.globals.value ref)).measuringUnitIndex =
              session.menu.typingScreen.measuringUnitIndex := by
            unfold TypingScreen.startEntry
            split
            · rename_i initialized
              simp [initialized]
            · rename_i uninitialized
              simp [uninitialized]
          rw [marked.1, marked.2] at confirmed
          rw [globals]
          simp only [target, Option.some.injEq, forall_eq', Globals.value_setValue]
          exact confirmed

/-- From any menu whose typing screen is not initialized, `#` changes a value only after a
digit exactly in the runs in which every other `#` has nothing to confirm. -/
theorem confirms_typed_iff (card : SdCard.Card) (menu : MenuState F)
    (fresh : menu.typingScreen.initialized = false) (events : List MenuEvent) :
    Along (step card) (ConfirmsTyped card) { menu } events ↔
      Along (step card) NothingToConfirm { menu } events := by
  refine along_iff_of_invariant (fun session event (sound : session.Sound) _ =>
    sound.step card event) (fun session event sound => sound.confirmsTyped_iff card event) ?_
  exact TypingScreen.Entry.of_ended fresh

theorem confirms_typed_powerUp :
    Along (step SdPage.songCard) (ConfirmsTyped SdPage.songCard)
        { menu := (MenuState.powerUp fun _ _ => 0 : MenuState ℚ) }
        [.redraw, .display btnDisplay3, .redraw, .keypad 5, .redraw, .keypad 0x10] ↔
      Along (step SdPage.songCard) NothingToConfirm
        { menu := (MenuState.powerUp fun _ _ => 0 : MenuState ℚ) }
        [.redraw, .display btnDisplay3, .redraw, .keypad 5, .redraw, .keypad 0x10] :=
  confirms_typed_iff SdPage.songCard (MenuState.powerUp fun _ _ => 0) rfl _

/-- FREQUENCY, 5, `#` and `#` once more: the frequency is 0. -/
theorem second_confirmation_commits_zero :
    ¬ ∀ (card : SdCard.Card) (menu : MenuState ℚ) (events : List MenuEvent),
        menu.typingScreen.initialized = false →
        Along (step card) (ConfirmsTyped card) { menu } events := by
  intro claimed
  have second := (claimed SdPage.songCard (MenuState.powerUp fun _ _ => 0)
    ([.redraw, .display btnDisplay3, .redraw, .keypad 5, .redraw, .keypad 0x10, .redraw] ++
      [.keypad 0x10]) rfl).last
  have kept := second rfl (by decide +kernel) (.dds 0 .frequency) (by decide +kernel)
  exact absurd kept (by decide +kernel)

end EntrySession
end DDSFunctionGen.Menu

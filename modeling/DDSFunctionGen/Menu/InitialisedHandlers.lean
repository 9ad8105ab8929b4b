import DDSFunctionGen.Menu.Initialisation
import DDSFunctionGen.Menu.SdSelection

/-!
# Handlers and `init`

A page that is entered is initialised by the redraw that ends the call of
`menu_draw`. Inputs pending in the same call behind the one that enters it reach
its handlers before.
-/

namespace DDSFunctionGen.Menu

open DDSFunctionGen.Semantics

namespace Opening

variable {F : Type} [CFloat F]

/-! ## One call -/

/-- The menu with the icon that a call turns to. -/
def turnedTo (menu : MenuState F) (pending : Pending) : MenuState F :=
  { menu with selectedIcon := menu.turnedIcon pending.encoder }

/-- The call hands nothing to a page that is not initialised, and nothing behind
an input that enters a page. -/
structure EntersLast (opening : Opening F) (pending : Pending) : Prop where
  initialized : opening.menu.menuPage.menuInitialized = false → MenuState.inputs pending = []
  encoder : opening.menu.entered (.encoder pending.btnEncoder pending.encoder) ≠ none →
    pending.btnDisplay = 0 ∧ pending.keypad = 0xFF
  display : (turnedTo opening.menu pending).entered (.display pending.btnDisplay) ≠ none →
    pending.keypad = 0xFF

/-- Between two calls, a page that is not initialised is about to be redrawn. -/
structure Settled (opening : Opening F) : Prop where
  sound : opening.Sound
  redraws : opening.menu.menuPage.menuInitialized = false → opening.menu.redrawScreen = true

theorem inputs_eq_nil_iff {pending : Pending} :
    MenuState.inputs pending = [] ↔
      ¬ (pending.btnEncoder ≠ 0 ∨ pending.encoder ≠ 0) ∧ pending.btnDisplay = 0 ∧
        pending.keypad = 0xFF := by
  simp only [MenuState.inputs, List.append_eq_nil_iff, ite_eq_right_iff, and_assoc,
    List.cons_ne_nil, imp_false, not_not]

theorem mem_inputs {pending : Pending} {event : MenuEvent}
    (member : event ∈ MenuState.inputs pending) :
    event = .encoder pending.btnEncoder pending.encoder ∨ event = .display pending.btnDisplay ∨
      event = .keypad pending.keypad := by
  simp only [MenuState.inputs, List.mem_append, List.mem_ite_nil_right, List.mem_singleton] at member
  rcases member with (⟨-, rfl⟩ | ⟨-, rfl⟩) | ⟨-, rfl⟩
  · exact .inl rfl
  · exact .inr (.inl rfl)
  · exact .inr (.inr rfl)

/-- A handled input asks for a redraw. -/
theorem redrawScreen_after_inputs (card : SdCard.Card) (opening : Opening F) {pending : Pending}
    (some : MenuState.inputs pending ≠ []) :
    (run (step card) opening (MenuState.inputs pending)).menu.redrawScreen = true := by
  obtain ⟨before, last, split⟩ := (List.eq_nil_or_concat _).resolve_left some
  have member : last ∈ MenuState.inputs pending := by simp [split]
  rw [split, List.concat_eq_append, run_append, run_cons, run_nil, step_menu]
  rcases mem_inputs member with rfl | rfl | rfl
  all_goals rfl

omit [CFloat F] in
theorem not_entered_encoder {menu : MenuState F} {button : UInt8} {encoder : Int8}
    (still : ¬ (button ≠ 0 ∨ encoder ≠ 0)) : menu.entered (.encoder button encoder) = none := by
  have released : button = 0 := by
    by_contra pressed
    exact still (.inl pressed)
  rw [MenuState.entered, released, if_neg]
  rintro ⟨-, pushes⟩
  exact absurd pushes (by decide)

/-- After an encoder event that enters no page, the buttons see the icon it has
turned to. -/
theorem entered_display_after (card : SdCard.Card) {menu : MenuState F}
    (placed : menu.Placed) (pending : Pending)
    (stays : menu.entered (.encoder pending.btnEncoder pending.encoder) = none) :
    (menu.step card (.encoder pending.btnEncoder pending.encoder)).entered
        (.display pending.btnDisplay) =
      (turnedTo menu pending).entered (.display pending.btnDisplay) := by
  have place := MenuState.btnEncoder_place placed.callStack pending.btnEncoder pending.encoder
  rw [MenuState.moved, stays] at place
  have page : (menu.btnEncoder pending.btnEncoder pending.encoder).menuPage = menu.menuPage :=
    congrArg Prod.fst place
  simp only [MenuState.step, MenuState.entered, turnedTo, page]
  cases current : menu.menuPage.page with
  | graphicMenu =>
      have turned : (menu.btnEncoder pending.btnEncoder pending.encoder).selectedIcon =
          menu.turnedIcon pending.encoder := by
        rw [MenuState.btnEncoder, current]
        simp only [MenuState.graphicBtnEncoder_turned]
        split_ifs with pushes
        · simp only [MenuState.entered, current, pushes, and_self, if_true] at stays
          simp only [MenuState.openIcon, stays]
        · rfl
      simp only [turned]
  | main | settings | phaseOffset | sweep | amModulation | fmModulation | sd => rfl

omit [CFloat F] in
theorem not_entered_display {menu : MenuState F} {button : UInt8} (released : button = 0) :
    menu.entered (.display button) = none := by
  rw [MenuState.entered, released]
  cases menu.menuPage.page with
  | main => rfl
  | graphicMenu => rfl
  | settings | phaseOffset | sweep | amModulation | fmModulation | sd => rfl

/-- The opening after the encoder event of a call, if there is one. -/
def afterEncoder (card : SdCard.Card) (opening : Opening F) (pending : Pending) : Opening F :=
  if pending.btnEncoder ≠ 0 ∨ pending.encoder ≠ 0 then
    opening.step card (.encoder pending.btnEncoder pending.encoder)
  else opening

/-- What the buttons of a call find after its encoder event. -/
theorem Sound.afterEncoder (card : SdCard.Card) {opening : Opening F} (sound : opening.Sound)
    (initialized : opening.menu.menuPage.menuInitialized = true) (pending : Pending) :
    (opening.afterEncoder card pending).Sound ∧
      ((opening.afterEncoder card pending).menu.menuPage.menuInitialized = true ↔
        opening.menu.entered (.encoder pending.btnEncoder pending.encoder) = none) ∧
      (opening.menu.entered (.encoder pending.btnEncoder pending.encoder) = none →
        (opening.afterEncoder card pending).menu.entered (.display pending.btnDisplay) =
          (turnedTo opening.menu pending).entered (.display pending.btnDisplay)) := by
  have noRedraw : MenuEvent.encoder pending.btnEncoder pending.encoder ≠ .redraw := nofun
  rw [Opening.afterEncoder]
  split_ifs with used
  · refine ⟨sound.input card noRedraw initialized,
      sound.initialized_iff card noRedraw initialized, fun stays => ?_⟩
    rw [step_menu]
    exact entered_display_after card sound.placed pending stays
  · have still : pending.encoder = 0 := by
      by_contra turned
      exact used (.inr turned)
    refine ⟨sound, iff_of_true initialized (not_entered_encoder used), fun _ => ?_⟩
    rw [turnedTo, MenuState.turnedIcon, still, if_neg (not_not_intro rfl)]

/-- A page that is not initialised takes no input. -/
theorem initialized_along_of_fresh (card : SdCard.Card) {opening : Opening F}
    (fresh : opening.menu.menuPage.menuInitialized = false) (pending : Pending) :
    Along (step card) (fun opening _ => opening.menu.menuPage.menuInitialized = true) opening
        (MenuState.inputs pending) ↔
      opening.EntersLast pending := by
  constructor
  · intro ready
    have empty : MenuState.inputs pending = [] := by
      cases inputs : MenuState.inputs pending with
      | nil => rfl
      | cons event rest =>
          rw [inputs] at ready
          exact absurd (ready.1.symm.trans fresh) Bool.true_eq_false.mp
    obtain ⟨-, noDisplay, noKeypad⟩ := inputs_eq_nil_iff.mp empty
    exact ⟨fun _ => empty, fun _ => ⟨noDisplay, noKeypad⟩, fun _ => noKeypad⟩
  · intro last
    rw [last.initialized fresh]
    trivial

/-- The flag is set before each input of a call exactly if inputs that enter a
page come last. -/
theorem Sound.initialized_along_iff (card : SdCard.Card) {opening : Opening F}
    (sound : opening.Sound) (pending : Pending) :
    Along (Opening.step card) (fun opening _ => opening.menu.menuPage.menuInitialized = true)
        opening (MenuState.inputs pending) ↔
      opening.EntersLast pending := by
  have noRedraw : MenuEvent.display pending.btnDisplay ≠ .redraw := nofun
  cases initialized : opening.menu.menuPage.menuInitialized with
  | false => exact initialized_along_of_fresh card initialized pending
  | true =>
      obtain ⟨afterSound, stays, sees⟩ := sound.afterEncoder card initialized pending
      simp only [MenuState.inputs, along_append, run_append, along_optional, run_optional]
      rw [← Opening.afterEncoder]
      constructor
      · rintro ⟨⟨-, onDisplay⟩, onKeypad⟩
        refine ⟨fun fresh => absurd (initialized.symm.trans fresh) Bool.true_eq_false.mp, ?_, ?_⟩
        · intro enters
          have notReady := mt stays.mp enters
          have noDisplay : pending.btnDisplay = 0 := by
            by_contra pressed
            exact notReady (onDisplay pressed)
          rw [if_neg (not_not_intro noDisplay)] at onKeypad
          refine ⟨noDisplay, ?_⟩
          by_contra pressed
          exact notReady (onKeypad pressed)
        · intro enters
          have pressed : pending.btnDisplay ≠ 0 := fun released =>
            enters (not_entered_display released)
          have ready := onDisplay pressed
          rw [if_pos pressed, afterSound.initialized_iff card noRedraw ready,
            sees (stays.mp ready)] at onKeypad
          by_contra typed
          exact enters (onKeypad typed)
      · intro last
        have staysIf (more : ¬ (pending.btnDisplay = 0 ∧ pending.keypad = 0xFF)) :
            opening.menu.entered (.encoder pending.btnEncoder pending.encoder) = none := by
          by_contra enters
          exact more (last.encoder enters)
        refine ⟨⟨fun _ => initialized, fun pressed => ?_⟩, fun typed => ?_⟩
        · exact stays.mpr (staysIf fun none => pressed none.1)
        · have still := staysIf fun none => typed none.2
          split_ifs with pressed
          · rw [afterSound.initialized_iff card noRedraw (stays.mpr still), sees still]
            by_contra enters
            exact typed (last.display enters)
          · exact stays.mpr still

/-! ## Runs of `menu_draw` -/

/-- A call whose entering input comes last leaves a settled menu. -/
theorem Settled.call (card : SdCard.Card) {opening : Opening F} (settled : opening.Settled)
    {pending : Pending} (last : opening.EntersLast pending) :
    (opening.call card pending).Settled := by
  have handed : (run (Opening.step card) opening (MenuState.inputs pending)).Sound :=
    run_invariant (fun _ _ sound initialized => sound.step card initialized) settled.sound
      ((settled.sound.initialized_along_iff card pending).mpr last)
  simp only [Opening.call]
  split_ifs with redraws
  · refine ⟨handed.redraw card, fun fresh => ?_⟩
    have place := MenuState.redraw_place card
      (run (Opening.step card) opening (MenuState.inputs pending)).menu
    rw [step_menu] at fresh
    have set := congrArg (fun place => place.1.menuInitialized) place
    exact absurd (set.symm.trans fresh) Bool.true_eq_false.mp
  · refine ⟨handed, ?_⟩
    have empty : MenuState.inputs pending = [] := by
      by_contra some
      exact redraws (redrawScreen_after_inputs card opening some)
    rw [empty, run_nil]
    exact settled.redraws

end Opening
end DDSFunctionGen.Menu

import DDSFunctionGen.Menu.PageMoves
import DDSFunctionGen.Menu.PageStack

/-!
# RETURN

Each page on the stack is the page its successor was entered from, as it was
left. It stays there untouched until RETURN on that successor brings it back.
-/

namespace DDSFunctionGen.Menu

open DDSFunctionGen.Semantics

namespace MenuState

variable {F : Type}

/-- How deep a page lies. -/
def depth : Page → Nat
  | .main => 0
  | .graphicMenu => 1
  | .settings | .phaseOffset | .sweep | .amModulation | .fmModulation | .sd => 2

theorem length_pagesUnder (page : Page) : (pagesUnder page).length = depth page := by
  cases page <;> rfl

theorem depth_le_two (page : Page) : depth page ≤ 2 := by
  cases page <;> decide

/-- The stack holds the pages between the main page and the current one, and the
page points to it. -/
structure StackFits (menu : MenuState F) : Prop where
  callStack : menu.menuPage.menuPageCallStack = true
  pages : menu.pageStack.map MenuPage.page = pagesUnder menu.menuPage.page
  stackPointer : menu.pageStack.length = depth menu.menuPage.page
  bounded : menu.pageStack.length ≤ 2

theorem Placed.stackFits {menu : MenuState F} (placed : menu.Placed) : menu.StackFits := by
  have stackPointer : menu.pageStack.length = depth menu.menuPage.page := by
    rw [← length_pagesUnder, ← placed.stack, List.length_map]
  refine ⟨placed.callStack, placed.stack, stackPointer, ?_⟩
  rw [stackPointer]
  exact depth_le_two menu.menuPage.page

/-- The page a caller has left lies on the stack, over what lay there. -/
def LeftOnStack (caller menu : MenuState F) : Prop :=
  caller.menuPage :: caller.pageStack <:+ menu.pageStack

/-- A page entered from a caller, by an event that lengthens the stack, stays on
top of it while the stack is not shorter, and RETURN on it brings the caller back
as it was. -/
def ReturnsToCaller [CFloat F] (card : SdCard.Card) (caller entry : MenuState F) : Prop :=
  caller.pageStack.length < entry.pageStack.length →
    ∀ during : List MenuEvent,
      Along (step card)
        (fun menu event => entry.pageStack.length ≤ (menu.step card event).pageStack.length)
        entry during →
      let menu := run (step card) entry during
      caller.LeftOnStack menu ∧
        (menu.pageStack.length = entry.pageStack.length →
          menu.menuPage.page = entry.menuPage.page ∧
            (menu.step card (.display btnDisplay0)).place = caller.place)

/-! ## Steps -/

/-- The stack after an event: one page more, or a part of what it was. -/
theorem step_stack [CFloat F] (card : SdCard.Card) {menu : MenuState F}
    (callStack : menu.menuPage.menuPageCallStack = true) (event : MenuEvent) :
    (menu.step card event).pageStack = menu.menuPage :: menu.pageStack ∨
      (menu.step card event).pageStack <:+ menu.pageStack := by
  obtain ⟨-, ⟨-, pushed⟩ | ⟨top, popped, -⟩ | ⟨-, stays⟩⟩ := step_moves card callStack event
  · exact .inl pushed
  · rw [popped]
    exact .inr (List.suffix_cons top _)
  · rw [stays]
    exact .inr List.suffix_rfl

/-- What lies on the stack stays there as long as the stack is not shorter. -/
theorem step_leftOnStack [CFloat F] (card : SdCard.Card) {caller menu : MenuState F}
    (callStack : menu.menuPage.menuPageCallStack = true) {event : MenuEvent}
    (deep : caller.pageStack.length < (menu.step card event).pageStack.length)
    (left : caller.LeftOnStack menu) : caller.LeftOnStack (menu.step card event) := by
  rw [LeftOnStack] at left ⊢
  rcases step_stack card callStack event with pushed | shorter
  · rw [pushed]
    exact left.trans (List.suffix_cons _ _)
  · exact List.suffix_of_suffix_length_le left shorter deep

/-- The event that lengthens the stack leaves its caller on top. -/
theorem step_enters [CFloat F] (card : SdCard.Card) {caller : MenuState F}
    (callStack : caller.menuPage.menuPageCallStack = true) {event : MenuEvent}
    (longer : caller.pageStack.length < (caller.step card event).pageStack.length) :
    (caller.step card event).pageStack = caller.menuPage :: caller.pageStack := by
  rcases step_stack card callStack event with pushed | shorter
  · exact pushed
  · exact absurd shorter.length_le (Nat.not_le.mpr longer)

theorem step_return [CFloat F] (card : SdCard.Card) {menu : MenuState F} (placed : menu.Placed)
    {top : MenuPage} {rest : List MenuPage} (stack : menu.pageStack = top :: rest) :
    (menu.step card (.display btnDisplay0)).place =
      ({ top with menuPageCallStack := true }, rest) := by
  have under := placed.stack
  rw [stack] at under
  have entersNothing : menu.entered (.display btnDisplay0) = none := by
    rw [entered]
    cases menu.menuPage.page <;> rfl
  have returns : menu.leaves (.display btnDisplay0) = true := by
    cases page : menu.menuPage.page with
    | main =>
        rw [page] at under
        exact absurd under (List.cons_ne_nil _ _)
    | graphicMenu | settings | phaseOffset | sweep | amModulation | fmModulation | sd =>
        simp [leaves, page]
  rw [step_place card placed.callStack]
  simp only [moved, entersNothing, returns, if_true, popped, stack]

/-- The page changes only with the length of the stack. -/
theorem step_page_of_length [CFloat F] (card : SdCard.Card) {menu : MenuState F}
    (callStack : menu.menuPage.menuPageCallStack = true) {event : MenuEvent}
    (length : (menu.step card event).pageStack.length = menu.pageStack.length) :
    (menu.step card event).menuPage.page = menu.menuPage.page := by
  obtain ⟨-, ⟨-, pushed⟩ | ⟨top, popped, -⟩ | ⟨page, -⟩⟩ := step_moves card callStack event
  · rw [pushed] at length
    exact absurd length (Nat.succ_ne_self _)
  · rw [popped] at length
    exact absurd length.symm (Nat.succ_ne_self _)
  · exact page

/-! ## Runs -/

/-- While a page entered from a caller is open, or one above it. -/
structure Inside (caller entry menu : MenuState F) : Prop where
  placed : menu.Placed
  deep : entry.pageStack.length ≤ menu.pageStack.length
  left : caller.LeftOnStack menu
  page : entry.pageStack.length = 2 → menu.menuPage.page = entry.menuPage.page

theorem Inside.step [CFloat F] (card : SdCard.Card) {caller entry menu : MenuState F}
    (stack : entry.pageStack = caller.menuPage :: caller.pageStack)
    (inside : Inside caller entry menu) {event : MenuEvent}
    (deep : entry.pageStack.length ≤ (menu.step card event).pageStack.length) :
    Inside caller entry (menu.step card event) := by
  have placed := step_placed card inside.placed event
  refine ⟨placed, deep, ?_, fun two => ?_⟩
  · refine step_leftOnStack card inside.placed.callStack (Nat.lt_of_lt_of_le ?_ deep) inside.left
    rw [stack]
    exact Nat.lt_succ_self _
  · -- Nothing is pushed from here, so the length is two before and after.
    have before := inside.placed.stackFits.bounded
    have after := placed.stackFits.bounded
    have insideDeep := inside.deep
    rw [← inside.page two]
    exact step_page_of_length card inside.placed.callStack (by omega)

theorem depth_one {page : Page} (shallow : depth page = 1) : page = .graphicMenu := by
  cases page with
  | graphicMenu => rfl
  | main | settings | phaseOffset | sweep | amModulation | fmModulation | sd =>
      exact absurd shallow (by decide)

/-- A page over its caller returns to it. -/
theorem returnsToCaller_of_stack [CFloat F] (card : SdCard.Card) {caller entry : MenuState F}
    (pointer : caller.menuPage.menuPageCallStack = true) (placed : entry.Placed)
    (stack : entry.pageStack = caller.menuPage :: caller.pageStack) :
    caller.ReturnsToCaller card entry := by
  intro _ during within menu
  have entered : Inside caller entry entry := by
    have left : caller.LeftOnStack entry := ⟨[], stack.symm⟩
    exact ⟨placed, Nat.le_refl _, left, fun _ => rfl⟩
  have inside : Inside caller entry menu :=
    run_invariant (fun _ _ inside deep => inside.step card stack deep) entered within
  refine ⟨inside.left, fun level => ⟨?_, ?_⟩⟩
  · by_cases two : entry.pageStack.length = 2
    · exact inside.page two
    · have entryFits := placed.stackFits
      have one : depth entry.menuPage.page = 1 := by
        have bounded := entryFits.bounded
        rw [← entryFits.stackPointer]
        rw [stack, List.length_cons] at two bounded ⊢
        omega
      rw [depth_one one]
      refine depth_one ?_
      rw [← inside.placed.stackFits.stackPointer, level, entryFits.stackPointer, one]
  · have same : menu.pageStack = caller.menuPage :: caller.pageStack := by
      refine (inside.left.eq_of_length ?_).symm
      rw [level, stack]
    rw [step_return card inside.placed same, place, ← pointer]

/-- From power-up, the stack fits the page after any events, and RETURN brings
back the page that the current one was entered from. -/
theorem page_stack_returns [CFloat F] (card : SdCard.Card) (rams : Firmware.LookupRams)
    (events : List MenuEvent) :
    let menu := run (step card) (powerUp rams : MenuState F) events
    menu.StackFits ∧ ∀ event, menu.ReturnsToCaller card (menu.step card event) := by
  intro menu
  have preserved (menu : MenuState F) (event : MenuEvent) (placed : menu.Placed) (_ : True) :
      (menu.step card event).Placed := step_placed card placed event
  have placed : menu.Placed := run_invariant preserved (powerUp_placed rams) (along_true _ events)
  refine ⟨placed.stackFits, fun event longer => ?_⟩
  have stack := step_enters card placed.callStack longer
  exact returnsToCaller_of_stack card placed.callStack (step_placed card placed event) stack longer

end MenuState
end DDSFunctionGen.Menu

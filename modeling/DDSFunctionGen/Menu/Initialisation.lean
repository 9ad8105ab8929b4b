import DDSFunctionGen.Menu.PageMoves
import DDSFunctionGen.Menu.PagePointers
import DDSFunctionGen.Menu.PageStack
import Mathlib.Logic.Function.Basic

/-!
# Pages and their `init`

A page is entered with its flag unset, and the next redraw calls its `init`. The
flags, saved on the stack with their pages, tell which pages are initialised.
-/

namespace DDSFunctionGen.Menu

open DDSFunctionGen.Semantics

/-- The menu, with the pages whose `init` has run since they were last entered. -/
structure Opening (F : Type) where
  menu : MenuState F
  ready : Page → Bool

namespace Opening

variable {F : Type} [CFloat F]

/-- The main page is entered by `menu_init`. -/
def powerUp (rams : Firmware.LookupRams) : Opening F where
  menu := .powerUp rams
  ready _ := false

/-- One event. A longer stack shows that a page is entered, and a redraw of a page
whose flag is not set calls its `init`. -/
def step (card : SdCard.Card) (opening : Opening F) (event : MenuEvent) : Opening F :=
  let menu := opening.menu.step card event
  if event = .redraw then
    if opening.menu.menuPage.menuInitialized then { opening with menu }
    else { menu, ready := Function.update opening.ready opening.menu.menuPage.page true }
  else if opening.menu.pageStack.length < menu.pageStack.length then
    { menu, ready := Function.update opening.ready menu.menuPage.page false }
  else { opening with menu }

/-- One call of `menu_draw`. -/
def call (card : SdCard.Card) (opening : Opening F) (pending : Pending) : Opening F :=
  let handed := run (step card) opening (MenuState.inputs pending)
  if handed.menu.redrawScreen then handed.step card .redraw else handed

theorem step_menu (card : SdCard.Card) (opening : Opening F) (event : MenuEvent) :
    (opening.step card event).menu = opening.menu.step card event := by
  rw [step]
  split_ifs
  all_goals rfl

theorem run_menu (card : SdCard.Card) (opening : Opening F) (events : List MenuEvent) :
    (run (step card) opening events).menu = run (MenuState.step card) opening.menu events := by
  induction events generalizing opening with
  | nil => rfl
  | cons event rest inductionHypothesis =>
      rw [run_cons, run_cons, inductionHypothesis, step_menu]

/-- The calls are those of `menu_draw`. -/
theorem call_menu (card : SdCard.Card) (opening : Opening F) (pending : Pending) :
    (opening.call card pending).menu = opening.menu.menuDraw card pending := by
  rw [MenuState.menuDraw_eq_run, run_append, ← run_menu]
  simp only [call]
  split_ifs
  · exact step_menu card _ .redraw
  · rfl

/-! ## One event -/

/-- The flags of the pages tell which are initialised, those on the stack are, and
what `init` sets is set. -/
structure Sound (opening : Opening F) : Prop where
  placed : opening.menu.Placed
  current : opening.menu.menuPage.menuInitialized = opening.ready opening.menu.menuPage.page
  below : ∀ page ∈ opening.menu.pageStack,
    page.menuInitialized = true ∧ opening.ready page.page = true
  pointers : ∀ page, opening.ready page = true → opening.menu.PointersSet page

theorem powerUp_sound (rams : Firmware.LookupRams) : (powerUp rams : Opening F).Sound where
  placed := MenuState.powerUp_placed rams
  current := rfl
  below := nofun
  pointers := nofun

theorem not_mem_pagesUnder (page : Page) : page ∉ MenuState.pagesUnder page := by
  cases page <;> decide

/-- An input that enters a page: the page it is left from goes on the stack. -/
theorem Sound.enters (card : SdCard.Card) {opening : Opening F} (sound : opening.Sound)
    {event : MenuEvent} (noRedraw : event ≠ .redraw)
    (initialized : opening.menu.menuPage.menuInitialized = true) {page : Page}
    (menuPage : (opening.menu.step card event).menuPage =
      { page, menuInitialized := false, menuPageCallStack := true })
    (pageStack : (opening.menu.step card event).pageStack =
      opening.menu.menuPage :: opening.menu.pageStack) :
    (opening.step card event).Sound := by
  have placed := MenuState.step_placed card sound.placed event
  have keeps := opening.menu.step_keepsPointers card event
  have longer : opening.menu.pageStack.length <
      (opening.menu.step card event).pageStack.length := by
    rw [pageStack]
    exact Nat.lt_succ_self _
  have others (other : MenuPage) (member : other ∈ opening.menu.menuPage :: opening.menu.pageStack) :
      other.page ≠ page := by
    rintro rfl
    have under := placed.stack
    rw [menuPage, pageStack] at under
    exact not_mem_pagesUnder other.page (under ▸ List.mem_map_of_mem member)
  rw [step, if_neg noRedraw, if_pos longer]
  refine ⟨placed, ?_, ?_, ?_⟩
  · simp only [menuPage, Function.update_self]
  · simp only [menuPage, pageStack]
    intro other member
    rw [Function.update_of_ne (others other member)]
    rcases List.mem_cons.mp member with rfl | member
    · exact ⟨initialized, sound.current ▸ initialized⟩
    · exact sound.below other member
  · intro other ready
    refine keeps.pointersSet (sound.pointers other ?_)
    by_cases isPage : other = (opening.menu.step card event).menuPage.page
    · simp only [isPage, Function.update_self] at ready
      exact absurd ready Bool.false_ne_true
    · simpa only [Function.update_of_ne isPage] using ready

/-- An input that enters no page, and leaves a page and a stack whose flags are right. -/
theorem Sound.entersNothing (card : SdCard.Card) {opening : Opening F} (sound : opening.Sound)
    {event : MenuEvent} (noRedraw : event ≠ .redraw)
    (noLonger : (opening.menu.step card event).pageStack.length ≤ opening.menu.pageStack.length)
    (current : (opening.menu.step card event).menuPage.menuInitialized =
      opening.ready (opening.menu.step card event).menuPage.page)
    (below : ∀ page ∈ (opening.menu.step card event).pageStack,
      page.menuInitialized = true ∧ opening.ready page.page = true) :
    (opening.step card event).Sound := by
  have keeps := opening.menu.step_keepsPointers card event
  rw [step, if_neg noRedraw, if_neg (Nat.not_lt.mpr noLonger)]
  exact ⟨MenuState.step_placed card sound.placed event, current, below,
    fun page ready => keeps.pointersSet (sound.pointers page ready)⟩

/-- On an initialised page, every input keeps the flags right. -/
theorem Sound.input (card : SdCard.Card) {opening : Opening F} (sound : opening.Sound)
    {event : MenuEvent} (noRedraw : event ≠ .redraw)
    (initialized : opening.menu.menuPage.menuInitialized = true) :
    (opening.step card event).Sound := by
  rcases MenuState.step_cases card sound.placed.callStack noRedraw with
    ⟨page, -, menuPage, pageStack⟩ | ⟨-, ⟨top, rest, stack, menuPage, pageStack⟩ |
      ⟨menuPage, pageStack⟩⟩
  · exact sound.enters card noRedraw initialized menuPage pageStack
  · have onTop := sound.below top (stack ▸ List.mem_cons_self)
    refine sound.entersNothing card noRedraw ?_ ?_ ?_
    · rw [stack, pageStack]
      exact Nat.le_succ _
    · rw [menuPage, onTop.1, onTop.2]
    · intro other member
      rw [pageStack] at member
      exact sound.below other (stack ▸ List.mem_cons_of_mem top member)
  · refine sound.entersNothing card noRedraw ?_ ?_ ?_
    · rw [pageStack]
    · rw [menuPage]
      exact sound.current
    · rw [pageStack]
      exact sound.below

theorem Sound.redraw (card : SdCard.Card) {opening : Opening F} (sound : opening.Sound) :
    (opening.step card .redraw).Sound := by
  have placed := MenuState.step_placed card sound.placed .redraw
  have menuPage : (opening.menu.step card .redraw).menuPage =
      { opening.menu.menuPage with menuInitialized := true } :=
    congrArg Prod.fst (opening.menu.redraw_place card)
  have pageStack : (opening.menu.step card .redraw).pageStack = opening.menu.pageStack :=
    congrArg Prod.snd (opening.menu.redraw_place card)
  have keeps := opening.menu.redraw_keepsPointers card
  rw [step, if_pos rfl]
  split_ifs with initialized
  · rw [if_pos initialized] at keeps
    refine ⟨placed, ?_, ?_, fun page ready => keeps.pointersSet (sound.pointers page ready)⟩
    · simp only [menuPage]
      rw [← sound.current, initialized]
    · simp only [pageStack]
      exact sound.below
  · rw [if_neg initialized] at keeps
    refine ⟨placed, ?_, ?_, fun page ready => keeps.pointersSet ?_⟩
    · simp only [menuPage, Function.update_self]
    · simp only [pageStack]
      intro page member
      refine ⟨(sound.below page member).1, ?_⟩
      by_cases isCurrent : page.page = opening.menu.menuPage.page
      · rw [isCurrent, Function.update_self]
      · rw [Function.update_of_ne isCurrent]
        exact (sound.below page member).2
    · by_cases isCurrent : page = opening.menu.menuPage.page
      · rw [isCurrent]
        exact opening.menu.init_pointersSet
      · simp only [Function.update_of_ne isCurrent] at ready
        have kept := MenuState.KeepsPointers.of_changes opening.menu.init_changes
        exact kept.pointersSet (sound.pointers page ready)

/-- A redraw needs no flag, and any other event keeps the flags right where the
flag is set. -/
theorem Sound.step (card : SdCard.Card) {opening : Opening F} (sound : opening.Sound)
    {event : MenuEvent} (initialized : opening.menu.menuPage.menuInitialized = true) :
    (opening.step card event).Sound := by
  by_cases redraws : event = .redraw
  · rw [redraws]
    exact sound.redraw card
  · exact sound.input card redraws initialized

/-- The flag of the page is set after an input exactly if it enters no page. -/
theorem Sound.initialized_iff (card : SdCard.Card) {opening : Opening F} (sound : opening.Sound)
    {event : MenuEvent} (noRedraw : event ≠ .redraw)
    (initialized : opening.menu.menuPage.menuInitialized = true) :
    (opening.step card event).menu.menuPage.menuInitialized = true ↔
      opening.menu.entered event = none := by
  rw [step_menu]
  rcases MenuState.step_cases card sound.placed.callStack noRedraw with
    ⟨page, enters, menuPage, -⟩ | ⟨enters, ⟨top, rest, stack, menuPage, -⟩ | ⟨menuPage, -⟩⟩
  · rw [menuPage, enters]
    exact iff_of_false Bool.false_ne_true (Option.some_ne_none page)
  · rw [menuPage, enters]
    exact iff_of_true (sound.below top (stack ▸ List.mem_cons_self)).1 rfl
  · rw [menuPage, enters]
    exact iff_of_true initialized rfl

end Opening
end DDSFunctionGen.Menu

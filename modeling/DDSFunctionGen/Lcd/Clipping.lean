import DDSFunctionGen.Lcd.Rectangle

/-!
# How rectangles are clipped

The primitives do not clip, so a rectangle is clipped only as far as its two
clampings do. Column 128 is stored as column 0 eight rows further down, and a
row from 128 on behind the buffer. A point that such a store has coloured stays
coloured until the call returns.
-/

namespace DDSFunctionGen.Lcd

open DDSFunctionGen.Pictures DDSFunctionGen.Semantics

/-- A call of `GLCD_SolidRectangle` fills the part of its rectangle on the screen
and nothing else. -/
def FillsClipped (minX minY maxX maxY : Int) (s : Bool) : Prop :=
  screenView.Paints (Screen.solidRectangle minX minY maxX maxY s)
    {point | minX ≤ point.1 ∧ point.1 < min maxX 128 ∧
      minY ≤ point.2 ∧ point.2 < min maxY 128} (shade s)

/-- A call of `GLCD_Rectangle` stores inside the buffer and changes points of its
border only. -/
def DrawsInBorder (minX minY maxX maxY : Int) (s : Bool) : Prop :=
  ∀ screen : Screen, screen.faulted = false →
    (screen.rectangle minX minY maxX maxY s).faulted = false ∧
      ∀ point ∉ border minX minY maxX maxY,
        (point ∈ (screen.rectangle minX minY maxX maxY s).picture ↔ point ∈ screen.picture)

/-! ## Stores that go astray -/

/-- A store has missed the buffer, or the point is on the screen and coloured. -/
def Spoiled (s : Bool) (point : Int × Int) (screen : Screen) : Prop :=
  screen.Faulted ∨ point ∈ onScreen ∧ screen.bit point = s

variable {s : Bool} {point : Int × Int} {screen : Screen}

/-- Colouring a bit gives it the colour, and keeps the bits that have it. -/
theorem bitwise_colour (s : Bool) : ∃ combine, Bitwise (colour s) combine ∧
    (∀ bit, combine bit true = s) ∧ ∀ mask, combine s mask = s := by
  cases s with
  | true => exact ⟨_, bitwise_or, Bool.or_true, Bool.true_or⟩
  | false => exact ⟨_, bitwise_andNot, Bool.and_false, fun mask => Bool.false_and (!mask)⟩

/-- A pixel that has the colour keeps it, whichever pixel is coloured. -/
theorem bit_change_coloured (on : point ∈ onScreen) (coloured : screen.bit point = s) (x y : Int) :
    (screen.change (colour s) x y).bit point = s := by
  obtain ⟨combine, bitwise, -, keeps⟩ := bitwise_colour s
  simp only [onScreen, lcdWidth, lcdHeight, Set.mem_ofPred_eq] at on
  have inRange : (point.2 / 8 * 128 + point.1).toNat < 2048 := by omega
  have inByte : (point.2 % 8).toNat < 8 := by omega
  unfold Screen.change
  dsimp only
  split
  · rw [Screen.bit] at coloured ⊢
    rw [getElem?_store screen.scrbuf inRange]
    split
    · rename_i sameByte
      rw [bitwise.bits _ _ _ inByte, sameByte, coloured, keeps]
    · exact coloured
  · exact coloured

theorem Spoiled.change (spoiled : Spoiled s point screen) (x y : Int) :
    Spoiled s point (screen.change (colour s) x y) := by
  rcases spoiled with faulted | ⟨on, coloured⟩
  · exact .inl (faulted.change (colour s) x y)
  · exact .inr ⟨on, bit_change_coloured on coloured x y⟩

theorem Spoiled.hSpan (spoiled : Spoiled s point screen) (x0 x1 y : Int) :
    Spoiled s point (screen.hSpan s x0 x1 y) := by
  rw [hSpan_eq]
  exact countedLoop_keeps (fun x _ earlier => earlier.change x y) spoiled

theorem Spoiled.vSpan (spoiled : Spoiled s point screen) (x y0 y1 : Int) :
    Spoiled s point (screen.vSpan s x y0 y1) := by
  rw [vSpan_eq]
  exact countedLoop_keeps (fun y _ earlier => earlier.change x y) spoiled

/-- Column 128 is column 0 of the next page. -/
theorem change_aliased (operation : BitVec 8 → BitVec 8 → BitVec 8) {y : Int} (above : 0 ≤ y) :
    Screen.change operation 128 y = Screen.change operation 0 (y + 8) := by
  have sameByte : screenBufferByte 128 y = screenBufferByte 0 (y + 8) := by
    rw [screenBufferByte_eq above, screenBufferByte_eq (by omega)]
    omega
  have sameBit : screenBufferBit y = screenBufferBit (y + 8) := by
    rw [screenBufferBit_eq above, screenBufferBit_eq (by omega)]
    omega
  funext screen
  rw [Screen.change, Screen.change, sameByte, sameBit]

theorem change_spoils {y : Int} (above : 0 ≤ y) (s : Bool) (screen : Screen) :
    Spoiled s (0, y + 8) (screen.change (colour s) 128 y) := by
  rw [change_aliased (colour s) above]
  by_cases last : y + 8 < 128
  · have on : ((0, y + 8) : Int × Int) ∈ onScreen := by
      simp only [onScreen, lcdWidth, lcdHeight, Set.mem_ofPred_eq]
      omega
    obtain ⟨combine, bitwise, colours, -⟩ := bitwise_colour s
    refine .inr ⟨on, ?_⟩
    rw [(bit_change screen bitwise on on).2, if_pos rfl, colours]
  · exact .inl (change_below _ (Int.le_refl 0) (Int.not_lt.mp last) screen)

theorem hSpan_spoils {x0 x1 y : Int} (starts : x0 ≤ 128) (reaches : 128 < x1) (above : 0 ≤ y)
    (s : Bool) (screen : Screen) : Spoiled s (0, y + 8) (screen.hSpan s x0 x1 y) := by
  rw [hSpan_eq]
  refine countedLoop_marks starts reaches ?_ ?_ screen
  · exact change_spoils above s
  · exact fun x before earlier => earlier.change x y

theorem vSpan_spoils {y0 y1 : Int} (above : 0 ≤ y0) (nonempty : y0 < y1) (s : Bool)
    (screen : Screen) : Spoiled s (0, y0 + 8) (screen.vSpan s 128 y0 y1) := by
  rw [vSpan_eq]
  refine countedLoop_marks (Int.le_refl y0) nonempty ?_ ?_ screen
  · exact change_spoils above s
  · exact fun y before earlier => earlier.change 128 y

/-! ## Solid rectangles -/

variable {minX minY maxX maxY : Int}

theorem hSpan_empty {x0 x1 : Int} (met : x1 ≤ x0) (s : Bool) (y : Int) (screen : Screen) :
    screen.hSpan s x0 x1 y = screen := by
  rw [hSpan_eq, countedLoop_empty met]

theorem vSpan_empty {y0 y1 : Int} (met : y1 ≤ y0) (s : Bool) (x : Int) (screen : Screen) :
    screen.vSpan s x y0 y1 = screen := by
  rw [vSpan_eq, countedLoop_empty met]

/-- A rectangle without columns or without rows is left alone. -/
theorem solidRectangle_empty (empty : Screen.clampedX maxX maxY ≤ minX ∨ maxY ≤ minY) (s : Bool)
    (screen : Screen) : screen.solidRectangle minX minY maxX maxY s = screen := by
  simp only [Screen.solidRectangle]
  split
  · rcases empty with columns | rows
    · refine @countedLoop_keeps _ _ (· = screen) _ _ (fun y _ same => ?_) _ rfl
      exact (hSpan_empty columns s y _).trans same
    · exact countedLoop_empty rows screen
  · rcases empty with columns | rows
    · exact countedLoop_empty columns screen
    · refine @countedLoop_keeps _ _ (· = screen) _ _ (fun x _ same => ?_) _ rfl
      exact (vSpan_empty rows s x _).trans same

/-- The right edge is clamped as it should be above the lower edge of the screen. -/
theorem clampedX_of_above (bottom : maxY ≤ 128) : Screen.clampedX maxX maxY = min maxX 128 := by
  have inHeight : ¬ lcdHeight < maxY := Int.not_lt.mpr bottom
  simp only [Screen.clampedX, if_neg inHeight, lcdWidth]
  omega

theorem clampedX_of_below (reaches : 128 < maxY) : Screen.clampedX maxX maxY = 128 :=
  if_pos reaches

/-- A screen whose pixels all have one colour. -/
def plain (s : Bool) : Screen where
  scrbuf := Vector.replicate 2048 (if s then 0xFF else 0x00)

theorem bit_plain (on : point ∈ onScreen) : (plain s).bit point = s := by
  simp only [onScreen, lcdWidth, lcdHeight, Set.mem_ofPred_eq] at on
  have inRange : (point.2 / 8 * 128 + point.1).toNat < 2048 := by omega
  have inByte : (point.2 % 8).toNat < 8 := by omega
  have full : ∀ i < 8, (0xFF#8).getLsbD i = true := by decide
  rw [Screen.bit, plain]
  cases s with
  | true => simpa [inRange] using full _ inByte
  | false => simp [inRange]

/-- A filled rectangle is clipped exactly when it does not reach below the screen,
or is empty on it. -/
theorem fillsClipped_iff (left : 0 ≤ minX) (top : 0 ≤ minY) (height : minY ≤ maxY) (s : Bool) :
    FillsClipped minX minY maxX maxY s ↔ maxY ≤ 128 ∨ 128 ≤ minX ∨ minY = maxY := by
  constructor
  · intro fills
    by_contra outside
    simp only [not_or, Int.not_le] at outside
    obtain ⟨reaches, inside, nonempty⟩ := outside
    have rows : minY < maxY := Int.lt_iff_le_and_ne.mpr ⟨height, nonempty⟩
    have faulted := @solidRectangle_below minX minY maxX maxY left inside rows reaches s (plain s)
    exact absurd ((fills (plain s) rfl).1.symm.trans faulted) Bool.false_ne_true
  · intro condition
    by_cases bottom : maxY ≤ 128
    · have clamped : Screen.solidRectangle minX minY maxX maxY s =
          Screen.solidRectangle minX minY (min maxX 128) maxY s := by
        funext screen
        simp only [Screen.solidRectangle, clampedX_of_above bottom, min_assoc, min_self]
      rw [FillsClipped, clamped]
      refine (solidRectangle_paints left (min_le_right _ _) top bottom s).reshape fun point => ?_
      rw [min_eq_left bottom]
    · have reaches : 128 < maxY := Int.not_le.mp bottom
      have untouched : Screen.solidRectangle minX minY maxX maxY s = id := by
        funext screen
        apply solidRectangle_empty
        rw [clampedX_of_below reaches]
        omega
      rw [FillsClipped, untouched]
      refine View.Paints.nothing.reshape fun point => ?_
      simp only [Set.mem_empty_iff_false, false_iff, Set.mem_ofPred_eq]
      omega

/-! ## Borders -/

/-- A spoiled point off the border betrays the call on a plain screen. -/
theorem not_drawsInBorder (outside : point ∉ border minX minY maxX maxY)
    (spoiled : Spoiled s point ((plain !s).rectangle minX minY maxX maxY s)) :
    ¬ DrawsInBorder minX minY maxX maxY s := by
  intro draws
  obtain ⟨sound, kept⟩ := draws (plain !s) rfl
  rcases spoiled with faulted | ⟨on, coloured⟩
  · exact absurd (sound.symm.trans faulted) Bool.false_ne_true
  · have same := kept point outside
    simp only [Screen.picture, Set.mem_ofPred_eq, on, true_and, coloured, bit_plain on] at same
    cases s with
    | true => exact absurd (same.mp rfl) Bool.false_ne_true
    | false => exact absurd (same.mpr rfl) Bool.false_ne_true

theorem clampedX_of_beyond (beyond : 128 ≤ maxX ∨ 128 < maxY) :
    Screen.clampedX maxX maxY = 128 := by
  by_cases bottom : maxY ≤ 128
  · rw [clampedX_of_above bottom]
    omega
  · exact clampedX_of_below (Int.not_le.mp bottom)

/-- The lower line reaches column 128, or lies below the screen. -/
theorem lower_line_spoils (left : 0 ≤ minX) (width : minX ≤ maxX) (nonneg : 0 ≤ maxY)
    (starts : minX ≤ 128) (beyond : 128 ≤ maxX ∨ 128 ≤ maxY) (s : Bool) (screen : Screen) :
    Spoiled s (0, maxY + 8) (screen.rectangle minX minY maxX maxY s) := by
  have lower : ∀ before : Screen, Spoiled s (0, maxY + 8)
      (before.hSpan s minX (Screen.clampedX maxX maxY + 1) maxY) := by
    intro before
    by_cases edge : 128 ≤ maxX ∨ 128 < maxY
    · rw [clampedX_of_beyond edge]
      exact hSpan_spoils starts (by decide) nonneg s before
    · rw [clampedX_of_inside (by omega) (by omega)]
      exact .inl (hSpan_below left (by omega) (by omega) s before)
  exact ((lower _).vSpan _ _ _).vSpan _ _ _

/-- The right line is drawn in column 128. -/
theorem right_line_spoils (beyond : 128 ≤ maxX) (above : 0 ≤ minY) (rows : minY < maxY)
    (s : Bool) (screen : Screen) :
    Spoiled s (0, minY + 8) (screen.rectangle minX minY maxX maxY s) := by
  simp only [Screen.rectangle, clampedX_of_beyond (.inl beyond)]
  exact vSpan_spoils above rows s _

/-- To the right of column 128 a rectangle without height is not drawn at all. -/
theorem rectangle_beyond (beyond : 128 < minX) (width : minX ≤ maxX) (s : Bool)
    (screen : Screen) : screen.rectangle minX minY maxX minY s = screen := by
  have edge : Screen.clampedX maxX minY = 128 := clampedX_of_beyond (.inl (by omega))
  simp only [Screen.rectangle, edge, vSpan_empty (Int.le_refl minY)]
  rw [hSpan_empty (by omega), hSpan_empty (by omega)]

/-- The border is drawn as it should be exactly where its right and lower lines are
on the screen, or where nothing is drawn at all. -/
theorem drawsInBorder_iff (left : 0 ≤ minX) (width : minX ≤ maxX) (top : 0 ≤ minY)
    (height : minY ≤ maxY) (s : Bool) :
    DrawsInBorder minX minY maxX maxY s ↔
      maxX < 128 ∧ maxY < 128 ∨ 128 < minX ∧ minY = maxY := by
  constructor
  · intro draws
    by_contra outside
    by_cases starts : minX ≤ 128
    · have spoiled := @lower_line_spoils minX minY maxX maxY left width (by omega) starts
        (by omega) s (plain !s)
      refine not_drawsInBorder (fun member => ?_) spoiled draws
      have inside : maxY + 8 ≤ maxY := member.2.2.2.1
      omega
    · have spoiled := @right_line_spoils minX minY maxX maxY (by omega) top (by omega) s (plain !s)
      refine not_drawsInBorder (fun member => ?_) spoiled draws
      have inside : minX ≤ 0 := member.1
      omega
  · rintro (⟨right, bottom⟩ | ⟨beyond, rfl⟩) screen sound
    · obtain ⟨soundAfter, picture⟩ :=
        rectangle_paints left right top bottom width height s screen sound
      refine ⟨soundAfter, fun point off => ?_⟩
      have drawn := mem_ite (border minX minY maxX maxY) (shade s) (screenView.picture screen) point
      rw [← picture] at drawn
      refine drawn.trans ?_
      simp only [off, false_and, false_or, not_false_eq_true, true_and]
      exact Iff.rfl
    · rw [rectangle_beyond beyond width]
      exact ⟨sound, fun _ _ => Iff.rfl⟩

/-- Exactly when solid rectangles and borders are clipped to the screen. -/
theorem rectangles_clipped_iff (left : 0 ≤ minX) (width : minX ≤ maxX) (top : 0 ≤ minY)
    (height : minY ≤ maxY) (s : Bool) :
    (FillsClipped minX minY maxX maxY s ↔ maxY ≤ 128 ∨ 128 ≤ minX ∨ minY = maxY) ∧
      (DrawsInBorder minX minY maxX maxY s ↔
        maxX < 128 ∧ maxY < 128 ∨ 128 < minX ∧ minY = maxY) :=
  ⟨fillsClipped_iff left top height s, drawsInBorder_iff left width top height s⟩

/-- A solid rectangle over the right edge, and a border inside the screen. -/
theorem rectangles_clipped_right_edge :
    FillsClipped 100 10 200 50 true ∧ DrawsInBorder 10 20 30 40 false :=
  ⟨(@rectangles_clipped_iff 100 10 200 50 (by decide) (by decide) (by decide) (by decide)
      true).1.mpr (by decide),
    (@rectangles_clipped_iff 10 20 30 40 (by decide) (by decide) (by decide) (by decide)
      false).2.mpr (by decide)⟩

/-- A solid rectangle one row too high, and a border with its right line in column 128. -/
theorem rectangles_not_clipped :
    ¬ FillsClipped 0 0 10 129 true ∧ ¬ DrawsInBorder 0 0 128 10 true := by
  refine ⟨fun fills => ?_, not_drawsInBorder (fun member => absurd member.2.2.2.1 (by decide))
    (lower_line_spoils (by decide) (by decide) (by decide) (by decide) (by decide) true _)⟩
  exact absurd ((fillsClipped_iff (by decide) (by decide) (by decide) true).mp fills) (by decide)

end DDSFunctionGen.Lcd

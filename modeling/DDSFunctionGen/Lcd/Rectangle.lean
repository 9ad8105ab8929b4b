import DDSFunctionGen.Lcd.Picture

/-!
# Rectangles

`GLCD_SolidRectangle` fills row by row or column by column, whichever are fewer,
and `GLCD_Rectangle` draws four lines. Where the bottom edge is beyond the screen,
both store the clamped value in `maxX`.
-/

namespace DDSFunctionGen.Lcd

open DDSFunctionGen.Pictures DDSFunctionGen.Semantics

namespace Screen

/-- The value of `maxX` after the two clampings. -/
def clampedX (maxX maxY : Int) : Int :=
  if lcdHeight < maxY then lcdHeight else if lcdWidth < maxX then lcdWidth else maxX

/-- `GLCD_SHLine` or `GLCD_CHLine` -/
def hSpan (s : Bool) (x0 x1 y : Int) (screen : Screen) : Screen :=
  if s then screen.sHLine x0 x1 y else screen.cHLine x0 x1 y

/-- `GLCD_SVLine` or `GLCD_CVLine` -/
def vSpan (s : Bool) (x y0 y1 : Int) (screen : Screen) : Screen :=
  if s then screen.sVLine x y0 y1 else screen.cVLine x y0 y1

/-- `GLCD_SolidRectangle` -/
def solidRectangle (minX minY maxX maxY : Int) (s : Bool) (screen : Screen) : Screen :=
  let maxX := clampedX maxX maxY
  if maxY - minY < maxX - minX then
    countedLoop (fun lineY => hSpan s minX maxX lineY) minY maxY screen
  else countedLoop (fun columnX => vSpan s columnX minY maxY) minX maxX screen

/-- `GLCD_Rectangle` -/
def rectangle (minX minY maxX maxY : Int) (s : Bool) (screen : Screen) : Screen :=
  let maxX := clampedX maxX maxY
  vSpan s maxX minY maxY <| vSpan s minX minY maxY <| hSpan s minX (maxX + 1) maxY <|
    hSpan s minX maxX minY screen

end Screen

variable {minX minY maxX maxY : Int}

/-- What is done to the byte of a pixel that is set or cleared. -/
def colour (s : Bool) : BitVec 8 → BitVec 8 → BitVec 8 :=
  if s then (· ||| ·) else fun byte mask => byte &&& ~~~mask

theorem hSpan_eq (s : Bool) (x0 x1 y : Int) :
    Screen.hSpan s x0 x1 y = countedLoop (fun x => Screen.change (colour s) x y) x0 x1 := by
  cases s with
  | true => rfl
  | false => rfl

theorem vSpan_eq (s : Bool) (x y0 y1 : Int) :
    Screen.vSpan s x y0 y1 = countedLoop (fun y => Screen.change (colour s) x y) y0 y1 := by
  cases s with
  | true => rfl
  | false => rfl

theorem colour_paints (s : Bool) {x y : Int} (pixel : (x, y) ∈ onScreen) :
    screenView.Paints (Screen.change (colour s) x y) {(x, y)} (shade s) := by
  cases s with
  | true => exact sPixel_paints pixel
  | false => exact cPixel_paints pixel

theorem hSpan_paints {x0 x1 y : Int} (left : 0 ≤ x0) (right : x1 ≤ 128) (row : 0 ≤ y ∧ y < 128)
    (s : Bool) :
    screenView.Paints (Screen.hSpan s x0 x1 y)
      {point | x0 ≤ point.1 ∧ point.1 < x1 ∧ point.2 = y} (shade s) := by
  rw [hSpan_eq]
  exact hLoop_paints (fun _ _ => colour_paints s) left right row

theorem vSpan_paints {x y0 y1 : Int} (column : 0 ≤ x ∧ x < 128) (top : 0 ≤ y0) (bottom : y1 ≤ 128)
    (s : Bool) :
    screenView.Paints (Screen.vSpan s x y0 y1)
      {point | point.1 = x ∧ y0 ≤ point.2 ∧ point.2 < y1} (shade s) := by
  rw [vSpan_eq]
  exact vLoop_paints (fun _ _ => colour_paints s) column top bottom

theorem clampedX_of_inside (right : maxX ≤ 128) (bottom : maxY ≤ 128) :
    Screen.clampedX maxX maxY = maxX := by
  have inHeight : ¬ lcdHeight < maxY := Int.not_lt.mpr bottom
  have inWidth : ¬ lcdWidth < maxX := Int.not_lt.mpr right
  rw [Screen.clampedX, if_neg inHeight, if_neg inWidth]

/-- A rectangle on the screen is filled, in either order. -/
theorem solidRectangle_paints (left : 0 ≤ minX) (right : maxX ≤ 128) (top : 0 ≤ minY)
    (bottom : maxY ≤ 128) (s : Bool) :
    screenView.Paints (Screen.solidRectangle minX minY maxX maxY s)
      {point | minX ≤ point.1 ∧ point.1 < maxX ∧ minY ≤ point.2 ∧ point.2 < maxY} (shade s) := by
  intro screen
  simp only [Screen.solidRectangle, clampedX_of_inside right bottom]
  split
  · have rows := View.Paints.loop fun y (above : minY ≤ y) (below : y < maxY) =>
      hSpan_paints left right ⟨Int.le_trans top above, Int.lt_of_lt_of_le below bottom⟩ s
    refine rows.reshape (fun point => ?_) screen
    simp only [swept, Set.mem_ofPred_eq]
    constructor
    · rintro ⟨y, above, below, before, after, rfl⟩
      exact ⟨before, after, above, below⟩
    · rintro ⟨before, after, above, below⟩
      exact ⟨point.2, above, below, before, after, rfl⟩
  · have columns := View.Paints.loop fun x (before : minX ≤ x) (after : x < maxX) =>
      vSpan_paints ⟨Int.le_trans left before, Int.lt_of_lt_of_le after right⟩ top bottom s
    refine columns.reshape (fun point => ?_) screen
    simp only [swept, Set.mem_ofPred_eq]
    constructor
    · rintro ⟨x, before, after, rfl, above, below⟩
      exact ⟨before, after, above, below⟩
    · rintro ⟨before, after, above, below⟩
      exact ⟨point.1, before, after, rfl, above, below⟩

/-- The points of the border of a rectangle. -/
def border (minX minY maxX maxY : Int) : Set (Int × Int) :=
  {point | minX ≤ point.1 ∧ point.1 ≤ maxX ∧ minY ≤ point.2 ∧ point.2 ≤ maxY ∧
    (point.1 = minX ∨ point.1 = maxX ∨ point.2 = minY ∨ point.2 = maxY)}

/-- Four lines draw the border of a rectangle on the screen. -/
theorem rectangle_paints (left : 0 ≤ minX) (right : maxX < 128) (top : 0 ≤ minY)
    (bottom : maxY < 128) (width : minX ≤ maxX) (height : minY ≤ maxY) (s : Bool) :
    screenView.Paints (Screen.rectangle minX minY maxX maxY s) (border minX minY maxX maxY)
      (shade s) := by
  have upper := hSpan_paints left (Int.le_of_lt right) ⟨top, by omega⟩ s
  have lower := hSpan_paints left (Int.add_one_le_of_lt right) ⟨by omega, bottom⟩ s
  have first := vSpan_paints ⟨left, by omega⟩ top (Int.le_of_lt bottom) s
  have last := vSpan_paints ⟨by omega, right⟩ top (Int.le_of_lt bottom) s
  have lines := ((upper.andThen lower).andThen first).andThen last
  intro screen
  simp only [Screen.rectangle, clampedX_of_inside (Int.le_of_lt right) (Int.le_of_lt bottom)]
  refine lines.reshape (fun point => ?_) screen
  simp only [border, Set.mem_union, Set.mem_ofPred_eq]
  omega

/-! ## Below the screen -/

/-- A store has missed the buffer. -/
def Screen.Faulted (screen : Screen) : Prop := screen.faulted = true

theorem Screen.Faulted.change {screen : Screen} (faulted : screen.Faulted)
    (operation : BitVec 8 → BitVec 8 → BitVec 8) (x y : Int) :
    (screen.change operation x y).Faulted := by
  unfold Screen.change
  dsimp only
  split
  · exact faulted
  · rfl

/-- A pixel below the screen lies behind the buffer. -/
theorem change_below (operation : BitVec 8 → BitVec 8 → BitVec 8) {x y : Int} (left : 0 ≤ x)
    (below : 128 ≤ y) (screen : Screen) : (screen.change operation x y).Faulted := by
  have behind : ¬ (0 ≤ screenBufferBit y ∧ 0 ≤ screenBufferByte x y ∧
      screenBufferByte x y < 2048) := by
    rw [screenBufferByte_eq (by omega)]
    omega
  simp only [Screen.Faulted, Screen.change, if_neg behind]

theorem Screen.Faulted.hSpan {screen : Screen} (faulted : screen.Faulted) (s : Bool)
    (x0 x1 y : Int) : (screen.hSpan s x0 x1 y).Faulted := by
  rw [hSpan_eq]
  exact countedLoop_keeps (fun x _ earlier => earlier.change (colour s) x y) faulted

theorem Screen.Faulted.vSpan {screen : Screen} (faulted : screen.Faulted) (s : Bool)
    (x y0 y1 : Int) : (screen.vSpan s x y0 y1).Faulted := by
  rw [vSpan_eq]
  exact countedLoop_keeps (fun y _ earlier => earlier.change (colour s) x y) faulted

theorem hSpan_below {x0 x1 y : Int} (left : 0 ≤ x0) (nonempty : x0 < x1) (below : 128 ≤ y)
    (s : Bool) (screen : Screen) : (screen.hSpan s x0 x1 y).Faulted := by
  rw [hSpan_eq]
  refine countedLoop_marks (Int.le_refl x0) nonempty ?_ ?_ screen
  · exact fun before => change_below _ left below before
  · exact fun x before earlier => earlier.change _ x y

theorem vSpan_below {x y0 y1 : Int} (left : 0 ≤ x) (nonempty : y0 < y1) (below : 128 < y1)
    (s : Bool) (screen : Screen) : (screen.vSpan s x y0 y1).Faulted := by
  have last : y1 - 1 < y1 := by omega
  rw [vSpan_eq]
  refine countedLoop_marks (Int.le_sub_one_of_lt nonempty) last ?_ ?_ screen
  · exact fun before => change_below _ left (Int.le_sub_one_of_lt below) before
  · exact fun y before earlier => earlier.change _ x y

/-- A rectangle that reaches below the screen is widened to the screen's right edge and
stored behind the buffer. -/
theorem solidRectangle_below (left : 0 ≤ minX) (inside : minX < 128) (height : minY < maxY)
    (reaches : 128 < maxY) (s : Bool) (screen : Screen) :
    (screen.solidRectangle minX minY maxX maxY s).Faulted := by
  have widened : Screen.clampedX maxX maxY = 128 := if_pos reaches
  simp only [Screen.solidRectangle, widened]
  split
  · refine countedLoop_marks (Int.le_sub_one_of_lt height) (by omega) ?_ ?_ screen
    · exact fun before => hSpan_below left inside (Int.le_sub_one_of_lt reaches) s before
    · exact fun y before earlier => earlier.hSpan s minX 128 y
  · refine countedLoop_marks (Int.le_refl minX) inside ?_ ?_ screen
    · exact fun before => vSpan_below left height reaches s before
    · exact fun x before earlier => earlier.vSpan s x minY maxY

end DDSFunctionGen.Lcd

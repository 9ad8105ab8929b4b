import DDSFunctionGen.Lcd.Picture
import DDSFunctionGen.Menu.EditableValue
import DDSFunctionGen.Pictures.DigitalLine

/-!
# Lines

`GLCD_Line` orders its end points by their rows. A line that is neither level
nor upright is traced one pixel a column or one a row, whichever are more, its
other coordinate accumulated and rounded; the other two are left to
`GLCD_HLine` and `GLCD_VLine`, which stop before the end point. C floats are
read as exact rationals here.
-/

namespace DDSFunctionGen.Lcd

open DDSFunctionGen.Menu DDSFunctionGen.Pictures DDSFunctionGen.Semantics

/-- The points between which a line is drawn. -/
structure Ends where
  x1 : Int
  y1 : Int
  x2 : Int
  y2 : Int
deriving DecidableEq, Repr

namespace Ends

/-- Both coordinates exchanged through `tmp`. -/
def swap (ends : Ends) : Ends where
  x1 := ends.x2
  y1 := ends.y2
  x2 := ends.x1
  y2 := ends.y1

/-- The two exchanges `GLCD_Line` begins with. -/
def ordered (ends : Ends) : Ends :=
  let ends := if ends.x2 - ends.x1 < 0 then ends.swap else ends
  if ends.y2 - ends.y1 < 0 then ends.swap else ends

def first (ends : Ends) : Int × Int := (ends.x1, ends.y1)

def last (ends : Ends) : Int × Int := (ends.x2, ends.y2)

theorem ordered_eq_or (ends : Ends) : ends.ordered = ends ∨ ends.ordered = ends.swap := by
  unfold ordered
  dsimp only
  split
  · split
    · exact .inl rfl
    · exact .inr rfl
  · split
    · exact .inr rfl
    · exact .inl rfl

theorem ordered_rows (ends : Ends) : ends.ordered.y1 ≤ ends.ordered.y2 := by
  unfold ordered
  dsimp only
  split
  · split
    · rename_i below
      simp only [swap] at below ⊢
      omega
    · omega
  · split
    · simp only [swap]
      omega
    · omega

/-- Ends in different rows are brought into one order. -/
theorem ordered_swap {ends : Ends} (rows : ends.y1 ≠ ends.y2) :
    ends.swap.ordered = ends.ordered := by
  have above := ends.ordered_rows
  have above' := ends.swap.ordered_rows
  rcases ends.ordered_eq_or with same | same
  · rcases ends.swap.ordered_eq_or with other | other
    · rw [same] at above
      rw [other] at above'
      simp only [swap] at above'
      omega
    · rw [same, other]
      rfl
  · rcases ends.swap.ordered_eq_or with other | other
    · rw [same, other]
    · rw [same] at above
      rw [other] at above'
      simp only [swap] at above above'
      omega

end Ends

namespace Screen

/-- A pass over a column: `GLCD_Pixel(i, (int)(ty + 0.5), s)`, and `ty` moved on. -/
def columnPass (s : Bool) (change : ℚ) (i : Int) (traced : Screen × ℚ) : Screen × ℚ :=
  (traced.1.glcdPixel i (CFloat.toInt (traced.2 + 1 / 2)) s, traced.2 + change)

/-- A pass over a row: `GLCD_Pixel((int)(tx + 0.5), i, s)`, and `tx` moved on. -/
def rowPass (s : Bool) (change : ℚ) (i : Int) (traced : Screen × ℚ) : Screen × ℚ :=
  (traced.1.glcdPixel (CFloat.toInt (traced.2 + 1 / 2)) i s, traced.2 + change)

/-- `GLCD_Line` after its two exchanges. -/
def orderedLine (ends : Ends) (s : Bool) (screen : Screen) : Screen :=
  let ⟨x1, y1, x2, y2⟩ := ends
  if y1 = y2 then
    if x2 < x1 then screen.hLine x2 y1 (x1 - x2) s else screen.hLine x1 y1 (x2 - x1) s
  else if x1 = x2 then
    if y2 < y1 then screen.vLine x1 y2 (y1 - y2) s else screen.vLine x1 y1 (y2 - y1) s
  else if (y2 - y1).natAbs < (x2 - x1).natAbs then
    let delta : ℚ := (y2 - y1) / (x2 - x1)
    if x2 < x1 then (countedDown (columnPass s (-delta)) x1 x2 (screen, (y1 : ℚ))).1
    else (countedLoop (columnPass s delta) x1 (x2 + 1) (screen, (y1 : ℚ))).1
  else
    let delta : ℚ := (x2 - x1) / (y2 - y1)
    if y2 < y1 then (countedDown (rowPass s delta) (y2 + 1) (y1 + 1) (screen, (x1 : ℚ))).1
    else (countedLoop (rowPass s delta) y1 (y2 + 1) (screen, (x1 : ℚ))).1

/-- `GLCD_Line` -/
def line (ends : Ends) (s : Bool) (screen : Screen) : Screen := screen.orderedLine ends.ordered s

end Screen

/-! ## Tracing -/

/-- A pixel of the screen, painted. -/
theorem glcdPixel_paints_point {point : Int × Int} (on : point ∈ onScreen) (s : Bool) :
    screenView.Paints (Screen.glcdPixel point.1 point.2 s) {point} (shade s) := by
  refine (glcdPixel_paints on.1 on.2.2.1 s).reshape fun reached => ?_
  rw [Set.mem_inter_iff, Set.mem_singleton_iff]
  exact ⟨And.left, fun same => ⟨same, same ▸ on⟩⟩

/-- A loop that sets one pixel a pass, with a coordinate that it accumulates, paints
the points of the path that the coordinate takes it along. -/
theorem trace_paints {steps : ℕ} {point : Int → ℚ → Int × Int} {start change : ℚ}
    {path : ℕ → Int × Int} (s : Bool)
    (traces : ∀ step ≤ steps, point step (start + step * change) = path step)
    (on : ∀ step ≤ steps, path step ∈ onScreen) :
    screenView.Paints
      (fun screen => (countedLoop (fun pass (traced : Screen × ℚ) =>
        (traced.1.glcdPixel (point pass traced.2).1 (point pass traced.2).2 s,
          traced.2 + change)) 0 (steps + 1) (screen, start)).1)
      {reached | ∃ step ≤ steps, reached = path step} (shade s) := by
  have passes : ∀ pass : Int, 0 ≤ pass → pass < (steps : Int) + 1 →
      screenView.Paints
        (Screen.glcdPixel (point pass (start + pass * change)).1
          (point pass (start + pass * change)).2 s)
        {path pass.toNat} (shade s) := by
    intro pass above below
    obtain ⟨step, rfl⟩ := Int.eq_ofNat_of_zero_le above
    have within : step ≤ steps := by omega
    rw [Int.cast_natCast, traces step within, Int.toNat_natCast]
    exact glcdPixel_paints_point (on step within) s
  have advances : ∀ pass : Int,
      start + (pass + 1 : Int) * change = (start + pass * change) + change := by
    intro pass
    push_cast
    ring
  have region : ∀ reached, reached ∈ swept (fun pass => {path pass.toNat}) 0 (steps + 1) ↔
      ∃ step ≤ steps, reached = path step := by
    intro reached
    constructor
    · rintro ⟨pass, above, below, same⟩
      exact ⟨pass.toNat, by omega, same⟩
    · rintro ⟨step, within, rfl⟩
      exact ⟨step, by omega, by omega, congrArg path (Int.toNat_natCast step).symm⟩
  intro screen
  have painted := (View.Paints.loop passes).reshape region screen
  have carried := countedLoop_carries
    (fun pass value (screen : Screen) => screen.glcdPixel (point pass value).1 (point pass value).2 s)
    (· + change) (fun pass => start + pass * change) advances 0 (steps + 1) screen
  simp only [Int.cast_zero, zero_mul, add_zero] at carried
  rwa [← carried] at painted

/-- The rounded coordinate as C computes it. -/
theorem toInt_rounded {start stop : ℤ} (nonneg : 0 ≤ start) (nonneg' : 0 ≤ stop) {steps step : ℕ}
    (within : step ≤ steps) :
    CFloat.toInt ((start : ℚ) + step * ((stop - start) / steps) + 1 / 2) =
      rounded start stop steps step := by
  obtain ⟨lower, -⟩ := coordinate_between start stop within
  have least : (0 : ℚ) ≤ min (start : ℚ) stop :=
    le_min (Int.cast_nonneg nonneg) (Int.cast_nonneg nonneg')
  exact toInt_eq_floor (by linarith)

theorem box_onScreen {first last : Int × Int} (on : first ∈ onScreen) (on' : last ∈ onScreen) :
    box first last ⊆ onScreen := by
  rintro point ⟨left, right, upper, lower⟩
  obtain ⟨left₁, right₁, upper₁, lower₁⟩ := on
  obtain ⟨left₂, right₂, upper₂, lower₂⟩ := on'
  exact ⟨by omega, by omega, by omega, by omega⟩

/-- The call paints points that join the ends. -/
def Traces (operation : Screen → Screen) (s : Bool) (first last : Int × Int) : Prop :=
  ∃ region, screenView.Paints operation region (shade s) ∧ Joins first last region

variable {x1 y1 x2 y2 : Int}

/-- The loops over columns, to the right and to the left. -/
theorem columns_trace {x y stop direction : Int} {steps : ℕ}
    (unit : direction = 1 ∨ direction = -1) (positive : 0 < steps)
    (shallow : |stop - y| ≤ steps) (on : (x, y) ∈ onScreen)
    (on' : (x + direction * steps, stop) ∈ onScreen) (s : Bool) :
    Traces
      (fun screen => (countedLoop
        (fun pass => Screen.columnPass s ((stop - y) / steps) (x + direction * pass)) 0 (steps + 1)
        (screen, (y : ℚ))).1)
      s (x, y) (x + direction * steps, stop) := by
  have joins := @joins_columns x y stop direction steps unit positive shallow
  refine ⟨_, ?_, joins⟩
  refine @trace_paints steps (fun pass value => (x + direction * pass, CFloat.toInt (value + 1 / 2)))
    _ _ _ s (fun step within => ?_) (fun step within => ?_)
  · exact congrArg _ (toInt_rounded on.2.2.1 on'.2.2.1 within)
  · exact box_onScreen on on' (joins.subset_box ⟨step, within, rfl⟩)

/-- The loop over rows. -/
theorem rows_trace {x y stop : Int} {steps : ℕ} (positive : 0 < steps)
    (steep : |stop - x| ≤ steps) (on : (x, y) ∈ onScreen) (on' : (stop, y + steps) ∈ onScreen)
    (s : Bool) :
    Traces
      (fun screen => (countedLoop
        (fun pass => Screen.rowPass s ((stop - x) / steps) (y + pass)) 0 (steps + 1)
        (screen, (x : ℚ))).1)
      s (x, y) (stop, y + steps) := by
  have joins := @joins_rows x y stop steps positive steep
  refine ⟨_, ?_, joins⟩
  refine @trace_paints steps (fun pass value => (CFloat.toInt (value + 1 / 2), y + pass))
    _ _ _ s (fun step within => ?_) (fun step within => ?_)
  · exact congrArg (·, y + (step : Int)) (toInt_rounded on.1 on'.1 within)
  · exact box_onScreen on on' (joins.subset_box ⟨step, within, rfl⟩)

theorem abs_le_of_natAbs {value : ℤ} {bound : ℕ} (within : value.natAbs ≤ bound) :
    |value| ≤ bound := by
  rw [Int.abs_eq_natAbs]
  exact Int.ofNat_le.mpr within

/-- The loop to the right, its passes counted from zero. -/
theorem orderedLine_right {x y stop : Int} {steps : ℕ} (rows : y ≠ stop)
    (wide : (stop - y).natAbs < steps) (s : Bool) :
    Screen.orderedLine ⟨x, y, x + 1 * steps, stop⟩ s = fun screen =>
      (countedLoop (fun pass => Screen.columnPass s ((stop - y) / steps) (x + 1 * pass))
        0 (steps + 1) (screen, (y : ℚ))).1 := by
  have columns : x ≠ x + 1 * steps := by omega
  have ahead : ¬ x + 1 * (steps : Int) < x := by omega
  have wider : (stop - y).natAbs < (x + 1 * (steps : Int) - x).natAbs := by omega
  have length : x + 1 * (steps : Int) + 1 - x = steps + 1 := by omega
  have slope : (stop - y : ℚ) / (((x + 1 * steps : Int) : ℚ) - x) = (stop - y) / steps := by
    push_cast
    ring
  funext screen
  simp only [Screen.orderedLine, if_neg rows, if_neg columns, if_pos wider, if_neg ahead, slope]
  rw [countedLoop_from_zero, length]
  simp only [one_mul]

/-- The loop to the left. -/
theorem orderedLine_left {x y stop : Int} {steps : ℕ} (rows : y ≠ stop)
    (wide : (stop - y).natAbs < steps) (s : Bool) :
    Screen.orderedLine ⟨x, y, x + -1 * steps, stop⟩ s = fun screen =>
      (countedLoop (fun pass => Screen.columnPass s ((stop - y) / steps) (x + -1 * pass))
        0 (steps + 1) (screen, (y : ℚ))).1 := by
  have columns : x ≠ x + -1 * steps := by omega
  have behind : x + -1 * (steps : Int) < x := by omega
  have wider : (stop - y).natAbs < (x + -1 * (steps : Int) - x).natAbs := by omega
  have length : x - (x + -1 * (steps : Int)) + 1 = steps + 1 := by omega
  have slope : -((stop - y : ℚ) / (((x + -1 * steps : Int) : ℚ) - x)) = (stop - y) / steps := by
    push_cast
    rw [add_sub_cancel_left, neg_one_mul, div_neg, neg_neg]
  funext screen
  simp only [Screen.orderedLine, if_neg rows, if_neg columns, if_pos wider, if_pos behind, slope,
    countedDown, length]
  simp only [neg_one_mul, ← Int.sub_eq_add_neg]

/-- The loop downwards. -/
theorem orderedLine_down {x y stop : Int} {steps : ℕ} (columns : x ≠ stop)
    (steep : (stop - x).natAbs ≤ steps) (positive : 0 < steps) (s : Bool) :
    Screen.orderedLine ⟨x, y, stop, y + steps⟩ s = fun screen =>
      (countedLoop (fun pass => Screen.rowPass s ((stop - x) / steps) (y + pass))
        0 (steps + 1) (screen, (x : ℚ))).1 := by
  have rows : y ≠ y + steps := by omega
  have ahead : ¬ y + (steps : Int) < y := by omega
  have narrower : ¬ (y + (steps : Int) - y).natAbs < (stop - x).natAbs := by omega
  have length : y + (steps : Int) + 1 - y = steps + 1 := by omega
  have slope : (stop - x : ℚ) / (((y + steps : Int) : ℚ) - y) = (stop - x) / steps := by
    push_cast
    ring
  funext screen
  simp only [Screen.orderedLine, if_neg rows, if_neg columns, if_neg narrower, if_neg ahead, slope]
  rw [countedLoop_from_zero, length]

/-- A line that is neither level nor upright joins its ends. -/
theorem orderedLine_traces (on : (x1, y1) ∈ onScreen) (on' : (x2, y2) ∈ onScreen)
    (columns : x1 ≠ x2) (rows : y1 < y2) (s : Bool) :
    Traces (Screen.orderedLine ⟨x1, y1, x2, y2⟩ s) s (x1, y1) (x2, y2) := by
  have differ : y1 ≠ y2 := Int.ne_of_lt rows
  by_cases wide : (y2 - y1).natAbs < (x2 - x1).natAbs
  · rcases Int.lt_or_gt_of_ne columns with right | left
    · obtain ⟨steps, rfl⟩ : ∃ steps : ℕ, x2 = x1 + 1 * steps := ⟨(x2 - x1).toNat, by omega⟩
      have shallow : (y2 - y1).natAbs < steps := by omega
      rw [orderedLine_right differ shallow]
      exact columns_trace (.inl rfl) (by omega) (abs_le_of_natAbs shallow.le) on on' s
    · obtain ⟨steps, rfl⟩ : ∃ steps : ℕ, x2 = x1 + -1 * steps := ⟨(x1 - x2).toNat, by omega⟩
      have shallow : (y2 - y1).natAbs < steps := by omega
      rw [orderedLine_left differ shallow]
      exact columns_trace (.inr rfl) (by omega) (abs_le_of_natAbs shallow.le) on on' s
  · obtain ⟨steps, rfl⟩ : ∃ steps : ℕ, y2 = y1 + steps := ⟨(y2 - y1).toNat, by omega⟩
    have steep : (x2 - x1).natAbs ≤ steps := by omega
    rw [orderedLine_down columns steep (by omega)]
    exact rows_trace (by omega) (abs_le_of_natAbs steep) on on' s

/-! ## Level and upright lines -/

/-- A level line stops before its right end. -/
theorem level_paints {y : Int} (on : (x1, y) ∈ onScreen) (on' : (x2, y) ∈ onScreen) (s : Bool) :
    screenView.Paints (Screen.orderedLine ⟨x1, y, x2, y⟩ s)
      {point | min x1 x2 ≤ point.1 ∧ point.1 < max x1 x2 ∧ point.2 = y} (shade s) := by
  obtain ⟨left₁, right₁, top, bottom⟩ := on
  obtain ⟨left₂, right₂, -, -⟩ := on'
  simp only [lcdWidth, lcdHeight] at right₁ right₂ bottom
  intro screen
  simp only [Screen.orderedLine, ↓reduceIte]
  split
  · refine (hLine_paints left₂ top s).reshape (fun point => ?_) screen
    simp only [DrawCall.shape, onScreen, lcdWidth, lcdHeight, Set.mem_inter_iff, Set.mem_ofPred_eq]
    omega
  · refine (hLine_paints left₁ top s).reshape (fun point => ?_) screen
    simp only [DrawCall.shape, onScreen, lcdWidth, lcdHeight, Set.mem_inter_iff, Set.mem_ofPred_eq]
    omega

/-- An upright line stops before its lower end. -/
theorem upright_paints {x : Int} (on : (x, y1) ∈ onScreen) (on' : (x, y2) ∈ onScreen)
    (rows : y1 ≠ y2) (s : Bool) :
    screenView.Paints (Screen.orderedLine ⟨x, y1, x, y2⟩ s)
      {point | point.1 = x ∧ min y1 y2 ≤ point.2 ∧ point.2 < max y1 y2} (shade s) := by
  obtain ⟨left, right, top₁, bottom₁⟩ := on
  obtain ⟨-, -, top₂, bottom₂⟩ := on'
  simp only [lcdWidth, lcdHeight] at right bottom₁ bottom₂
  intro screen
  simp only [Screen.orderedLine, if_neg rows, ↓reduceIte]
  split
  · refine (vLine_paints left top₂ s).reshape (fun point => ?_) screen
    simp only [DrawCall.shape, onScreen, lcdWidth, lcdHeight, Set.mem_inter_iff, Set.mem_ofPred_eq]
    omega
  · refine (vLine_paints left top₁ s).reshape (fun point => ?_) screen
    simp only [DrawCall.shape, onScreen, lcdWidth, lcdHeight, Set.mem_inter_iff, Set.mem_ofPred_eq]
    omega

/-! ## On a clear buffer -/

/-- The buffer without a set pixel. -/
def clearScreen : Screen where
  scrbuf := Vector.replicate 2048 0x00

theorem picture_clearScreen : clearScreen.picture = ∅ := by
  ext point
  rw [Set.mem_empty_iff_false, iff_false]
  rintro ⟨-, set⟩
  have clear : ∀ i : Nat, clearScreen.scrbuf[i]?.getD 0 = 0#8 := by
    intro i
    rw [clearScreen, Vector.getElem?_replicate]
    split
    · rfl
    · rfl
  rw [Screen.bit, clear, BitVec.getLsbD_zero] at set
  exact Bool.false_ne_true set

/-- What is painted on the clear buffer is its picture. -/
theorem picture_of_paints {operation : Screen → Screen} {region : Set (Int × Int)}
    (paints : screenView.Paints operation region (shade true)) :
    (operation clearScreen).faulted = false ∧ (operation clearScreen).picture = region := by
  obtain ⟨sound, painted⟩ := paints clearScreen rfl
  refine ⟨sound, painted.trans ?_⟩
  have clear : screenView.picture clearScreen = ∅ := picture_clearScreen
  ext point
  rw [mem_ite, clear]
  simp [shade]

/-- On the clear buffer the call sets points that join its ends, and the same points
with the ends exchanged. -/
structure DrawsLine (ends : Ends) : Prop where
  inBuffer : (clearScreen.line ends true).faulted = false
  joins : Joins ends.first ends.last (clearScreen.line ends true).picture
  exchanged : (clearScreen.line ends.swap true).picture = (clearScreen.line ends true).picture

/-- A slanted line is drawn as it should be. -/
theorem drawsLine_of_slanted {ends : Ends} (on : ends.first ∈ onScreen) (on' : ends.last ∈ onScreen)
    (columns : ends.x1 ≠ ends.x2) (rows : ends.y1 ≠ ends.y2) : DrawsLine ends := by
  have traced : Traces (Screen.orderedLine ends.ordered true) true ends.ordered.first
      ends.ordered.last := by
    have above := ends.ordered_rows
    rcases ends.ordered_eq_or with same | same
    · rw [same] at above ⊢
      exact orderedLine_traces on on' columns (by omega) true
    · rw [same] at above ⊢
      exact orderedLine_traces on' on columns.symm (lt_of_le_of_ne above rows.symm) true
  obtain ⟨region, paints, joins⟩ := traced
  obtain ⟨sound, picture⟩ := picture_of_paints paints
  refine ⟨sound, ?_, ?_⟩
  · rw [Screen.line, picture]
    rcases ends.ordered_eq_or with same | same
    · rwa [same] at joins
    · rw [same] at joins
      exact joins.symm
  · rw [Screen.line, Ends.ordered_swap rows, Screen.line]

/-- A level or upright line misses one of its ends. -/
theorem orderedLine_misses {ends : Ends} (on : ends.first ∈ onScreen) (on' : ends.last ∈ onScreen)
    (straight : ends.x1 = ends.x2 ∨ ends.y1 = ends.y2) :
    ¬ (ends.first ∈ (clearScreen.orderedLine ends true).picture ∧
      ends.last ∈ (clearScreen.orderedLine ends true).picture) := by
  obtain ⟨x1, y1, x2, y2⟩ := ends
  rintro ⟨first, last⟩
  by_cases level : y1 = y2
  · obtain rfl : y1 = y2 := level
    rw [(picture_of_paints (level_paints on on' true)).2] at first last
    obtain ⟨-, before, -⟩ := first
    obtain ⟨-, before', -⟩ := last
    simp only [Ends.first, Ends.last] at before before'
    omega
  · obtain rfl : x1 = x2 := straight.resolve_right level
    rw [(picture_of_paints (upright_paints on on' level true)).2] at first last
    obtain ⟨-, -, above⟩ := first
    obtain ⟨-, -, above'⟩ := last
    simp only [Ends.first, Ends.last] at above above'
    omega

theorem not_drawsLine_of_straight {ends : Ends} (on : ends.first ∈ onScreen)
    (on' : ends.last ∈ onScreen) (straight : ends.x1 = ends.x2 ∨ ends.y1 = ends.y2) :
    ¬ DrawsLine ends := by
  intro draws
  have first := draws.joins.mem_first
  have last := draws.joins.mem_last
  rw [Screen.line] at first last
  rcases ends.ordered_eq_or with same | same
  · rw [same] at first last
    exact orderedLine_misses on on' straight ⟨first, last⟩
  · rw [same] at first last
    have exchanged : ends.swap.x1 = ends.swap.x2 ∨ ends.swap.y1 = ends.swap.y2 :=
      straight.imp Eq.symm Eq.symm
    exact @orderedLine_misses ends.swap on' on exchanged ⟨last, first⟩

/-- Exactly when a line on the screen is drawn as it should be. -/
theorem drawsLine_iff (ends : Ends) (on : ends.first ∈ onScreen) (on' : ends.last ∈ onScreen) :
    DrawsLine ends ↔ ends.x1 ≠ ends.x2 ∧ ends.y1 ≠ ends.y2 := by
  constructor
  · intro draws
    by_contra straight
    refine not_drawsLine_of_straight on on' ?_ draws
    omega
  · rintro ⟨columns, rows⟩
    exact drawsLine_of_slanted on on' columns rows

/-- A shallow line from the right to the left. -/
theorem drawsLine_shallow : DrawsLine ⟨100, 10, 20, 40⟩ :=
  (drawsLine_iff ⟨100, 10, 20, 40⟩ (by simp [Ends.first, onScreen, lcdWidth, lcdHeight])
    (by simp [Ends.last, onScreen, lcdWidth, lcdHeight])).mpr (by decide)

/-- A level line does not reach its right end, and a single point is not drawn at all. -/
theorem not_drawsLine_level : ¬ DrawsLine ⟨3, 5, 10, 5⟩ ∧ ¬ DrawsLine ⟨3, 5, 3, 5⟩ := by
  constructor
  · apply not_drawsLine_of_straight
    · simp [Ends.first, onScreen, lcdWidth, lcdHeight]
    · simp [Ends.last, onScreen, lcdWidth, lcdHeight]
    · decide
  · apply not_drawsLine_of_straight
    · simp [Ends.first, onScreen, lcdWidth, lcdHeight]
    · simp [Ends.last, onScreen, lcdWidth, lcdHeight]
    · decide

end DDSFunctionGen.Lcd

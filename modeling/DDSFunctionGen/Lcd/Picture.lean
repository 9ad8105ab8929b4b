import DDSFunctionGen.Lcd.ScreenBuffer
import DDSFunctionGen.Pictures.Painting
import DDSFunctionGen.Semantics.Execution
import Mathlib.Data.Set.SymmDiff
import Mathlib.Order.ConditionallyCompleteLattice.Basic
import Mathlib.Tactic.ByContra

/-!
# The picture on the screen

The screen buffer read back pixel by pixel is a set of points of the screen. A
call paints its shape, clipped to the screen, and leaves every other point.
-/

namespace DDSFunctionGen.Lcd

open DDSFunctionGen.Pictures DDSFunctionGen.Semantics

/-- The points of the screen. -/
def onScreen : Set (Int × Int) :=
  {point | 0 ≤ point.1 ∧ point.1 < lcdWidth ∧ 0 ≤ point.2 ∧ point.2 < lcdHeight}

/-- Bit `y mod 8` of byte `(y / 8) * 128 + x`. -/
def Screen.bit (screen : Screen) (point : Int × Int) : Bool :=
  (screen.scrbuf[(point.2 / 8 * 128 + point.1).toNat]?.getD 0).getLsbD (point.2 % 8).toNat

/-- The set pixels of the screen. -/
def Screen.picture (screen : Screen) : Set (Int × Int) :=
  {point | point ∈ onScreen ∧ screen.bit point = true}

/-- All points set, or none. -/
def shade (s : Bool) : Set (Int × Int) := {_point | s = true}

/-- The set pixels of a bitmap drawn at `(x, y)`: the highest bit of a byte is its
uppermost pixel. -/
def Bitmap.picture (bitmap : Bitmap) (x y : Int) : Set (Int × Int) :=
  {point | (bitmap.data ((point.1 - x) + (point.2 - y) / 8 * bitmap.width).toNat).getLsbD
    (7 - (point.2 - y) % 8).toNat = true}

namespace DrawCall

/-- The points a call is about. -/
def shape : DrawCall → Set (Int × Int)
  | .clrScr | .fillScr => Set.univ
  | .pixel x y _ | .invPixel x y => {(x, y)}
  | .hLine x y l _ => {point | x ≤ point.1 ∧ point.1 < min (x + l) 128 ∧ point.2 = y}
  | .vLine x y l _ => {point | point.1 = x ∧ y ≤ point.2 ∧ point.2 < min (y + l) 128}
  | .drawBitmap x y bitmap => {point | x ≤ point.1 ∧ point.1 < x + bitmap.width ∧
      y ≤ point.2 ∧ point.2 < y + bitmap.height}

/-- What a call is to do to a picture: the points of its shape on the screen take
its colour, all others are kept. -/
def draw (call : DrawCall) (picture : Set (Int × Int)) : Set (Int × Int) :=
  let region := call.shape ∩ onScreen
  match call with
  | .clrScr => region.ite (shade false) picture
  | .fillScr => region.ite (shade true) picture
  | .pixel _ _ s | .hLine _ _ _ s | .vLine _ _ _ s => region.ite (shade s) picture
  | .invPixel _ _ => symmDiff picture region
  | .drawBitmap x y bitmap => region.ite (bitmap.picture x y) picture

/-- The coordinates and lengths are not negative. -/
def NonNegative : DrawCall → Prop
  | .clrScr | .fillScr => True
  | .pixel x y _ | .invPixel x y | .drawBitmap x y _ => 0 ≤ x ∧ 0 ≤ y
  | .hLine x y l _ | .vLine x y l _ => 0 ≤ x ∧ 0 ≤ y ∧ 0 ≤ l

end DrawCall

/-! ## One bit -/

theorem screenBufferByte_eq {x y : Int} (above : 0 ≤ y) :
    screenBufferByte x y = y / 8 * 128 + x := by
  rw [screenBufferByte, Int.tdiv_eq_ediv_of_nonneg above]
  rfl

theorem screenBufferBit_eq {y : Int} (above : 0 ≤ y) : screenBufferBit y = y % 8 :=
  Int.tmod_eq_emod_of_nonneg above

theorem getLsbD_mask {bit i : Nat} (inByte : i < 8) :
    (1#8 <<< bit).getLsbD i = decide (i = bit) := by
  rw [← BitVec.twoPow_eq, BitVec.getLsbD_twoPow]
  grind

/-- `byte & (1 << bit)`, as a truth value. -/
theorem and_mask_ne_zero_iff (byte : BitVec 8) {bit : Nat} (inByte : bit < 8) :
    byte &&& (1#8 <<< bit) ≠ 0 ↔ byte.getLsbD bit = true := by
  have bits : ∀ i < 8, (byte &&& (1#8 <<< bit)).getLsbD i =
      (byte.getLsbD i && decide (i = bit)) := by
    intro i small
    rw [BitVec.getLsbD_and, getLsbD_mask small]
  constructor
  · intro nonzero
    by_contra clear
    refine nonzero (BitVec.eq_of_getLsbD_eq fun i small => ?_)
    have zero : (0 : BitVec 8).getLsbD i = false := BitVec.getLsbD_zero
    rw [bits i small, zero]
    grind
  · rintro set zero
    have tested := bits bit inByte
    rw [zero, set, decide_eq_true rfl] at tested
    exact absurd tested (by simp)

/-- A store to the buffer read back at one of its bytes. -/
theorem getElem?_store (scrbuf : Vector (BitVec 8) 2048) {i j : Nat} (inRange : j < 2048)
    (byte : BitVec 8) :
    (scrbuf.setIfInBounds i byte)[j]?.getD 0 = if i = j then byte else scrbuf[j]?.getD 0 := by
  rw [Vector.getElem?_setIfInBounds]
  grind

/-- An operation on bytes that combines them bit by bit and keeps the bits that
are clear in the mask. -/
structure Bitwise (operation : BitVec 8 → BitVec 8 → BitVec 8) (combine : Bool → Bool → Bool) :
    Prop where
  bits : ∀ byte mask i, i < 8 →
    (operation byte mask).getLsbD i = combine (byte.getLsbD i) (mask.getLsbD i)
  keeps : ∀ bit, combine bit false = bit

theorem bitwise_or : Bitwise (· ||| ·) (· || ·) where
  bits _ _ _ _ := BitVec.getLsbD_or
  keeps bit := Bool.or_false bit

theorem bitwise_andNot : Bitwise (fun byte mask => byte &&& ~~~mask) (fun bit mask => bit && !mask)
    where
  bits byte mask i inByte := by simp [inByte]
  keeps bit := by simp

theorem bitwise_xor : Bitwise (· ^^^ ·) (fun bit mask => bit ^^ mask) where
  bits _ _ _ _ := BitVec.getLsbD_xor
  keeps bit := Bool.xor_false bit

/-- A change of one pixel of the screen reaches no other pixel. -/
theorem bit_change (screen : Screen) {operation : BitVec 8 → BitVec 8 → BitVec 8}
    {combine : Bool → Bool → Bool}
    (bitwise : Bitwise operation combine) {x y : Int} (pixel : (x, y) ∈ onScreen)
    {point : Int × Int} (on : point ∈ onScreen) :
    (screen.change operation x y).faulted = screen.faulted ∧
      (screen.change operation x y).bit point =
        if point = (x, y) then combine (screen.bit point) true else screen.bit point := by
  obtain ⟨x', y'⟩ := point
  simp only [onScreen, lcdWidth, lcdHeight, Set.mem_ofPred_eq] at pixel on
  obtain ⟨left, right, top, bottom⟩ := pixel
  obtain ⟨left', right', top', bottom'⟩ := on
  have inBuffer : 0 ≤ y % 8 ∧ 0 ≤ y / 8 * 128 + x ∧ y / 8 * 128 + x < 2048 := by omega
  simp only [Screen.change, screenBufferByte_eq top, screenBufferBit_eq top, if_pos inBuffer]
  refine ⟨trivial, ?_⟩
  simp only [Screen.bit]
  have inRange : (y' / 8 * 128 + x').toNat < 2048 := by omega
  have inByte : (y' % 8).toNat < 8 := by omega
  rw [getElem?_store screen.scrbuf inRange]
  by_cases sameByte : (y / 8 * 128 + x).toNat = (y' / 8 * 128 + x').toNat
  · rw [if_pos sameByte, bitwise.bits _ _ _ inByte, getLsbD_mask inByte, sameByte]
    by_cases same : x' = x ∧ y' = y
    · obtain ⟨rfl, rfl⟩ := same
      simp
    · have otherBit : ¬ (y' % 8).toNat = (y % 8).toNat := by omega
      rw [decide_eq_false otherBit, bitwise.keeps, if_neg]
      exact fun equal => same (Prod.mk.inj equal)
  · rw [if_neg sameByte, if_neg]
    intro equal
    obtain ⟨rfl, rfl⟩ := Prod.mk.inj equal
    exact sameByte rfl

/-- The screen buffer as the picture it holds, while no store has gone astray. -/
def screenView : View Screen (Int × Int) where
  Sound screen := screen.faulted = false
  picture := Screen.picture

theorem mem_picture (screen : Screen) (point : Int × Int) :
    point ∈ screenView.picture screen ↔ point ∈ onScreen ∧ screen.bit point = true := Iff.rfl

/-- A change that gives its pixel a colour, whatever the pixel was. -/
theorem change_paints {operation : BitVec 8 → BitVec 8 → BitVec 8} {combine : Bool → Bool → Bool}
    (bitwise : Bitwise operation combine) {s : Bool} (constant : ∀ bit, combine bit true = s)
    {x y : Int} (pixel : (x, y) ∈ onScreen) :
    screenView.Paints (Screen.change operation x y) {(x, y)} (shade s) := by
  intro screen sound
  refine ⟨(bit_change screen bitwise pixel pixel).1.trans sound, ?_⟩
  ext point
  rw [mem_ite, mem_picture, mem_picture, Set.mem_singleton_iff]
  by_cases on : point ∈ onScreen
  · rw [(bit_change screen bitwise pixel on).2, constant]
    split
    · rename_i same
      simp [same, pixel, shade]
    · rename_i other
      simp [other]
  · have other : point ≠ (x, y) := fun same => on (same ▸ pixel)
    simp [on, other]

theorem sPixel_paints {x y : Int} (pixel : (x, y) ∈ onScreen) :
    screenView.Paints (Screen.sPixel x y) {(x, y)} (shade true) :=
  change_paints bitwise_or Bool.or_true pixel

theorem cPixel_paints {x y : Int} (pixel : (x, y) ∈ onScreen) :
    screenView.Paints (Screen.cPixel x y) {(x, y)} (shade false) :=
  change_paints bitwise_andNot Bool.and_false pixel

/-- A byte stored to the buffer: the eight pixels it holds. -/
theorem store_paints (byte : BitVec 8) {i : Int} (inBuffer : 0 ≤ i ∧ i < 2048) :
    screenView.Paints (Screen.store byte i)
      {point | point ∈ onScreen ∧ point.2 / 8 * 128 + point.1 = i}
      {point | byte.getLsbD (point.2 % 8).toNat = true} := by
  intro screen sound
  rw [Screen.store, if_pos inBuffer]
  refine ⟨sound, ?_⟩
  ext point
  rw [mem_ite, mem_picture, mem_picture]
  by_cases on : point ∈ onScreen
  · obtain ⟨left, right, top, bottom⟩ := id on
    simp only [lcdWidth, lcdHeight] at left right top bottom
    have inRange : (point.2 / 8 * 128 + point.1).toNat < 2048 := by omega
    have same : i.toNat = (point.2 / 8 * 128 + point.1).toNat ↔
        point.2 / 8 * 128 + point.1 = i := by omega
    simp only [Screen.bit, getElem?_store screen.scrbuf inRange, same]
    split
    · rename_i stored
      simp [stored, on]
    · rename_i kept
      simp [kept, on]
  · simp [on]

/-! ## Calls -/

/-- The buffer stored full of one byte whose bits are alike. -/
theorem fill_paints {byte : BitVec 8} {s : Bool} (alike : ∀ i < 8, byte.getLsbD i = s) :
    screenView.Paints (countedLoop (Screen.store byte) 0 2048) (Set.univ ∩ onScreen) (shade s) := by
  have stores := View.Paints.loop fun i above below => store_paints byte ⟨above, below⟩
  refine (stores.reshape fun point => ?_).recolour fun point _ => ?_
  · simp only [swept, onScreen, lcdWidth, lcdHeight, Set.mem_inter_iff, Set.mem_univ, true_and,
      Set.mem_ofPred_eq]
    constructor
    · rintro ⟨i, -, -, on, -⟩
      exact on
    · rintro ⟨left, right, top, bottom⟩
      exact ⟨point.2 / 8 * 128 + point.1, by omega, by omega, ⟨left, right, top, bottom⟩, rfl⟩
  · simp only [Set.mem_ofPred_eq, alike (point.2 % 8).toNat (by omega), shade]

/-- A pixel to the right of the screen's left edge and below its upper edge. -/
theorem glcdPixel_paints {x y : Int} (left : 0 ≤ x) (top : 0 ≤ y) (s : Bool) :
    screenView.Paints (Screen.glcdPixel x y s) ({(x, y)} ∩ onScreen) (shade s) := by
  by_cases inside : x < lcdWidth ∧ y < lcdHeight
  · have pixel : (x, y) ∈ onScreen := ⟨left, inside.1, top, inside.2⟩
    have only : ∀ point : Int × Int, point ∈ ({(x, y)} : Set (Int × Int)) ↔
        point ∈ ({(x, y)} ∩ onScreen : Set (Int × Int)) := by
      intro point
      rw [Set.mem_inter_iff, Set.mem_singleton_iff]
      exact ⟨fun same => ⟨same, same ▸ pixel⟩, And.left⟩
    intro screen
    rw [Screen.glcdPixel, if_pos inside]
    cases s with
    | true => exact (sPixel_paints pixel).reshape only screen
    | false => exact (cPixel_paints pixel).reshape only screen
  · intro screen
    rw [Screen.glcdPixel, if_neg inside]
    refine View.Paints.nothing.reshape (fun point => ?_) screen
    rw [Set.mem_empty_iff_false, Set.mem_inter_iff, Set.mem_singleton_iff, false_iff]
    rintro ⟨rfl, -, right, -, bottom⟩
    exact inside ⟨right, bottom⟩

/-- A horizontal line between columns of the screen. -/
theorem hLoop_paints {pixel : Int → Int → Screen → Screen} {s : Bool}
    (paints : ∀ x y, (x, y) ∈ onScreen → screenView.Paints (pixel x y) {(x, y)} (shade s))
    {x0 x1 y : Int} (left : 0 ≤ x0) (right : x1 ≤ 128) (row : 0 ≤ y ∧ y < 128) :
    screenView.Paints (countedLoop (fun x => pixel x y) x0 x1)
      {point | x0 ≤ point.1 ∧ point.1 < x1 ∧ point.2 = y} (shade s) := by
  have pixels := View.Paints.loop fun x (above : x0 ≤ x) (below : x < x1) =>
    paints x y ⟨Int.le_trans left above, Int.lt_of_lt_of_le below right, row⟩
  refine pixels.reshape fun point => ?_
  simp only [swept, Set.mem_ofPred_eq, Set.mem_singleton_iff]
  constructor
  · rintro ⟨x, above, below, rfl⟩
    exact ⟨above, below, rfl⟩
  · rintro ⟨above, below, rfl⟩
    exact ⟨point.1, above, below, rfl⟩

/-- A vertical line between rows of the screen. -/
theorem vLoop_paints {pixel : Int → Int → Screen → Screen} {s : Bool}
    (paints : ∀ x y, (x, y) ∈ onScreen → screenView.Paints (pixel x y) {(x, y)} (shade s))
    {x y0 y1 : Int} (column : 0 ≤ x ∧ x < 128) (top : 0 ≤ y0) (bottom : y1 ≤ 128) :
    screenView.Paints (countedLoop (fun y => pixel x y) y0 y1)
      {point | point.1 = x ∧ y0 ≤ point.2 ∧ point.2 < y1} (shade s) := by
  have pixels := View.Paints.loop fun y (above : y0 ≤ y) (below : y < y1) =>
    paints x y ⟨column.1, column.2, Int.le_trans top above, Int.lt_of_lt_of_le below bottom⟩
  refine pixels.reshape fun point => ?_
  simp only [swept, Set.mem_ofPred_eq, Set.mem_singleton_iff]
  constructor
  · rintro ⟨y, above, below, rfl⟩
    exact ⟨rfl, above, below⟩
  · rintro ⟨rfl, above, below⟩
    exact ⟨point.2, above, below, rfl⟩

theorem hLine_paints {x y l : Int} (left : 0 ≤ x) (top : 0 ≤ y) (s : Bool) :
    screenView.Paints (Screen.hLine x y l s) ((DrawCall.hLine x y l s).shape ∩ onScreen)
      (shade s) := by
  have clipped : (if lcdWidth < x + l then lcdWidth else x + l) = min (x + l) 128 := by
    simp only [lcdWidth]
    omega
  intro screen
  by_cases inside : x < lcdWidth ∧ y < lcdHeight
  · have row : 0 ≤ y ∧ y < 128 := ⟨top, inside.2⟩
    have only : ∀ point : Int × Int,
        point ∈ {point : Int × Int | x ≤ point.1 ∧ point.1 < min (x + l) 128 ∧ point.2 = y} ↔
          point ∈ (DrawCall.hLine x y l s).shape ∩ onScreen := by
      intro point
      simp only [DrawCall.shape, onScreen, lcdWidth, lcdHeight, Set.mem_inter_iff,
        Set.mem_ofPred_eq]
      omega
    simp only [Screen.hLine, if_pos inside, clipped]
    cases s with
    | true =>
        exact (hLoop_paints (fun _ _ => sPixel_paints) left (by omega) row).reshape only screen
    | false =>
        exact (hLoop_paints (fun _ _ => cPixel_paints) left (by omega) row).reshape only screen
  · simp only [Screen.hLine, if_neg inside]
    refine View.Paints.nothing.reshape (fun point => ?_) screen
    simp only [DrawCall.shape, onScreen, lcdWidth, lcdHeight, Set.mem_inter_iff,
      Set.mem_ofPred_eq, Set.mem_empty_iff_false, false_iff] at inside ⊢
    omega

theorem vLine_paints {x y l : Int} (left : 0 ≤ x) (top : 0 ≤ y) (s : Bool) :
    screenView.Paints (Screen.vLine x y l s) ((DrawCall.vLine x y l s).shape ∩ onScreen)
      (shade s) := by
  have clipped : (if lcdHeight < y + l then lcdHeight else y + l) = min (y + l) 128 := by
    simp only [lcdHeight]
    omega
  intro screen
  by_cases inside : x < lcdWidth ∧ y < lcdHeight
  · have column : 0 ≤ x ∧ x < 128 := ⟨left, inside.1⟩
    have only : ∀ point : Int × Int,
        point ∈ {point : Int × Int | point.1 = x ∧ y ≤ point.2 ∧ point.2 < min (y + l) 128} ↔
          point ∈ (DrawCall.vLine x y l s).shape ∩ onScreen := by
      intro point
      simp only [DrawCall.shape, onScreen, lcdWidth, lcdHeight, Set.mem_inter_iff,
        Set.mem_ofPred_eq]
      omega
    simp only [Screen.vLine, if_pos inside, clipped]
    cases s with
    | true =>
        exact (vLoop_paints (fun _ _ => sPixel_paints) column top (by omega)).reshape only screen
    | false =>
        exact (vLoop_paints (fun _ _ => cPixel_paints) column top (by omega)).reshape only screen
  · simp only [Screen.vLine, if_neg inside]
    refine View.Paints.nothing.reshape (fun point => ?_) screen
    simp only [DrawCall.shape, onScreen, lcdWidth, lcdHeight, Set.mem_inter_iff,
      Set.mem_ofPred_eq, Set.mem_empty_iff_false, false_iff] at inside ⊢
    omega

/-- The bit tested for a pixel of a bitmap. -/
theorem Bitmap.pixel_eq (bitmap : Bitmap) {nx ny : Int} (above : 0 ≤ ny) (x y : Int) :
    bitmap.pixel nx ny = true ↔ (nx + x, ny + y) ∈ bitmap.picture x y := by
  have inByte : (7 - ny % 8).toNat < 8 := by omega
  simp only [Bitmap.pixel, Bitmap.picture, Int.tdiv_eq_ediv_of_nonneg above,
    Int.tmod_eq_emod_of_nonneg above, decide_eq_true_eq, and_mask_ne_zero_iff _ inByte,
    Set.mem_ofPred_eq, Int.add_sub_cancel]

theorem drawBitmap_paints {x y : Int} (left : 0 ≤ x) (top : 0 ≤ y) (bitmap : Bitmap) :
    screenView.Paints (Screen.drawBitmap x y bitmap)
      ((DrawCall.drawBitmap x y bitmap).shape ∩ onScreen) (bitmap.picture x y) := by
  have pixel : ∀ nx ny, 0 ≤ nx → 0 ≤ ny →
      screenView.Paints (Screen.glcdPixel (nx + x) (ny + y) (bitmap.pixel nx ny))
        ({(nx + x, ny + y)} ∩ onScreen) (bitmap.picture x y) := by
    intro nx ny column row
    refine (glcdPixel_paints (by omega) (by omega) _).recolour ?_
    rintro point ⟨rfl, -⟩
    exact bitmap.pixel_eq row x y
  have rows := View.Paints.loop fun ny above (_ : ny < bitmap.height) =>
    View.Paints.loop fun nx before (_ : nx < bitmap.width) => pixel nx ny before above
  refine rows.reshape fun point => ?_
  simp only [swept, DrawCall.shape, Set.mem_inter_iff, Set.mem_ofPred_eq, Set.mem_singleton_iff]
  constructor
  · rintro ⟨ny, above, below, nx, before, after, rfl, on⟩
    exact ⟨⟨by omega, by omega, by omega, by omega⟩, on⟩
  · rintro ⟨⟨before, after, above, below⟩, on⟩
    refine ⟨point.2 - y, by omega, by omega, point.1 - x, by omega, by omega, ?_, on⟩
    rw [Int.sub_add_cancel, Int.sub_add_cancel]

/-- Inverting a pixel of the screen. -/
theorem invPixel_draws {screen : Screen} (sound : screen.faulted = false) {x y : Int}
    (left : 0 ≤ x) (top : 0 ≤ y) :
    (screen.invPixel x y).faulted = false ∧
      (screen.invPixel x y).picture = symmDiff screen.picture ({(x, y)} ∩ onScreen) := by
  rw [Screen.invPixel]
  split
  · rename_i inside
    have pixel : (x, y) ∈ onScreen := ⟨left, inside.1, top, inside.2⟩
    refine ⟨(bit_change screen bitwise_xor pixel pixel).1.trans sound, ?_⟩
    ext point
    rw [Set.mem_symmDiff, Set.mem_inter_iff, Set.mem_singleton_iff]
    by_cases on : point ∈ onScreen
    · have bit := (bit_change screen bitwise_xor pixel on).2
      simp only [Screen.picture, Set.mem_ofPred_eq, bit, on]
      split
      · simp_all
      · simp_all
    · simp [Screen.picture, on]
  · rename_i outside
    refine ⟨sound, ?_⟩
    have nothing : ({(x, y)} ∩ onScreen : Set (Int × Int)) = ∅ := by
      ext point
      rw [Set.mem_empty_iff_false, Set.mem_inter_iff, Set.mem_singleton_iff, iff_false]
      rintro ⟨rfl, -, right, -, bottom⟩
      exact outside ⟨right, bottom⟩
    rw [nothing]
    exact (symmDiff_bot screen.picture).symm

/-- A call with coordinates that are not negative draws its shape. -/
theorem call_draws {screen : Screen} (sound : screen.faulted = false) {call : DrawCall}
    (nonNegative : call.NonNegative) :
    (screen.call call).faulted = false ∧ (screen.call call).picture = call.draw screen.picture := by
  cases call with
  | clrScr =>
      have clear : ∀ i < 8, (0x00#8).getLsbD i = false := by decide
      exact fill_paints clear screen sound
  | fillScr =>
      have full : ∀ i < 8, (0xFF#8).getLsbD i = true := by decide
      exact fill_paints full screen sound
  | pixel x y s => exact glcdPixel_paints nonNegative.1 nonNegative.2 s screen sound
  | invPixel x y => exact invPixel_draws sound nonNegative.1 nonNegative.2
  | hLine x y l s => exact hLine_paints nonNegative.1 nonNegative.2.1 s screen sound
  | vLine x y l s => exact vLine_paints nonNegative.1 nonNegative.2.1 s screen sound
  | drawBitmap x y bitmap => exact drawBitmap_paints nonNegative.1 nonNegative.2 bitmap screen sound

/-- After any sequence of calls with coordinates that are not negative, the buffer
holds the picture the calls draw on the one it held before, and no store has missed
it. -/
theorem calls_draw_picture (calls : List DrawCall) (nonNegative : ∀ call ∈ calls, call.NonNegative)
    (screen : Screen) (sound : screen.faulted = false) :
    (run Screen.call screen calls).faulted = false ∧
      (run Screen.call screen calls).picture =
        run (fun picture call => call.draw picture) screen.picture calls :=
  run_refines (fun screen => screen.faulted = false) Screen.picture
    (fun picture call => call.draw picture)
    (fun _ _ sound nonNegative => call_draws sound nonNegative) sound nonNegative

/-- A line beyond the right edge, a column beyond the lower one and a bitmap in the
corner, of which one pixel is inverted. -/
def edgeCalls : List DrawCall :=
  [.clrScr, .hLine 120 3 20 true, .vLine 5 100 60 true,
    .drawBitmap 124 124 { width := 8, height := 8, data := fun _ => 0xF0 }, .invPixel 125 125]

theorem edgeCalls_draw_picture :
    (run Screen.call { scrbuf := Vector.replicate 2048 0xAA } edgeCalls).faulted = false ∧
      (run Screen.call { scrbuf := Vector.replicate 2048 0xAA } edgeCalls).picture =
        run (fun picture call => call.draw picture)
          (Screen.picture { scrbuf := Vector.replicate 2048 0xAA }) edgeCalls := by
  have nonNegative : ∀ call ∈ edgeCalls, call.NonNegative := by
    simp [edgeCalls, DrawCall.NonNegative]
  exact calls_draw_picture edgeCalls nonNegative _ rfl

end DDSFunctionGen.Lcd

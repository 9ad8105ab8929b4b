import DDSFunctionGen.Lcd.FontReads

/-!
# The picture of a text

A glyph is a box of pixels, each of them a bit of the font. A text paints the
boxes of its characters side by side, clipped to the screen, and nothing else.
What it paints depends on the bytes read for it, so a text covered by its font
looks the same whatever lies around the font.
-/

namespace DDSFunctionGen.Lcd

open DDSFunctionGen.Pictures DDSFunctionGen.SdCard DDSFunctionGen.Semantics

namespace SFont

/-- A pixel of a glyph. In a packed font the pixels are numbered down each column. -/
def glyphBit (cfont : SFont) (c : UInt8) (column row : Int) : Bool :=
  if cfont.ySize % 8 = 0 then
    (cfont.font (cfont.glyphStart c + (row / 8 * cfont.xSize + column))).getLsbD (row % 8).toNat
  else
    let n := column * cfont.ySize + row
    (cfont.font (cfont.glyphStart c + n / 8)).getLsbD (n % 8).toNat

/-- The box of a number of characters. -/
def box (cfont : SFont) (x y : Int) (characters : Nat) : Set (Int × Int) :=
  {point | x ≤ point.1 ∧ point.1 < x + characters * cfont.xSize ∧
    y ≤ point.2 ∧ point.2 < y + cfont.ySize}

/-- The set pixels of a character drawn at `(x, y)`. -/
def glyphPicture (cfont : SFont) (c : UInt8) (x y : Int) : Set (Int × Int) :=
  {point | (cfont.glyphBit c (point.1 - x) (point.2 - y) ^^ cfont.inverted) = true}

/-- The set pixels of a text drawn at `(x, y)`, each character in its mode. -/
def textPicture (cfont : SFont) (mode : Int → Bool) (st : CString) (x y : Int) :
    Set (Int × Int) :=
  {point |
    let cnt := (point.1 - x) / cfont.xSize
    point ∈ (cfont.inMode (mode cnt)).glyphPicture (st.getD cnt.toNat 0) (x + cnt * cfont.xSize) y}

end SFont

/-- The screen of a canvas as a picture. -/
def canvasView : View Canvas (Int × Int) where
  Sound canvas := canvas.screen.faulted = false
  picture canvas := canvas.screen.picture

namespace Canvas

variable (cfont : SFont) {x y : Int}

theorem fontByte_paints (i : Int) (colouring : Set (Int × Int)) :
    canvasView.Paints (fun canvas => (canvas.fontByte cfont i).2) ∅ colouring :=
  View.Paints.nothing

theorem glyphPixel_paints (left : 0 ≤ x) (top : 0 ≤ y) (byte : BitVec 8) {bit : Int}
    (inByte : bit.toNat < 8) :
    canvasView.Paints (glyphPixel cfont x y byte bit) ({(x, y)} ∩ onScreen)
      (shade (byte.getLsbD bit.toNat ^^ cfont.inverted)) := by
  have shown : (if cfont.inverted then !decide (byte &&& (1#8 <<< bit.toNat) ≠ 0)
      else decide (byte &&& (1#8 <<< bit.toNat) ≠ 0)) =
        (byte.getLsbD bit.toNat ^^ cfont.inverted) := by
    simp only [and_mask_ne_zero_iff byte inByte, Bool.decide_eq_true]
    cases cfont.inverted with
    | false => simp
    | true => simp
  intro canvas sound
  simp only [glyphPixel, shown]
  exact glcdPixel_paints left top _ canvas.screen sound

/-- A pixel of the box of a character. -/
theorem glyphBit_paints (left : 0 ≤ x) (top : 0 ≤ y) (c : UInt8) {cx cy : Int} (column : 0 ≤ cx)
    (row : 0 ≤ cy) {byte : BitVec 8} {bit : Int} (inByte : bit.toNat < 8)
    (fetched : byte.getLsbD bit.toNat = cfont.glyphBit c cx cy) :
    canvasView.Paints (glyphPixel cfont (x + cx) (y + cy) byte bit)
      ({(x + cx, y + cy)} ∩ onScreen) (cfont.glyphPicture c x y) := by
  refine (glyphPixel_paints cfont (by omega) (by omega) byte inByte).recolour ?_
  rintro point ⟨rfl, -⟩
  have column : x + cx - x = cx := by omega
  have row : y + cy - y = cy := by omega
  simp only [shade, SFont.glyphPicture, Set.mem_ofPred_eq, column, row, fetched]

theorem bytePass_paints (whole : cfont.ySize % 8 = 0) (left : 0 ≤ x) (top : 0 ≤ y) (c : UInt8)
    {rowcnt cnt b : Int} (down : 0 ≤ rowcnt) (across : 0 ≤ cnt) (first : 0 ≤ b) (last : b < 8) :
    canvasView.Paints (bytePass cfont x y (cfont.glyphStart c) rowcnt cnt b)
      ({(x + cnt, y + (rowcnt * 8 + b))} ∩ onScreen) (cfont.glyphPicture c x y) := by
  have byteRow : (rowcnt * 8 + b) / 8 = rowcnt := by omega
  have bitRow : (rowcnt * 8 + b) % 8 = b := by omega
  have place : cfont.glyphStart c + cnt + rowcnt * cfont.xSize =
      cfont.glyphStart c + (rowcnt * cfont.xSize + cnt) := by omega
  have fetched : (cfont.font (cfont.glyphStart c + cnt + rowcnt * cfont.xSize)).getLsbD b.toNat =
      cfont.glyphBit c cnt (rowcnt * 8 + b) := by
    rw [SFont.glyphBit, if_pos whole, byteRow, bitRow, place]
  have paints := glyphBit_paints cfont left top c across (by omega) (by omega) fetched
  have position : y + (rowcnt * 8 + b) = y + rowcnt * 8 + b := by omega
  rw [position] at paints ⊢
  intro canvas sound
  exact paints (canvas.fontByte cfont _).2 sound

theorem packedPixel_paints (packed : ¬ cfont.ySize % 8 = 0) (left : 0 ≤ x) (top : 0 ≤ y) (c : UInt8)
    {cx cy : Int} (column : 0 ≤ cx) (row : 0 ≤ cy) :
    canvasView.Paints (packedPixel cfont x y (cfont.glyphStart c) cx cy)
      ({(x + cx, y + cy)} ∩ onScreen) (cfont.glyphPicture c x y) := by
  have fetched : (cfont.font (cfont.glyphStart c + (cx * cfont.ySize + cy) / 8)).getLsbD
      ((cx * cfont.ySize + cy) % 8).toNat = cfont.glyphBit c cx cy := by
    rw [SFont.glyphBit, if_neg packed]
  have paints := glyphBit_paints cfont left top c column row (by omega) fetched
  intro canvas sound
  simp only [packedPixel]
  split
  · exact paints canvas sound
  · exact paints canvas sound

/-- `GLCD_PrintChar` paints the box of the character with its glyph. -/
theorem printChar_paints (left : 0 ≤ x) (top : 0 ≤ y) (c : UInt8) :
    canvasView.Paints (printChar cfont x y c) (cfont.box x y 1 ∩ onScreen)
      (cfont.glyphPicture c x y) := by
  by_cases whole : cfont.ySize % 8 = 0
  · have passes := View.Paints.loop fun rowcnt (down : 0 ≤ rowcnt)
        (_ : rowcnt < (cfont.ySize / 8 : Nat)) =>
      View.Paints.loop fun cnt (across : 0 ≤ cnt) (_ : cnt < cfont.xSize) =>
        View.Paints.loop fun b (first : 0 ≤ b) (last : b < 8) =>
          bytePass_paints cfont whole left top c down across first last
    rw [printChar_whole cfont x y whole]
    refine passes.reshape fun point => ?_
    simp only [swept, SFont.box, Set.mem_inter_iff, Set.mem_ofPred_eq, Set.mem_singleton_iff]
    constructor
    · rintro ⟨rowcnt, down, more, cnt, across, right, b, first, last, rfl, on⟩
      exact ⟨⟨by omega, by omega, by omega, by omega⟩, on⟩
    · rintro ⟨⟨across, right, down, bottom⟩, on⟩
      refine ⟨(point.2 - y) / 8, by omega, by omega, point.1 - x, by omega, by omega,
        (point.2 - y) % 8, by omega, by omega, Prod.ext ?_ ?_, on⟩
      · simp only
        omega
      · simp only
        omega
  · have passes := View.Paints.loop fun cx (column : 0 ≤ cx) (_ : cx < cfont.xSize) =>
      View.Paints.loop fun cy (row : 0 ≤ cy) (_ : cy < cfont.ySize) =>
        packedPixel_paints cfont whole left top c column row
    rw [printChar_packed cfont x y whole]
    refine ((fontByte_paints cfont _ _).andThen passes).reshape fun point => ?_
    simp only [swept, SFont.box, Set.union_empty, Set.mem_inter_iff, Set.mem_ofPred_eq,
      Set.mem_singleton_iff]
    constructor
    · rintro ⟨cx, across, right, cy, down, bottom, rfl, on⟩
      exact ⟨⟨by omega, by omega, by omega, by omega⟩, on⟩
    · rintro ⟨⟨across, right, down, bottom⟩, on⟩
      refine ⟨point.1 - x, by omega, by omega, point.2 - y, by omega, by omega, Prod.ext ?_ ?_, on⟩
      · simp only
        omega
      · simp only
        omega

end Canvas

/-! ## Characters side by side -/

/-- The rows of a box in one column. -/
def SFont.strip (cfont : SFont) (y column : Int) : Set (Int × Int) :=
  {point | point.1 = column ∧ y ≤ point.2 ∧ point.2 < y + cfont.ySize}

/-- A box is its columns from left to right. -/
theorem SFont.box_eq_swept (cfont : SFont) (x y : Int) (characters : Nat) :
    cfont.box x y characters =
      swept (fun column => cfont.strip y (x + column)) 0 (characters * cfont.xSize) := by
  ext point
  simp only [box, strip, swept, Set.mem_ofPred_eq]
  constructor
  · rintro ⟨left, right, rows⟩
    exact ⟨point.1 - x, by omega, by omega, by omega, rows⟩
  · rintro ⟨column, first, last, place, rows⟩
    exact ⟨by omega, by omega, rows⟩

/-- The boxes of single characters make up the box of a text. -/
theorem SFont.swept_boxes (cfont : SFont) (x y : Int) (characters : Nat) :
    swept (fun cnt => cfont.box (x + cnt * cfont.xSize) y 1) 0 characters =
      cfont.box x y characters := by
  rw [box_eq_swept, ← swept_grid]
  simp only [box_eq_swept, Int.add_assoc, Int.natCast_one, Int.one_mul]

/-- Inside the box of a character, the picture of the text is its glyph. -/
theorem SFont.mem_textPicture (cfont : SFont) (mode : Int → Bool) (st : CString) {x y cnt : Int}
    {point : Int × Int} (inBox : point ∈ cfont.box (x + cnt * cfont.xSize) y 1) :
    point ∈ cfont.textPicture mode st x y ↔
      point ∈ (cfont.inMode (mode cnt)).glyphPicture (st.getD cnt.toNat 0)
        (x + cnt * cfont.xSize) y := by
  obtain ⟨left, right, -⟩ := inBox
  rw [Int.natCast_one, Int.one_mul] at right
  have wide : (0 : Int) < cfont.xSize := by omega
  have character : (point.1 - x) / cfont.xSize = cnt :=
    (Int.ediv_eq_iff_of_pos wide).mpr ⟨by omega, by omega⟩
  simp only [textPicture, Set.mem_ofPred_eq, character]

namespace Canvas

theorem printChars_paints (cfont : SFont) (mode : Int → Bool) (st : CString) {x y : Int}
    (left : 0 ≤ x) (top : 0 ≤ y) :
    canvasView.Paints (printChars cfont mode x y st) (cfont.box x y (strlen st) ∩ onScreen)
      (cfont.textPicture mode st x y) := by
  have character : ∀ cnt : Int, 0 ≤ cnt → cnt < strlen st →
      canvasView.Paints
        (printChar (cfont.inMode (mode cnt)) (x + cnt * cfont.xSize) y (st.getD cnt.toNat 0))
        (cfont.box (x + cnt * cfont.xSize) y 1 ∩ onScreen) (cfont.textPicture mode st x y) := by
    intro cnt first last
    have inside : 0 ≤ x + cnt * cfont.xSize :=
      Int.add_nonneg left (Int.mul_nonneg first (Int.natCast_nonneg _))
    refine (printChar_paints (cfont.inMode (mode cnt)) inside top _).recolour ?_
    exact fun point member => (cfont.mem_textPicture mode st member.1).symm
  refine (View.Paints.loop character).reshape fun point => ?_
  rw [← cfont.swept_boxes]
  simp only [swept, Set.mem_inter_iff, Set.mem_ofPred_eq]
  constructor
  · rintro ⟨cnt, first, last, inBox, on⟩
    exact ⟨⟨cnt, first, last, inBox⟩, on⟩
  · rintro ⟨⟨cnt, first, last, inBox⟩, on⟩
    exact ⟨cnt, first, last, inBox, on⟩

end Canvas

/-- A text that begins on the screen or beyond its right and lower edges is painted
in its box, in the font as it is in memory. No store misses the screen, and `cfont`
is left as it was. -/
theorem Glcd.printStringWithSelectedCharacter_paints (glcd : Glcd) {x y : Int} (st : CString)
    (selectedCharacter : Int) (left : 0 ≤ startColumn glcd.cfont x st) (top : 0 ≤ y)
    (sound : glcd.canvas.screen.faulted = false) :
    let after := glcd.printStringWithSelectedCharacter x y st selectedCharacter
    after.cfont = glcd.cfont ∧ after.canvas.screen.faulted = false ∧
      after.canvas.screen.picture =
        (glcd.cfont.box (startColumn glcd.cfont x st) y (strlen st) ∩ onScreen).ite
          (glcd.cfont.textPicture (invertedAt selectedCharacter glcd.cfont.inverted) st
            (startColumn glcd.cfont x st) y)
          glcd.canvas.screen.picture := by
  intro after
  have drawn : after = _ := glcd.printStringWithSelectedCharacter_eq x y st selectedCharacter
  rw [drawn]
  exact ⟨rfl, Canvas.printChars_paints glcd.cfont _ st left top glcd.canvas sound⟩

/-! ## The bytes a picture depends on -/

/-- A pixel of a glyph is a bit of one of the bytes read for it. -/
theorem SFont.glyphBit_congr (cfont : SFont) {memory : Int → BitVec 8} {c : UInt8}
    (agree : ∀ i ∈ cfont.glyphReads c, cfont.font i = memory i) {column row : Int}
    (across : 0 ≤ column ∧ column < cfont.xSize) (down : 0 ≤ row ∧ row < cfont.ySize) :
    cfont.glyphBit c column row = SFont.glyphBit { cfont with font := memory } c column row := by
  by_cases whole : cfont.ySize % 8 = 0
  · have line : (row / 8 + 1) * cfont.xSize ≤ ((cfont.ySize / 8 : Nat) : Int) * cfont.xSize :=
      Int.mul_le_mul_of_nonneg_right (by omega) (by omega)
    have start : 0 ≤ row / 8 * cfont.xSize := Int.mul_nonneg (by omega) (by omega)
    rw [Int.add_mul, Int.one_mul] at line
    have read : cfont.glyphStart c + (row / 8 * cfont.xSize + column) ∈ cfont.glyphReads c := by
      simp only [glyphReads, glyphBytes, if_pos whole, Set.mem_ofPred_eq, Int.natCast_mul,
        Int.mul_comm (cfont.xSize : Int)]
      omega
    simp only [glyphBit, if_pos whole, agree _ read]
    rfl
  · have line : (column + 1) * cfont.ySize ≤ (cfont.xSize : Int) * cfont.ySize :=
      Int.mul_le_mul_of_nonneg_right (by omega) (by omega)
    have start : 0 ≤ column * cfont.ySize := Int.mul_nonneg across.1 (by omega)
    rw [Int.add_mul, Int.one_mul] at line
    have read : cfont.glyphStart c + (column * cfont.ySize + row) / 8 ∈ cfont.glyphReads c := by
      simp only [glyphReads, glyphBytes, lookAhead, if_neg whole, Set.mem_ofPred_eq,
        Int.natCast_ediv, Int.natCast_mul]
      omega
    simp only [glyphBit, if_neg whole, agree _ read]
    rfl

/-- A text looks the same in two fonts that agree on the bytes read for it. -/
theorem SFont.textPicture_congr (cfont : SFont) {memory : Int → BitVec 8} {st : CString}
    (agree : ∀ c ∈ st.take (strlen st), ∀ i ∈ cfont.glyphReads c, cfont.font i = memory i)
    (mode : Int → Bool) {x y : Int} {point : Int × Int}
    (inBox : point ∈ cfont.box x y (strlen st)) :
    point ∈ cfont.textPicture mode st x y ↔
      point ∈ SFont.textPicture { cfont with font := memory } mode st x y := by
  rw [← swept_boxes] at inBox
  obtain ⟨cnt, first, last, inBox⟩ := inBox
  have character := agree _ (mem_take_strlen.mpr ⟨cnt, first, last, rfl⟩)
  obtain ⟨left, right, top, bottom⟩ := id inBox
  rw [Int.natCast_one, Int.one_mul] at right
  have across : 0 ≤ point.1 - (x + cnt * cfont.xSize) ∧
      point.1 - (x + cnt * cfont.xSize) < cfont.xSize := by omega
  have down : 0 ≤ point.2 - y ∧ point.2 - y < cfont.ySize := by omega
  have same := (cfont.inMode (mode cnt)).glyphBit_congr character across down
  rw [cfont.mem_textPicture mode st inBox,
    SFont.mem_textPicture { cfont with font := memory } mode st inBox]
  simp only [glyphPicture, Set.mem_ofPred_eq, same]
  rfl

namespace TextFont

theorem header_same (font : TextFont) (around other : Int → BitVec 8) :
    SFont.ofPointer (font.memory other) =
      { SFont.ofPointer (font.memory around) with font := font.memory other } := by
  cases font with
  | small => rfl
  | tiny => rfl

/-- A text its font covers has the same picture whatever lies around the font. -/
theorem covered_textPicture (font : TextFont) {st : CString}
    (covered : ∀ c ∈ st.take (strlen st), font.Covers c) (around other : Int → BitVec 8)
    (mode : Int → Bool) {x y : Int} {point : Int × Int}
    (inBox : point ∈ (SFont.ofPointer (font.memory around)).box x y (strlen st)) :
    point ∈ (SFont.ofPointer (font.memory around)).textPicture mode st x y ↔
      point ∈ (SFont.ofPointer (font.memory other)).textPicture mode st x y := by
  rw [font.header_same around other]
  refine SFont.textPicture_congr _ (fun c member i read => ?_) mode inBox
  have inside := (font.glyphReads_inside_iff around c).mpr (covered c member) i read
  have within : i.toNat < font.table.length := by omega
  simp only [SFont.ofPointer, memory, if_pos inside.1, List.getElem?_eq_getElem within,
    Option.getD_some]

/-- The picture after a text is drawn in one of the fonts. -/
theorem printString_picture (font : TextFont) (around : Int → BitVec 8) (mode : Bool) {x y : Int}
    (st : CString) (glcd : Glcd)
    (left : 0 ≤ Glcd.startColumn (SFont.ofPointer (font.memory around)) x st) (top : 0 ≤ y)
    (sound : glcd.canvas.screen.faulted = false) :
    (((glcd.setFont (font.memory around)).setTextModeInverted mode).printString
        x y st).canvas.screen.picture =
      ((SFont.ofPointer (font.memory around)).box
          (Glcd.startColumn (SFont.ofPointer (font.memory around)) x st) y (strlen st) ∩
        onScreen).ite
          ((SFont.ofPointer (font.memory around)).textPicture (Glcd.invertedAt (-1) mode) st
            (Glcd.startColumn (SFont.ofPointer (font.memory around)) x st) y)
          glcd.canvas.screen.picture :=
  (Glcd.printStringWithSelectedCharacter_paints
    ((glcd.setFont (font.memory around)).setTextModeInverted mode) st (-1) left top sound).2.2

/-- A text its font covers is drawn alike whatever lies around the font. -/
theorem covered_text_drawn_alike (font : TextFont) {st : CString}
    (covered : ∀ c ∈ st.take (strlen st), font.Covers c) (around other : Int → BitVec 8)
    (mode : Bool) {x y : Int} (glcd : Glcd)
    (left : 0 ≤ Glcd.startColumn (SFont.ofPointer (font.memory around)) x st) (top : 0 ≤ y)
    (sound : glcd.canvas.screen.faulted = false) :
    (((glcd.setFont (font.memory around)).setTextModeInverted mode).printString
        x y st).canvas.screen.picture =
      (((glcd.setFont (font.memory other)).setTextModeInverted mode).printString
        x y st).canvas.screen.picture := by
  have same := font.header_same around other
  have start : Glcd.startColumn (SFont.ofPointer (font.memory other)) x st =
      Glcd.startColumn (SFont.ofPointer (font.memory around)) x st := by
    rw [same]
    rfl
  have region : (SFont.ofPointer (font.memory other)).box =
      (SFont.ofPointer (font.memory around)).box := by
    rw [same]
    rfl
  rw [font.printString_picture around mode st glcd left top sound,
    font.printString_picture other mode st glcd (start ▸ left) top sound, start, region]
  ext point
  rw [mem_ite, mem_ite]
  by_cases inBox : point ∈ (SFont.ofPointer (font.memory around)).box
      (Glcd.startColumn (SFont.ofPointer (font.memory around)) x st) y (strlen st) ∩ onScreen
  · rw [font.covered_textPicture covered around other _ inBox.1]
  · simp only [inBox, false_and]

/-- The text `ARB 20` in the lower right corner of the screen, cut off at both edges. -/
theorem covered_text_drawn_alike_clipped :
    let glcd : Glcd :=
      { cfont := .ofPointer (TextFont.small.memory fun _ => 0)
        canvas := { screen := { scrbuf := Vector.replicate 2048 0 } } }
    let text : CString := [0x41, 0x52, 0x42, 0x20, 0x32, 0x30]
    (((glcd.setFont (TextFont.small.memory fun _ => 0)).setTextModeInverted true).printString
        110 124 text).canvas.screen.picture =
      (((glcd.setFont (TextFont.small.memory fun _ => 0xFF)).setTextModeInverted true).printString
        110 124 text).canvas.screen.picture := by
  intro glcd text
  have covered : ∀ c ∈ text.take (strlen text), TextFont.small.Covers c := by
    have checked : (text.take (strlen text)).all fun c => decide (0x20 ≤ c ∧ c ≤ 0x7E) := by
      decide
    intro c member
    have letter : 0x20 ≤ c ∧ c ≤ 0x7E := of_decide_eq_true (List.all_eq_true.mp checked c member)
    exact letter
  exact covered_text_drawn_alike .small covered _ _ _ _ (by decide) (by decide) rfl

end TextFont
end DDSFunctionGen.Lcd

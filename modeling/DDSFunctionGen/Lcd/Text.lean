import DDSFunctionGen.Lcd.Fonts
import DDSFunctionGen.Lcd.Picture
import DDSFunctionGen.SdCard.FatFs

/-!
# Drawing texts

`GLCD_PrintChar` indexes the font with the character, a signed `char`, less the
first character of the font. Fonts whose height is whole bytes are read byte by
byte. All others are read through a cursor that fetches the next byte as soon as
it has used up one, after the last bit of a glyph too. Every index read is
recorded.
-/

namespace DDSFunctionGen.Lcd

open DDSFunctionGen.Pictures DDSFunctionGen.SdCard DDSFunctionGen.Semantics

/-- The screen, and the indexes `cfont.font` has been read at, the last one first. -/
structure Canvas where
  screen : Screen
  reads : List Int := []

/-- `font_idx`, `cbyte` and `cbit` of `GLCD_PrintChar`. -/
structure GlyphCursor where
  fontIdx : Int
  cbyte : BitVec 8
  cbit : Int

namespace Canvas

/-- `cfont.font[i]` -/
def fontByte (cfont : SFont) (i : Int) (canvas : Canvas) : BitVec 8 × Canvas :=
  (cfont.font i, { canvas with reads := i :: canvas.reads })

/-- `GLCD_Pixel` of `byte & (1 << bit)`, or of its negation where the text is
inverted. -/
def glyphPixel (cfont : SFont) (x y : Int) (byte : BitVec 8) (bit : Int) (canvas : Canvas) :
    Canvas :=
  let pixelSet : Bool := byte &&& (1#8 <<< bit.toNat) ≠ 0
  { canvas with
    screen := canvas.screen.glcdPixel x y (if cfont.inverted then !pixelSet else pixelSet) }

/-- The innermost pass over a glyph of whole bytes. -/
def bytePass (cfont : SFont) (x y fontIdx rowcnt cnt b : Int) (canvas : Canvas) : Canvas :=
  let (byte, canvas) := canvas.fontByte cfont (fontIdx + cnt + rowcnt * cfont.xSize)
  canvas.glyphPixel cfont (x + cnt) (y + rowcnt * 8 + b) byte b

/-- The inner pass over a packed glyph. -/
def packedPass (cfont : SFont) (x y cx cy : Int) (pass : Canvas × GlyphCursor) :
    Canvas × GlyphCursor :=
  let (canvas, cursor) := pass
  let canvas := canvas.glyphPixel cfont (x + cx) (y + cy) cursor.cbyte cursor.cbit
  let cbit := cursor.cbit + 1
  if cbit = 8 then
    let fontIdx := cursor.fontIdx + 1
    let (cbyte, canvas) := canvas.fontByte cfont fontIdx
    (canvas, { fontIdx, cbyte, cbit := 0 })
  else (canvas, { cursor with cbit })

/-- `GLCD_PrintChar` -/
def printChar (cfont : SFont) (x y : Int) (c : UInt8) (canvas : Canvas) : Canvas :=
  let char := c.toBitVec.toInt
  if cfont.ySize % 8 = 0 then
    let fontIdx := (char - cfont.offset) * (cfont.xSize * (cfont.ySize / 8) : Nat) + 4
    countedLoop (fun rowcnt => countedLoop (fun cnt => countedLoop (fun b =>
      bytePass cfont x y fontIdx rowcnt cnt b) 0 8) 0 cfont.xSize) 0 (cfont.ySize / 8 : Nat) canvas
  else
    let fontIdx := (char - cfont.offset) * (cfont.xSize * cfont.ySize / 8 : Nat) + 4
    let (cbyte, canvas) := canvas.fontByte cfont fontIdx
    (countedLoop (fun cx => countedLoop (fun cy => packedPass cfont x y cx cy) 0 cfont.ySize)
      0 cfont.xSize (canvas, { fontIdx, cbyte, cbit := 0 })).1

end Canvas

/-- `strlen`: the bytes before the first zero. No text is longer than an `int` counts. -/
def strlen (st : CString) : Nat := st.idxOf 0

/-- `_TEXT_POS_RIGHT` -/
def textPosRight : Int := 9999

/-- `_TEXT_POS_CENTER` -/
def textPosCenter : Int := 9998

/-- `_NO_CURSOR` -/
def noCursor : Int := 9997

/-- What the text functions work on. -/
structure Glcd where
  cfont : SFont
  canvas : Canvas

namespace Glcd

/-- `GLCD_SetFont` -/
def setFont (font : Int → BitVec 8) (glcd : Glcd) : Glcd :=
  { glcd with cfont := .ofPointer font }

/-- `GLCD_SetTextModeInverted` -/
def setTextModeInverted (mode : Bool) (glcd : Glcd) : Glcd :=
  { glcd with cfont.inverted := mode }

/-- A pass of the loop over the characters. -/
def characterPass (x y : Int) (st : CString) (selectedCharacter : Int) (textMode : Bool) (cnt : Int)
    (glcd : Glcd) : Glcd :=
  let glcd :=
    if selectedCharacter ≠ noCursor then
      glcd.setTextModeInverted ((cnt = selectedCharacter : Bool) ^^ textMode)
    else glcd
  { glcd with
    canvas := glcd.canvas.printChar glcd.cfont (x + cnt * glcd.cfont.xSize) y
      (st.getD cnt.toNat 0) }

/-- `GLCD_PrintStringWithSelectedCharacter` -/
def printStringWithSelectedCharacter (x y : Int) (st : CString) (selectedCharacter : Int)
    (glcd : Glcd) : Glcd :=
  let stl : Int := strlen st
  let x := if x = textPosRight then lcdWidth - stl * glcd.cfont.xSize else x
  let x := if x = textPosCenter then (lcdWidth - stl * glcd.cfont.xSize).tdiv 2 else x
  let textMode := glcd.cfont.inverted
  let glcd := countedLoop (characterPass x y st selectedCharacter textMode) 0 stl glcd
  glcd.setTextModeInverted textMode

/-- `GLCD_PrintString` -/
def printString (x y : Int) (st : CString) (glcd : Glcd) : Glcd :=
  glcd.printStringWithSelectedCharacter x y st (-1)

end Glcd

/-! ## Glyphs -/

namespace SFont

/-- The bytes from one glyph to the next. -/
def glyphBytes (cfont : SFont) : Nat :=
  if cfont.ySize % 8 = 0 then cfont.xSize * (cfont.ySize / 8) else cfont.xSize * cfont.ySize / 8

/-- Where the glyph of a character begins. -/
def glyphStart (cfont : SFont) (c : UInt8) : Int :=
  (c.toBitVec.toInt - cfont.offset) * cfont.glyphBytes + 4

end SFont

/-- The cursor before pixel `n` of a glyph. -/
def SFont.cursorAt (cfont : SFont) (fontIdx n : Int) : GlyphCursor where
  fontIdx := fontIdx + n / 8
  cbyte := cfont.font (fontIdx + n / 8)
  cbit := n % 8

namespace Canvas

variable (cfont : SFont) (x y fontIdx : Int)

/-- A pass over a packed glyph, by the number of its pixel. -/
def packedPixel (cx cy : Int) (canvas : Canvas) : Canvas :=
  let n := cx * cfont.ySize + cy
  let canvas := canvas.glyphPixel cfont (x + cx) (y + cy) (cfont.font (fontIdx + n / 8)) (n % 8)
  if n % 8 = 7 then (canvas.fontByte cfont (fontIdx + n / 8 + 1)).2 else canvas

theorem packedPass_cursorAt (cx cy : Int) (canvas : Canvas) :
    packedPass cfont x y cx cy (canvas, cfont.cursorAt fontIdx (cx * cfont.ySize + cy)) =
      (packedPixel cfont x y fontIdx cx cy canvas,
        cfont.cursorAt fontIdx (cx * cfont.ySize + (cy + 1))) := by
  rw [← Int.add_assoc]
  generalize pixel : cx * cfont.ySize + cy = n
  have full : n % 8 + 1 = 8 ↔ n % 8 = 7 := by omega
  by_cases used : n % 8 = 7
  · have byte : fontIdx + (n + 1) / 8 = fontIdx + n / 8 + 1 := by omega
    have bit : (n + 1) % 8 = 0 := by omega
    simp only [packedPass, packedPixel, SFont.cursorAt, pixel, full, if_pos used, byte, bit,
      fontByte]
  · have byte : (n + 1) / 8 = n / 8 := by omega
    have bit : (n + 1) % 8 = n % 8 + 1 := by omega
    simp only [packedPass, packedPixel, SFont.cursorAt, pixel, full, if_neg used, byte, bit]

/-- The cursor of a packed glyph follows the number of pixels drawn. -/
theorem packedLoop_eq (canvas : Canvas) :
    (countedLoop (fun cx => countedLoop (fun cy => packedPass cfont x y cx cy) 0 cfont.ySize)
        0 cfont.xSize (canvas, cfont.cursorAt fontIdx 0)).1 =
      countedLoop (fun cx => countedLoop (fun cy => packedPixel cfont x y fontIdx cx cy)
        0 cfont.ySize) 0 cfont.xSize canvas := by
  let Column : Int → Canvas × GlyphCursor → Canvas → Prop := fun cx pass drawn =>
    pass = (drawn, cfont.cursorAt fontIdx (cx * cfont.ySize))
  suffices columns : Column cfont.xSize _ _ from congrArg Prod.fst columns
  refine countedLoop_related Column (Int.natCast_nonneg _) (by simp [Column]) ?_
  rintro cx _ drawn - - rfl
  let Row : Int → Canvas × GlyphCursor → Canvas → Prop := fun cy pass drawn =>
    pass = (drawn, cfont.cursorAt fontIdx (cx * cfont.ySize + cy))
  have columnEnd : (cx + 1) * (cfont.ySize : Int) = cx * cfont.ySize + cfont.ySize := by
    rw [Int.add_mul, Int.one_mul]
  suffices rows : Row cfont.ySize _ _ by simpa only [Column, columnEnd] using rows
  refine countedLoop_related Row (Int.natCast_nonneg _) (by simp [Row]) ?_
  rintro cy _ drawn - - rfl
  exact packedPass_cursorAt cfont x y fontIdx cx cy drawn

/-- `GLCD_PrintChar` with a font whose height is whole bytes. -/
theorem printChar_whole (whole : cfont.ySize % 8 = 0) (c : UInt8) :
    printChar cfont x y c =
      countedLoop (fun rowcnt => countedLoop (fun cnt => countedLoop (fun b =>
        bytePass cfont x y (cfont.glyphStart c) rowcnt cnt b) 0 8) 0 cfont.xSize)
          0 (cfont.ySize / 8 : Nat) := by
  have bytes : cfont.glyphBytes = cfont.xSize * (cfont.ySize / 8) := if_pos whole
  simp only [SFont.glyphStart, bytes]
  exact funext fun _ => if_pos whole

/-- `GLCD_PrintChar` with a packed font. -/
theorem printChar_packed (packed : ¬ cfont.ySize % 8 = 0) (c : UInt8) :
    printChar cfont x y c = fun canvas =>
      countedLoop (fun cx => countedLoop (fun cy =>
        packedPixel cfont x y (cfont.glyphStart c) cx cy) 0 cfont.ySize) 0 cfont.xSize
          (canvas.fontByte cfont (cfont.glyphStart c)).2 := by
  funext canvas
  have bytes : cfont.glyphBytes = cfont.xSize * cfont.ySize / 8 := if_neg packed
  have first : cfont.cursorAt (cfont.glyphStart c) 0 =
      { fontIdx := cfont.glyphStart c, cbyte := cfont.font (cfont.glyphStart c), cbit := 0 } := by
    simp [SFont.cursorAt]
  rw [← packedLoop_eq, first]
  simp only [SFont.glyphStart, bytes]
  exact if_neg packed

end Canvas

/-! ## Texts -/

/-- `cfont` with another value of `inverted`. -/
def SFont.inMode (cfont : SFont) (mode : Bool) : SFont := { cfont with inverted := mode }

/-- The characters of a text side by side, each in its mode. -/
def Canvas.printChars (cfont : SFont) (mode : Int → Bool) (x y : Int) (st : CString) :
    Canvas → Canvas :=
  countedLoop (fun cnt => printChar (cfont.inMode (mode cnt)) (x + cnt * cfont.xSize) y
    (st.getD cnt.toNat 0)) 0 (strlen st)

namespace Glcd

/-- Whether a character is drawn inverted. -/
def invertedAt (selectedCharacter : Int) (textMode : Bool) (cnt : Int) : Bool :=
  if selectedCharacter ≠ noCursor then (cnt = selectedCharacter : Bool) ^^ textMode else textMode

/-- The column a text starts in. -/
def startColumn (cfont : SFont) (x : Int) (st : CString) : Int :=
  let x := if x = textPosRight then lcdWidth - strlen st * cfont.xSize else x
  if x = textPosCenter then (lcdWidth - strlen st * cfont.xSize).tdiv 2 else x

/-- A pass draws its character and leaves `cfont` in the mode it was drawn in. -/
theorem characterPass_eq (cfont : SFont) {mode textMode : Bool} {selectedCharacter : Int}
    (plain : selectedCharacter = noCursor → mode = textMode) (x y cnt : Int) (st : CString)
    (canvas : Canvas) :
    characterPass x y st selectedCharacter textMode cnt { cfont := cfont.inMode mode, canvas } =
      { cfont := cfont.inMode (invertedAt selectedCharacter textMode cnt)
        canvas := canvas.printChar (cfont.inMode (invertedAt selectedCharacter textMode cnt))
          (x + cnt * cfont.xSize) y (st.getD cnt.toNat 0) } := by
  by_cases selects : selectedCharacter ≠ noCursor
  · simp only [characterPass, invertedAt, if_pos selects, setTextModeInverted, SFont.inMode]
  · obtain rfl := plain (not_not.mp selects)
    simp only [characterPass, invertedAt, if_neg selects, SFont.inMode]

/-- A text is drawn character by character, and `cfont` is left as it was. -/
theorem printStringWithSelectedCharacter_eq (x y : Int) (st : CString) (selectedCharacter : Int)
    (glcd : Glcd) :
    glcd.printStringWithSelectedCharacter x y st selectedCharacter =
      { glcd with
        canvas := glcd.canvas.printChars glcd.cfont
          (invertedAt selectedCharacter glcd.cfont.inverted)
          (startColumn glcd.cfont x st) y st } := by
  obtain ⟨cfont, canvas⟩ := glcd
  let Drawn : Int → Glcd → Canvas → Prop := fun _ after drawn =>
    ∃ mode, (selectedCharacter = noCursor → mode = cfont.inverted) ∧
      after = { cfont := cfont.inMode mode, canvas := drawn }
  have drawn : Drawn (strlen st)
      (countedLoop (characterPass (startColumn cfont x st) y st selectedCharacter cfont.inverted)
        0 (strlen st) { cfont, canvas })
      (canvas.printChars cfont (invertedAt selectedCharacter cfont.inverted)
        (startColumn cfont x st) y st) := by
    refine countedLoop_related Drawn (Int.natCast_nonneg _) ⟨_, fun _ => rfl, rfl⟩ ?_
    rintro cnt _ before - - ⟨mode, plain, rfl⟩
    refine ⟨invertedAt selectedCharacter cfont.inverted cnt, ?_,
      characterPass_eq cfont plain _ y cnt st before⟩
    intro none
    rw [invertedAt, if_neg (not_not.mpr none)]
  obtain ⟨mode, -, after⟩ := drawn
  simp only [printStringWithSelectedCharacter, startColumn] at after ⊢
  rw [after]
  rfl

end Glcd

theorem mem_take_strlen {st : CString} {c : UInt8} :
    c ∈ st.take (strlen st) ↔ ∃ cnt : Int, 0 ≤ cnt ∧ cnt < strlen st ∧ st.getD cnt.toNat 0 = c := by
  have within : strlen st ≤ st.length := List.idxOf_le_length
  rw [List.mem_take_iff_getElem]
  constructor
  · rintro ⟨cnt, inText, rfl⟩
    refine ⟨cnt, by omega, by omega, ?_⟩
    rw [Int.toNat_natCast, List.getD_eq_getElem?_getD, List.getElem?_eq_getElem, Option.getD_some]
  · rintro ⟨cnt, first, last, rfl⟩
    refine ⟨cnt.toNat, by omega, ?_⟩
    rw [List.getD_eq_getElem?_getD, List.getElem?_eq_getElem, Option.getD_some]

end DDSFunctionGen.Lcd

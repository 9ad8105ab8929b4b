import DDSFunctionGen.Semantics.CountedLoop

/-!
# Drawing into the screen buffer

`scrbuf` holds one pixel a bit, eight pixels of a column a byte. The drawing
functions of `GLCD.c` compute an index and a bit from `int` coordinates and
check neither. Storing outside the buffer, and shifting by a negative number, is
recorded as a fault; what memory holds after one is not modelled.
-/

namespace DDSFunctionGen.Lcd

open DDSFunctionGen.Semantics

/-- `_LCD_HEIGHT` -/
def lcdHeight : Int := 128

/-- `_LCD_WIDTH` -/
def lcdWidth : Int := 128

/-- `_GET_SCREEN_BUFFER_BYTE` -/
def screenBufferByte (x y : Int) : Int := y.tdiv 8 * lcdWidth + x

/-- `_GET_SCREEN_BUFFER_BIT`, which ignores the column. -/
def screenBufferBit (y : Int) : Int := y.tmod 8

/-- `scrbuf` of `_SCREEN_BUFFER_SIZE` bytes. -/
structure Screen where
  scrbuf : Vector (BitVec 8) 2048
  faulted : Bool := false

/-- `s_GLCD_Bitmap`: `data` is the memory from the pointer on. -/
structure Bitmap where
  width : Nat
  height : Nat
  data : Nat → BitVec 8

namespace Screen

/-- `scrbuf[i] = byte` -/
def store (byte : BitVec 8) (i : Int) (screen : Screen) : Screen :=
  if 0 ≤ i ∧ i < 2048 then
    { screen with scrbuf := screen.scrbuf.setIfInBounds i.toNat byte }
  else { screen with faulted := true }

/-- `scrbuf[byte] = operation(scrbuf[byte], 1 << bit)` for the byte and the bit of
a pixel. -/
def change (operation : BitVec 8 → BitVec 8 → BitVec 8) (x y : Int) (screen : Screen) : Screen :=
  let byte := screenBufferByte x y
  let bit := screenBufferBit y
  if 0 ≤ bit ∧ 0 ≤ byte ∧ byte < 2048 then
    { screen with
      scrbuf := screen.scrbuf.setIfInBounds byte.toNat
        (operation (screen.scrbuf[byte.toNat]?.getD 0) (1#8 <<< bit.toNat)) }
  else { screen with faulted := true }

/-- `GLCD_ClrScr` -/
def clrScr (screen : Screen) : Screen := countedLoop (store 0x00) 0 2048 screen

/-- `GLCD_FillScr` -/
def fillScr (screen : Screen) : Screen := countedLoop (store 0xFF) 0 2048 screen

/-- `GLCD_SPixel` -/
def sPixel (x y : Int) (screen : Screen) : Screen := screen.change (· ||| ·) x y

/-- `GLCD_CPixel` -/
def cPixel (x y : Int) (screen : Screen) : Screen :=
  screen.change (fun byte mask => byte &&& ~~~mask) x y

/-- `GLCD_Pixel` -/
def glcdPixel (x y : Int) (s : Bool) (screen : Screen) : Screen :=
  if x < lcdWidth ∧ y < lcdHeight then
    if s then screen.sPixel x y else screen.cPixel x y
  else screen

/-- `GLCD_InvPixel` -/
def invPixel (x y : Int) (screen : Screen) : Screen :=
  if x < lcdWidth ∧ y < lcdHeight then screen.change (· ^^^ ·) x y else screen

/-- `GLCD_SHLine` -/
def sHLine (x0 x1 y : Int) (screen : Screen) : Screen :=
  countedLoop (fun x => sPixel x y) x0 x1 screen

/-- `GLCD_CHLine` -/
def cHLine (x0 x1 y : Int) (screen : Screen) : Screen :=
  countedLoop (fun x => cPixel x y) x0 x1 screen

/-- `GLCD_HLine` -/
def hLine (x y l : Int) (s : Bool) (screen : Screen) : Screen :=
  if x < lcdWidth ∧ y < lcdHeight then
    let x1 := if lcdWidth < x + l then lcdWidth else x + l
    if s then screen.sHLine x x1 y else screen.cHLine x x1 y
  else screen

/-- `GLCD_SVLine` -/
def sVLine (x y0 y1 : Int) (screen : Screen) : Screen :=
  countedLoop (fun y => sPixel x y) y0 y1 screen

/-- `GLCD_CVLine` -/
def cVLine (x y0 y1 : Int) (screen : Screen) : Screen :=
  countedLoop (fun y => cPixel x y) y0 y1 screen

/-- `GLCD_VLine` -/
def vLine (x y l : Int) (s : Bool) (screen : Screen) : Screen :=
  if x < lcdWidth ∧ y < lcdHeight then
    let y1 := if lcdHeight < y + l then lcdHeight else y + l
    if s then screen.sVLine x y y1 else screen.cVLine x y y1
  else screen

end Screen

/-- `bitmap->data[nx + (ny / 8) * bitmap->width] & (1 << (7 - (ny % 8)))`, as a
truth value. -/
def Bitmap.pixel (bitmap : Bitmap) (nx ny : Int) : Bool :=
  bitmap.data (nx + ny.tdiv 8 * bitmap.width).toNat &&& (1#8 <<< (7 - ny.tmod 8).toNat) ≠ 0

/-- `GLCD_DrawBitmap` -/
def Screen.drawBitmap (x y : Int) (bitmap : Bitmap) (screen : Screen) : Screen :=
  countedLoop (fun ny => countedLoop (fun nx => glcdPixel (nx + x) (ny + y) (bitmap.pixel nx ny))
    0 bitmap.width) 0 bitmap.height screen

/-- A call of one of the drawing functions. -/
inductive DrawCall where
  | clrScr
  | fillScr
  | pixel (x y : Int) (s : Bool)
  | invPixel (x y : Int)
  | hLine (x y l : Int) (s : Bool)
  | vLine (x y l : Int) (s : Bool)
  | drawBitmap (x y : Int) (bitmap : Bitmap)

/-- What a call does to the screen buffer. -/
def Screen.call (screen : Screen) : DrawCall → Screen
  | .clrScr => screen.clrScr
  | .fillScr => screen.fillScr
  | .pixel x y s => screen.glcdPixel x y s
  | .invPixel x y => screen.invPixel x y
  | .hLine x y l s => screen.hLine x y l s
  | .vLine x y l s => screen.vLine x y l s
  | .drawBitmap x y bitmap => screen.drawBitmap x y bitmap

end DDSFunctionGen.Lcd

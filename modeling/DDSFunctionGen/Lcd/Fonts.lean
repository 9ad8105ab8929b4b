import DDSFunctionGen.Lcd.ScreenBuffer

/-!
# Fonts

A font is a header of four bytes followed by its glyphs. `GLCD_SetFont` copies
the header into `cfont` and keeps the pointer. The number of glyphs is copied
with it and never looked at again.
-/

namespace DDSFunctionGen.Lcd

/-- `SmallFont`: a byte is eight pixels of a column. -/
def smallFont : List (BitVec 8) :=
  [0x06, 0x08, 0x20, 0x5f,
    0x00, 0x00, 0x00, 0x00, 0x00, 0x00, 0x00, 0x00, 0x00, 0x2f, 0x00, 0x00,
    0x00, 0x00, 0x07, 0x00, 0x07, 0x00, 0x00, 0x14, 0x7f, 0x14, 0x7f, 0x14,
    0x00, 0x24, 0x2a, 0x7f, 0x2a, 0x12, 0x00, 0x23, 0x13, 0x08, 0x64, 0x62,
    0x00, 0x36, 0x49, 0x55, 0x22, 0x50, 0x00, 0x00, 0x05, 0x03, 0x00, 0x00,
    0x00, 0x00, 0x1c, 0x22, 0x41, 0x00, 0x00, 0x00, 0x41, 0x22, 0x1c, 0x00,
    0x00, 0x14, 0x08, 0x3E, 0x08, 0x14, 0x00, 0x08, 0x08, 0x3E, 0x08, 0x08,
    0x00, 0x00, 0x00, 0xA0, 0x60, 0x00, 0x00, 0x08, 0x08, 0x08, 0x08, 0x08,
    0x00, 0x00, 0x60, 0x60, 0x00, 0x00, 0x00, 0x20, 0x10, 0x08, 0x04, 0x02,
    0x00, 0x3E, 0x51, 0x49, 0x45, 0x3E, 0x00, 0x00, 0x42, 0x7F, 0x40, 0x00,
    0x00, 0x42, 0x61, 0x51, 0x49, 0x46, 0x00, 0x21, 0x41, 0x45, 0x4B, 0x31,
    0x00, 0x18, 0x14, 0x12, 0x7F, 0x10, 0x00, 0x27, 0x45, 0x45, 0x45, 0x39,
    0x00, 0x3C, 0x4A, 0x49, 0x49, 0x30, 0x00, 0x01, 0x71, 0x09, 0x05, 0x03,
    0x00, 0x36, 0x49, 0x49, 0x49, 0x36, 0x00, 0x06, 0x49, 0x49, 0x29, 0x1E,
    0x00, 0x00, 0x36, 0x36, 0x00, 0x00, 0x00, 0x00, 0x56, 0x36, 0x00, 0x00,
    0x00, 0x08, 0x14, 0x22, 0x41, 0x00, 0x00, 0x14, 0x14, 0x14, 0x14, 0x14,
    0x00, 0x00, 0x41, 0x22, 0x14, 0x08, 0x00, 0x02, 0x01, 0x51, 0x09, 0x06,
    0x00, 0x32, 0x49, 0x59, 0x51, 0x3E, 0x00, 0x7C, 0x12, 0x11, 0x12, 0x7C,
    0x00, 0x7F, 0x49, 0x49, 0x49, 0x36, 0x00, 0x3E, 0x41, 0x41, 0x41, 0x22,
    0x00, 0x7F, 0x41, 0x41, 0x22, 0x1C, 0x00, 0x7F, 0x49, 0x49, 0x49, 0x41,
    0x00, 0x7F, 0x09, 0x09, 0x09, 0x01, 0x00, 0x3E, 0x41, 0x49, 0x49, 0x7A,
    0x00, 0x7F, 0x08, 0x08, 0x08, 0x7F, 0x00, 0x00, 0x41, 0x7F, 0x41, 0x00,
    0x00, 0x20, 0x40, 0x41, 0x3F, 0x01, 0x00, 0x7F, 0x08, 0x14, 0x22, 0x41,
    0x00, 0x7F, 0x40, 0x40, 0x40, 0x40, 0x00, 0x7F, 0x02, 0x0C, 0x02, 0x7F,
    0x00, 0x7F, 0x04, 0x08, 0x10, 0x7F, 0x00, 0x3E, 0x41, 0x41, 0x41, 0x3E,
    0x00, 0x7F, 0x09, 0x09, 0x09, 0x06, 0x00, 0x3E, 0x41, 0x51, 0x21, 0x5E,
    0x00, 0x7F, 0x09, 0x19, 0x29, 0x46, 0x00, 0x46, 0x49, 0x49, 0x49, 0x31,
    0x00, 0x01, 0x01, 0x7F, 0x01, 0x01, 0x00, 0x3F, 0x40, 0x40, 0x40, 0x3F,
    0x00, 0x1F, 0x20, 0x40, 0x20, 0x1F, 0x00, 0x3F, 0x40, 0x38, 0x40, 0x3F,
    0x00, 0x63, 0x14, 0x08, 0x14, 0x63, 0x00, 0x07, 0x08, 0x70, 0x08, 0x07,
    0x00, 0x61, 0x51, 0x49, 0x45, 0x43, 0x00, 0x00, 0x7F, 0x41, 0x41, 0x00,
    0xAA, 0x55, 0xAA, 0x55, 0xAA, 0x55, 0x00, 0x00, 0x41, 0x41, 0x7F, 0x00,
    0x00, 0x04, 0x02, 0x01, 0x02, 0x04, 0x00, 0x40, 0x40, 0x40, 0x40, 0x40,
    0x00, 0x00, 0x03, 0x05, 0x00, 0x00, 0x00, 0x20, 0x54, 0x54, 0x54, 0x78,
    0x00, 0x7F, 0x48, 0x44, 0x44, 0x38, 0x00, 0x38, 0x44, 0x44, 0x44, 0x20,
    0x00, 0x38, 0x44, 0x44, 0x48, 0x7F, 0x00, 0x38, 0x54, 0x54, 0x54, 0x18,
    0x00, 0x08, 0x7E, 0x09, 0x01, 0x02, 0x00, 0x18, 0xA4, 0xA4, 0xA4, 0x7C,
    0x00, 0x7F, 0x08, 0x04, 0x04, 0x78, 0x00, 0x00, 0x44, 0x7D, 0x40, 0x00,
    0x00, 0x40, 0x80, 0x84, 0x7D, 0x00, 0x00, 0x7F, 0x10, 0x28, 0x44, 0x00,
    0x00, 0x00, 0x41, 0x7F, 0x40, 0x00, 0x00, 0x7C, 0x04, 0x18, 0x04, 0x78,
    0x00, 0x7C, 0x08, 0x04, 0x04, 0x78, 0x00, 0x38, 0x44, 0x44, 0x44, 0x38,
    0x00, 0xFC, 0x24, 0x24, 0x24, 0x18, 0x00, 0x18, 0x24, 0x24, 0x18, 0xFC,
    0x00, 0x7C, 0x08, 0x04, 0x04, 0x08, 0x00, 0x48, 0x54, 0x54, 0x54, 0x20,
    0x00, 0x04, 0x3F, 0x44, 0x40, 0x20, 0x00, 0x3C, 0x40, 0x40, 0x20, 0x7C,
    0x00, 0x1C, 0x20, 0x40, 0x20, 0x1C, 0x00, 0x3C, 0x40, 0x30, 0x40, 0x3C,
    0x00, 0x44, 0x28, 0x10, 0x28, 0x44, 0x00, 0x1C, 0xA0, 0xA0, 0xA0, 0x7C,
    0x00, 0x44, 0x64, 0x54, 0x4C, 0x44, 0x00, 0x00, 0x10, 0x7C, 0x82, 0x00,
    0x00, 0x00, 0x00, 0xFF, 0x00, 0x00, 0x00, 0x00, 0x82, 0x7C, 0x10, 0x00,
    0x00, 0x00, 0x06, 0x09, 0x09, 0x06]

/-- `TinyFont`: columns of six pixels, packed. -/
def tinyFont : List (BitVec 8) :=
  [0x04, 0x06, 0x20, 0x5f,
    0x00, 0x00, 0x00, 0xc0, 0x05, 0x00, 0x03, 0x30, 0x00, 0x9f, 0xf2, 0x01,
    0xd6, 0xd7, 0x00, 0x19, 0x31, 0x01, 0x4a, 0xa5, 0x01, 0xc0, 0x00, 0x00,
    0x80, 0x13, 0x01, 0x91, 0x03, 0x00, 0x0a, 0xa1, 0x00, 0x84, 0x43, 0x00,
    0x10, 0x02, 0x00, 0x04, 0x41, 0x00, 0x00, 0x04, 0x00, 0x18, 0x31, 0x00,
    0x5f, 0xf4, 0x01, 0xd2, 0x07, 0x01, 0x5a, 0x66, 0x01, 0x51, 0xa5, 0x00,
    0x07, 0xf1, 0x01, 0x57, 0xd5, 0x00, 0x4e, 0x95, 0x00, 0x59, 0x31, 0x00,
    0x5f, 0xf5, 0x01, 0x52, 0xe5, 0x00, 0x80, 0x02, 0x00, 0x90, 0x02, 0x00,
    0x84, 0x12, 0x01, 0x8a, 0xa2, 0x00, 0x91, 0x42, 0x00, 0x42, 0x66, 0x00,
    0x4e, 0x65, 0x01, 0x5e, 0xe1, 0x01, 0x5f, 0xa5, 0x00, 0x4e, 0xa4, 0x00,
    0x5f, 0xe4, 0x00, 0x5f, 0x15, 0x01, 0x5f, 0x11, 0x00, 0x4e, 0xd4, 0x00,
    0x1f, 0xf1, 0x01, 0xd1, 0x17, 0x01, 0xd1, 0x17, 0x00, 0x1f, 0xb1, 0x01,
    0x1f, 0x04, 0x01, 0x9f, 0xf0, 0x01, 0x9f, 0xf3, 0x01, 0x4e, 0xe4, 0x00,
    0x5f, 0x21, 0x00, 0x4e, 0xe4, 0x02, 0x5f, 0xa1, 0x01, 0x52, 0x95, 0x00,
    0xc1, 0x17, 0x00, 0x0f, 0xf4, 0x00, 0x07, 0x76, 0x00, 0x0f, 0xf7, 0x00,
    0x1b, 0xb1, 0x01, 0x03, 0x37, 0x00, 0x59, 0x35, 0x01, 0xc0, 0x17, 0x01,
    0x03, 0x81, 0x01, 0xd1, 0x07, 0x00, 0x42, 0x20, 0x00, 0x10, 0x04, 0x01,
    0x40, 0x20, 0x00, 0x8c, 0xc4, 0x01, 0x9f, 0xc4, 0x00, 0x8c, 0x24, 0x01,
    0x8c, 0xf4, 0x01, 0x8c, 0x46, 0x01, 0xc4, 0x57, 0x00, 0xa4, 0xca, 0x01,
    0x9f, 0xc0, 0x01, 0x40, 0x07, 0x00, 0x60, 0x07, 0x00, 0x1f, 0x42, 0x01,
    0xc0, 0x07, 0x00, 0x9e, 0xe1, 0x01, 0x9c, 0xc0, 0x01, 0x8c, 0xc4, 0x00,
    0xbe, 0xc4, 0x00, 0x8c, 0xe4, 0x03, 0x1e, 0x21, 0x00, 0x94, 0x02, 0x00,
    0xc2, 0x27, 0x00, 0x0e, 0xe4, 0x00, 0x06, 0x66, 0x00, 0x0e, 0xe6, 0x00,
    0x12, 0x23, 0x01, 0x2e, 0xea, 0x01, 0x9a, 0x67, 0x01, 0xc4, 0x17, 0x01,
    0xc0, 0x06, 0x00, 0xd1, 0x47, 0x00, 0x86, 0x30, 0x00]

/-- `_FONT_SMALL` and `_FONT_TINY`, in which texts are drawn. -/
inductive TextFont where
  | small
  | tiny
deriving DecidableEq, Repr

/-- The array of a font. -/
def TextFont.table : TextFont → List (BitVec 8)
  | .small => smallFont
  | .tiny => tinyFont

/-- The memory a pointer to a font is indexed into: the array, and whatever lies
around it. -/
def TextFont.memory (font : TextFont) (around : Int → BitVec 8) (i : Int) : BitVec 8 :=
  if 0 ≤ i then font.table[i.toNat]?.getD (around i) else around i

/-- `s_Font`: `font` is the memory around the pointer. -/
structure SFont where
  xSize : Nat
  ySize : Nat
  offset : Nat
  numchars : Nat
  font : Int → BitVec 8
  inverted : Bool

/-- What `GLCD_SetFont` stores in `cfont`. -/
def SFont.ofPointer (font : Int → BitVec 8) : SFont where
  xSize := (font 0).toNat
  ySize := (font 1).toNat
  offset := (font 2).toNat
  numchars := (font 3).toNat
  font
  inverted := false

theorem length_smallFont : smallFont.length = 574 := by decide +kernel

theorem length_tinyFont : tinyFont.length = 289 := by decide +kernel

theorem ofPointer_small (around : Int → BitVec 8) :
    SFont.ofPointer (TextFont.small.memory around) =
      { xSize := 6, ySize := 8, offset := 32, numchars := 95, font := TextFont.small.memory around,
        inverted := false } := rfl

theorem ofPointer_tiny (around : Int → BitVec 8) :
    SFont.ofPointer (TextFont.tiny.memory around) =
      { xSize := 4, ySize := 6, offset := 32, numchars := 95, font := TextFont.tiny.memory around,
        inverted := false } := rfl

end DDSFunctionGen.Lcd

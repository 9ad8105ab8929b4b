import DDSFunctionGen.Lcd.Text

/-!
# Reading inside the font

A text reads, for each of its characters, the bytes of one glyph, and one byte
more where glyphs are packed. No character is compared with the number of glyphs
on the way: which characters keep the reads inside the array of their font is a
matter of the two layouts.
-/

namespace DDSFunctionGen.Lcd

open DDSFunctionGen.Pictures DDSFunctionGen.SdCard DDSFunctionGen.Semantics

namespace SFont

/-- The bytes read after a glyph. -/
def lookAhead (cfont : SFont) : Nat := if cfont.ySize % 8 = 0 then 0 else 1

/-- The indexes at which the glyph of a character is read. -/
def glyphReads (cfont : SFont) (c : UInt8) : Set Int :=
  {i | cfont.glyphStart c ≤ i ∧ i < cfont.glyphStart c + cfont.glyphBytes + cfont.lookAhead}

end SFont

/-- The indexes read, as a picture. -/
def readView : View Canvas Int where
  Sound _ := True
  picture canvas := {i | i ∈ canvas.reads}

/-- An operation that reads the font at some indexes. -/
abbrev Reads (operation : Canvas → Canvas) (indexes : Set Int) : Prop :=
  readView.Paints operation indexes Set.univ

theorem Reads.mem {operation : Canvas → Canvas} {indexes : Set Int}
    (reads : Reads operation indexes) (canvas : Canvas) (i : Int) :
    i ∈ (operation canvas).reads ↔ i ∈ indexes ∨ i ∈ canvas.reads := by
  have picture := (reads canvas trivial).2
  have member : i ∈ readView.picture (operation canvas) ↔
      i ∈ indexes.ite Set.univ (readView.picture canvas) := by rw [picture]
  rw [mem_ite] at member
  simp only [readView, Set.mem_ofPred_eq, Set.mem_univ] at member
  tauto

namespace Canvas

variable (cfont : SFont) (x y : Int)

theorem fontByte_reads (i : Int) : Reads (fun canvas => (canvas.fontByte cfont i).2) {i} := by
  intro canvas sound
  refine ⟨sound, ?_⟩
  ext index
  rw [mem_ite]
  simp only [readView, fontByte, List.mem_cons, Set.mem_ofPred_eq, Set.mem_singleton_iff,
    Set.mem_univ]
  tauto

theorem glyphPixel_reads (byte : BitVec 8) (bit : Int) :
    Reads (glyphPixel cfont x y byte bit) ∅ := by
  intro canvas sound
  exact ⟨sound, (Set.ite_empty Set.univ _).symm⟩

theorem bytePass_reads (fontIdx rowcnt cnt b : Int) :
    Reads (bytePass cfont x y fontIdx rowcnt cnt b) {fontIdx + (rowcnt * cfont.xSize + cnt)} := by
  have place : fontIdx + cnt + rowcnt * cfont.xSize = fontIdx + (rowcnt * cfont.xSize + cnt) := by
    omega
  refine ((fontByte_reads cfont _).andThen (glyphPixel_reads cfont _ _ _ b)).reshape fun i => ?_
  rw [place, Set.empty_union]

theorem packedPixel_reads (fontIdx cx cy : Int) :
    Reads (packedPixel cfont x y fontIdx cx cy)
      {i | (cx * cfont.ySize + cy) % 8 = 7 ∧ i = fontIdx + (cx * cfont.ySize + cy) / 8 + 1} := by
  by_cases used : (cx * cfont.ySize + cy) % 8 = 7
  · have fetches : packedPixel cfont x y fontIdx cx cy = fun canvas =>
        ((canvas.glyphPixel cfont (x + cx) (y + cy)
          (cfont.font (fontIdx + (cx * cfont.ySize + cy) / 8))
          ((cx * cfont.ySize + cy) % 8)).fontByte cfont
            (fontIdx + (cx * cfont.ySize + cy) / 8 + 1)).2 := funext fun _ => if_pos used
    rw [fetches]
    refine ((glyphPixel_reads cfont _ _ _ _).andThen (fontByte_reads cfont _)).reshape fun i => ?_
    simp [used]
  · have stays : packedPixel cfont x y fontIdx cx cy =
        glyphPixel cfont (x + cx) (y + cy) (cfont.font (fontIdx + (cx * cfont.ySize + cy) / 8))
          ((cx * cfont.ySize + cy) % 8) := funext fun _ => if_neg used
    rw [stays]
    refine (glyphPixel_reads cfont _ _ _ _).reshape fun i => ?_
    simp [used]

/-- A glyph of whole bytes is read from its first byte to its last. -/
theorem bytes_read (fontIdx : Int) (rows : Nat) :
    Reads (countedLoop (fun rowcnt => countedLoop (fun cnt => countedLoop (fun b =>
        bytePass cfont x y fontIdx rowcnt cnt b) 0 8) 0 cfont.xSize) 0 rows)
      {i | fontIdx ≤ i ∧ i < fontIdx + (cfont.xSize * rows : Nat)} := by
  have passes := View.Paints.loop fun rowcnt (_ : 0 ≤ rowcnt) (_ : rowcnt < rows) =>
    View.Paints.loop fun cnt (_ : 0 ≤ cnt) (_ : cnt < cfont.xSize) =>
      View.Paints.loop fun b (_ : 0 ≤ b) (_ : b < 8) =>
        bytePass_reads cfont x y fontIdx rowcnt cnt b
  have oneByte : ∀ i, swept (fun _ => ({i} : Set Int)) 0 8 = {i} := by
    intro i
    ext index
    simp only [swept, Set.mem_ofPred_eq, Set.mem_singleton_iff]
    constructor
    · rintro ⟨b, first, last, same⟩
      exact same
    · intro same
      exact ⟨0, by omega, by omega, same⟩
  simp only [oneByte] at passes
  rw [swept_grid (fun n => {fontIdx + n})] at passes
  refine passes.reshape fun i => ?_
  simp only [swept, Set.mem_ofPred_eq, Set.mem_singleton_iff, Int.natCast_mul,
    Int.mul_comm (rows : Int)]
  constructor
  · rintro ⟨n, first, last, rfl⟩
    omega
  · rintro ⟨first, last⟩
    exact ⟨i - fontIdx, by omega, by omega, by omega⟩

/-- A packed glyph is read from its first byte to the one after its last whole byte. -/
theorem packed_read (fontIdx : Int) :
    Reads (fun canvas => countedLoop (fun cx => countedLoop (fun cy =>
        packedPixel cfont x y fontIdx cx cy) 0 cfont.ySize) 0 cfont.xSize
          (canvas.fontByte cfont fontIdx).2)
      {i | fontIdx ≤ i ∧ i < fontIdx + (cfont.xSize * cfont.ySize / 8 : Nat) + 1} := by
  have passes := View.Paints.loop fun cx (_ : 0 ≤ cx) (_ : cx < cfont.xSize) =>
    View.Paints.loop fun cy (_ : 0 ≤ cy) (_ : cy < cfont.ySize) =>
      packedPixel_reads cfont x y fontIdx cx cy
  rw [swept_grid (fun n => {i | n % 8 = 7 ∧ i = fontIdx + n / 8 + 1})] at passes
  refine ((fontByte_reads cfont fontIdx).andThen passes).reshape fun i => ?_
  simp only [swept, Set.mem_union, Set.mem_ofPred_eq, Set.mem_singleton_iff]
  constructor
  · rintro (⟨n, first, last, used, rfl⟩ | rfl)
    · omega
    · omega
  · rintro ⟨first, last⟩
    by_cases start : i = fontIdx
    · exact .inr start
    · exact .inl ⟨8 * (i - fontIdx) - 1, by omega, by omega, by omega, by omega⟩

/-- `GLCD_PrintChar` reads the bytes of one glyph, and the byte after a packed one. -/
theorem printChar_reads (c : UInt8) : Reads (printChar cfont x y c) (cfont.glyphReads c) := by
  by_cases whole : cfont.ySize % 8 = 0
  · rw [printChar_whole cfont x y whole]
    refine (bytes_read cfont x y _ _).reshape fun i => ?_
    simp [SFont.glyphReads, SFont.lookAhead, SFont.glyphBytes, whole]
  · rw [printChar_packed cfont x y whole]
    refine (packed_read cfont x y _).reshape fun i => ?_
    simp [SFont.glyphReads, SFont.lookAhead, SFont.glyphBytes, whole]

end Canvas

/-- A text reads the glyphs of its characters. -/
theorem Canvas.printChars_reads (cfont : SFont) (mode : Int → Bool) (x y : Int) (st : CString) :
    Reads (printChars cfont mode x y st)
      {i | ∃ c ∈ st.take (strlen st), i ∈ cfont.glyphReads c} := by
  have passes := View.Paints.loop fun cnt (_ : 0 ≤ cnt) (_ : cnt < strlen st) =>
    printChar_reads (cfont.inMode (mode cnt)) (x + cnt * cfont.xSize) y (st.getD cnt.toNat 0)
  refine passes.reshape fun i => ?_
  simp only [swept, Set.mem_ofPred_eq, mem_take_strlen]
  constructor
  · rintro ⟨cnt, first, last, read⟩
    exact ⟨_, ⟨cnt, first, last, rfl⟩, read⟩
  · rintro ⟨_, ⟨cnt, first, last, rfl⟩, read⟩
    exact ⟨cnt, first, last, read⟩

/-! ## The two fonts -/

theorem interval_inside_iff {first length size : Int} (nonempty : 0 < length) :
    (∀ i, first ≤ i ∧ i < first + length → 0 ≤ i ∧ i < size) ↔
      0 ≤ first ∧ first + length ≤ size := by
  constructor
  · intro inside
    have start := inside first ⟨by omega, by omega⟩
    have last := inside (first + length - 1) ⟨by omega, by omega⟩
    omega
  · rintro ⟨start, stop⟩ i ⟨above, below⟩
    omega

/-- Of glyphs in a row, those that leave room for one more byte. -/
theorem glyph_end_iff {bytes : Nat} (positive : 0 < bytes) {ahead : Int}
    (oneByte : ahead = 0 ∨ ahead = 1) (place glyphs : Int) :
    place * bytes + bytes + ahead ≤ glyphs * bytes ↔ place + ahead < glyphs := by
  constructor
  · intro ends
    by_contra beyond
    have behind : glyphs * bytes ≤ (place + ahead) * bytes :=
      Int.mul_le_mul_of_nonneg_right (by omega) (by omega)
    rw [Int.add_mul] at behind
    rcases oneByte with rfl | rfl
    · omega
    · omega
  · intro before
    have behind : (place + ahead + 1) * bytes ≤ glyphs * bytes :=
      Int.mul_le_mul_of_nonneg_right (by omega) (by omega)
    rw [Int.add_mul, Int.add_mul] at behind
    rcases oneByte with rfl | rfl
    · omega
    · omega

/-- Where the reads of one glyph stay inside an array of so many glyphs. -/
theorem SFont.glyphReads_inside_iff (cfont : SFont) (positive : 0 < cfont.glyphBytes) (c : UInt8)
    (glyphs : Nat) :
    (∀ i ∈ cfont.glyphReads c, 0 ≤ i ∧ i < (4 + glyphs * cfont.glyphBytes : Nat)) ↔
      0 ≤ cfont.glyphStart c ∧ c.toBitVec.toInt - cfont.offset + cfont.lookAhead < glyphs := by
  have oneByte : (cfont.lookAhead : Int) = 0 ∨ (cfont.lookAhead : Int) = 1 := by
    unfold lookAhead
    split
    · exact .inl rfl
    · exact .inr rfl
  have nonempty : (0 : Int) < cfont.glyphBytes + cfont.lookAhead := by omega
  simp only [glyphReads, Set.mem_ofPred_eq, Int.add_assoc]
  rw [interval_inside_iff nonempty, ← glyph_end_iff positive oneByte]
  simp only [glyphStart, Int.natCast_add, Int.natCast_mul]
  omega

namespace TextFont

/-- The characters whose reads stay inside the array. Nothing follows the last
glyph of the packed font, and what would be the glyph before its first one begins
inside the header. -/
def Covers (c : UInt8) : TextFont → Prop
  | .small => 0x20 ≤ c ∧ c ≤ 0x7E
  | .tiny => 0x1F ≤ c ∧ c ≤ 0x7D

/-- An array is a header and the glyphs the header announces. -/
theorem length_table (font : TextFont) (around : Int → BitVec 8) :
    font.table.length = 4 + (SFont.ofPointer (font.memory around)).numchars *
      (SFont.ofPointer (font.memory around)).glyphBytes := by
  cases font with
  | small => simp [table, length_smallFont, ofPointer_small, SFont.glyphBytes]
  | tiny => simp [table, length_tinyFont, ofPointer_tiny, SFont.glyphBytes]

/-- A byte as a signed `char`. -/
theorem toInt_char (c : UInt8) :
    c.toBitVec.toInt = if c.toNat < 128 then (c.toNat : Int) else c.toNat - 256 := by
  rw [BitVec.toInt_eq_toNat_cond, UInt8.toNat_toBitVec]
  split <;> split <;> omega

theorem covers_iff (font : TextFont) (around : Int → BitVec 8) (c : UInt8) :
    font.Covers c ↔
      0 ≤ (SFont.ofPointer (font.memory around)).glyphStart c ∧
        c.toBitVec.toInt - (SFont.ofPointer (font.memory around)).offset +
          (SFont.ofPointer (font.memory around)).lookAhead <
            (SFont.ofPointer (font.memory around)).numchars := by
  have byte := c.toNat_lt
  cases font with
  | small =>
      simp only [Covers, ofPointer_small, SFont.glyphStart, SFont.glyphBytes, SFont.lookAhead,
        UInt8.le_iff_toNat_le, toInt_char, UInt8.reduceToNat, Nat.reduceMod, if_true]
      split
      · omega
      · omega
  | tiny =>
      simp only [Covers, ofPointer_tiny, SFont.glyphStart, SFont.glyphBytes, SFont.lookAhead,
        UInt8.le_iff_toNat_le, toInt_char, UInt8.reduceToNat, Nat.reduceMod, Nat.reduceEqDiff,
        if_false]
      split
      · omega
      · omega

/-- The characters a font covers are those it is read inside for. -/
theorem glyphReads_inside_iff (font : TextFont) (around : Int → BitVec 8) (c : UInt8) :
    (∀ i ∈ (SFont.ofPointer (font.memory around)).glyphReads c, 0 ≤ i ∧ i < font.table.length) ↔
      font.Covers c := by
  rw [length_table font around, SFont.glyphReads_inside_iff _ ?_, ← covers_iff]
  cases font with
  | small => simp [ofPointer_small, SFont.glyphBytes]
  | tiny => simp [ofPointer_tiny, SFont.glyphBytes]

end TextFont

/-! ## Texts -/

/-- The indexes the font is read at while an operation draws. -/
def Glcd.readsOf (operation : Glcd → Glcd) (glcd : Glcd) : List Int :=
  (operation { glcd with canvas.reads := [] }).canvas.reads

/-- `GLCD_PrintString` reads the glyphs of the characters of the text. -/
theorem Glcd.mem_readsOf_printString (x y : Int) (st : CString) (glcd : Glcd) (i : Int) :
    i ∈ glcd.readsOf (printString x y st) ↔
      ∃ c ∈ st.take (strlen st), i ∈ glcd.cfont.glyphReads c := by
  rw [readsOf, printString, printStringWithSelectedCharacter_eq]
  refine ((Canvas.printChars_reads _ _ _ y st).mem _ i).trans ?_
  simp

namespace TextFont

/-- Every index at which a text drawn in a font reads the font lies inside the
array of the font. -/
def ReadsInside (font : TextFont) (around : Int → BitVec 8) (mode : Bool) (x y : Int)
    (st : CString) (glcd : Glcd) : Prop :=
  ∀ i ∈ ((glcd.setFont (font.memory around)).setTextModeInverted mode).readsOf
    (Glcd.printString x y st), 0 ≤ i ∧ i < font.table.length

/-- A text is read inside its font if and only if the font covers its characters,
wherever it is drawn and whatever lies around the font. -/
theorem text_reads_inside_iff (font : TextFont) (around : Int → BitVec 8) (mode : Bool) (x y : Int)
    (st : CString) (glcd : Glcd) :
    font.ReadsInside around mode x y st glcd ↔ ∀ c ∈ st.take (strlen st), font.Covers c := by
  simp only [ReadsInside, Glcd.mem_readsOf_printString, ← font.glyphReads_inside_iff around]
  constructor
  · intro inside c member i read
    exact inside i ⟨c, member, read⟩
  · rintro inside i ⟨c, member, read⟩
    exact inside c member i read

/-- A file name in code page 932, and a tilde in the packed font. -/
theorem text_reads_outside :
    ¬ ReadsInside .small (fun _ => 0) false 10 56 [0x83, 0x65, 0x2E, 0x57, 0x41, 0x56]
        { cfont := .ofPointer (TextFont.small.memory fun _ => 0)
          canvas := { screen := { scrbuf := Vector.replicate 2048 0 } } } ∧
      ¬ ReadsInside .tiny (fun _ => 0) false 0 0 [0x7E]
        { cfont := .ofPointer (TextFont.small.memory fun _ => 0)
          canvas := { screen := { scrbuf := Vector.replicate 2048 0 } } } := by
  constructor
  · intro inside
    have before := inside (-938) ((Glcd.mem_readsOf_printString _ _ _ _ _).mpr
      ⟨0x83, by decide, by decide, by decide⟩)
    exact absurd before.1 (by decide)
  · intro inside
    have behind := inside 289 ((Glcd.mem_readsOf_printString _ _ _ _ _).mpr
      ⟨0x7E, by decide, by decide, by decide⟩)
    rw [table, length_tinyFont] at behind
    exact absurd behind.2 (by decide)

end TextFont
end DDSFunctionGen.Lcd

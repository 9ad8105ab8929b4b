import DDSFunctionGen.Lcd.Bus

/-!
# The software path of a screen update

`write_command` and `write_data` drive the bus one PIO access at a time. The
update writes the buffer page by page, each byte four times.
-/

namespace DDSFunctionGen.Lcd

/-- The bus as the CPU drives it, with the strobes it has given. -/
structure LcdTrace where
  bus : LcdBus
  strobes : List Strobe := []
deriving DecidableEq, Repr

namespace LcdTrace

/-- The bus changes. -/
def drive (trace : LcdTrace) (bus : LcdBus) : LcdTrace where
  bus := bus
  strobes := trace.strobes ++ strobe trace.bus bus

/-- `_LCD_CS`, `_LCD_A0`, `_LCD_RW` and `_LCD_E`. -/
def lcdCS : BitVec 5 := 1 <<< 0
def lcdA0 : BitVec 5 := 1 <<< 2
def lcdRW : BitVec 5 := 1 <<< 3
def lcdE : BitVec 5 := 1 <<< 4

/-- `_LCD_SET_CONTROL_BIT`. -/
def setControlBit (mask : BitVec 5) (trace : LcdTrace) : LcdTrace :=
  trace.drive { trace.bus with control := trace.bus.control ||| mask }

/-- `_LCD_CLR_CONTROL_BIT`. -/
def clearControlBit (mask : BitVec 5) (trace : LcdTrace) : LcdTrace :=
  trace.drive { trace.bus with control := trace.bus.control &&& ~~~mask }

/-- `_LCD_SEND_DATA`. -/
def sendData (data : BitVec 8) (trace : LcdTrace) : LcdTrace :=
  trace.drive { trace.bus with data }

/-- `write_data`. -/
def writeData (data : BitVec 8) (trace : LcdTrace) : LcdTrace :=
  trace |> setControlBit lcdA0 |> clearControlBit lcdRW |> clearControlBit lcdCS
    |> setControlBit lcdE |> sendData data |> clearControlBit lcdE |> setControlBit lcdCS

/-- `write_command`. -/
def writeCommand (data : BitVec 8) (trace : LcdTrace) : LcdTrace :=
  trace |> clearControlBit lcdA0 |> clearControlBit lcdRW |> clearControlBit lcdCS
    |> setControlBit lcdE |> sendData data |> clearControlBit lcdE |> setControlBit lcdCS

/-- The inner loop over `columns` columns, ended where the bytes end; with the
bytes left over. -/
def updateColumns (trace : LcdTrace) : Nat → List (BitVec 8) → LcdTrace × List (BitVec 8)
  | 0, bytes => (trace, bytes)
  | _ + 1, [] => (trace, [])
  | columns + 1, byte :: bytes =>
      let trace := trace |> writeData byte |> writeData byte |> writeData byte |> writeData byte
      updateColumns trace columns bytes

/-- The outer loop over `pages` pages from `page` on, ended where the bytes end. -/
def updatePages (trace : LcdTrace) (page : BitVec 8) : Nat → List (BitVec 8) → LcdTrace
  | 0, _ => trace
  | _ + 1, [] => trace
  | pages + 1, byte :: bytes =>
      let trace := trace |> writeCommand page |> writeCommand 0x10 |> writeCommand 0x04
      let (trace, rest) := trace.updateColumns 128 (byte :: bytes)
      updatePages trace (page + 1) pages rest

/-- The branch of `LCD_NHD_C128128_Update` without DMA, on the first bytes of
the screen buffer: the loop `for (page = 0xB0; page < 0xC0; page++)`. -/
def lcdUpdate (trace : LcdTrace) (bytes : List (BitVec 8)) : LcdTrace :=
  trace.updatePages 0xB0 16 bytes

end LcdTrace

/-- The commands that select a page. -/
def pageCommands (page : Nat) : List Strobe :=
  [command (BitVec.ofNat 8 (0xB0 + page)), command 0x10, command 0x04]

/-- The strobes for bytes written from `index` on. -/
def updateStrobes (index : Nat) : List (BitVec 8) → List Strobe
  | [] => []
  | byte :: bytes =>
      (if index % 128 = 0 then pageCommands (index / 128) else []) ++
        List.replicate 4 (displayData byte) ++ updateStrobes (index + 1) bytes

namespace LcdTrace

variable (trace : LcdTrace)

theorem writeData_strobes (data : BitVec 8) :
    (trace.writeData data).strobes = trace.strobes ++ [displayData data] := by
  simp [writeData, setControlBit, clearControlBit, sendData, drive, strobe, LcdBus.enable,
    LcdBus.a0, lcdA0, lcdRW, lcdCS, lcdE, displayData]

theorem writeCommand_strobes (data : BitVec 8) :
    (trace.writeCommand data).strobes = trace.strobes ++ [command data] := by
  simp [writeCommand, setControlBit, clearControlBit, sendData, drive, strobe, LcdBus.enable,
    LcdBus.a0, lcdA0, lcdRW, lcdCS, lcdE, command]

/-- The inner loop writes the bytes of one page, each four times. -/
theorem updateColumns_spec (columns : Nat) (bytes : List (BitVec 8)) :
    (trace.updateColumns columns bytes).1.strobes =
        trace.strobes ++ (bytes.take columns).flatMap (List.replicate 4 ∘ displayData) ∧
      (trace.updateColumns columns bytes).2 = bytes.drop columns := by
  induction columns generalizing trace bytes with
  | zero => simp [updateColumns]
  | succ columns inductionHypothesis =>
      cases bytes with
      | nil => simp [updateColumns]
      | cons byte bytes =>
          obtain ⟨strobes, rest⟩ := inductionHypothesis
            (trace |> writeData byte |> writeData byte |> writeData byte |> writeData byte) bytes
          refine ⟨?_, rest⟩
          rw [updateColumns, strobes]
          simp [writeData_strobes, List.replicate]

end LcdTrace

/-- Bytes that do not start a page are written up to the page's end, then the
next page starts. -/
theorem updateStrobes_within_page (page : Nat) {column : Nat} (positive : 0 < column)
    (inPage : column ≤ 128) (bytes : List (BitVec 8)) :
    updateStrobes (128 * page + column) bytes =
      (bytes.take (128 - column)).flatMap (List.replicate 4 ∘ displayData) ++
        updateStrobes (128 * (page + 1)) (bytes.drop (128 - column)) := by
  induction bytes generalizing column with
  | nil => simp [updateStrobes]
  | cons byte bytes inductionHypothesis =>
      by_cases last : column = 128
      · subst last
        simp [Nat.mul_add]
      · have more : 128 - column = 128 - (column + 1) + 1 := by omega
        have started : ¬ (128 * page + column) % 128 = 0 := by omega
        rw [updateStrobes, if_neg started, Nat.add_assoc,
          inductionHypothesis (Nat.succ_pos column) (by omega), more, List.take_succ_cons,
          List.drop_succ_cons, List.flatMap_cons]
        simp

/-- A page is its commands followed by its bytes. -/
theorem updateStrobes_page (page : Nat) (byte : BitVec 8) (bytes : List (BitVec 8)) :
    updateStrobes (128 * page) (byte :: bytes) =
      pageCommands page ++
        ((byte :: bytes).take 128).flatMap (List.replicate 4 ∘ displayData) ++
          updateStrobes (128 * (page + 1)) ((byte :: bytes).drop 128) := by
  have starts : 128 * page % 128 = 0 := by omega
  rw [updateStrobes, if_pos starts, updateStrobes_within_page page Nat.one_pos (by omega),
    Nat.mul_div_cancel_left page (by omega)]
  simp

namespace LcdTrace

variable (trace : LcdTrace)

/-- The outer loop writes pages while it has bytes. -/
theorem updatePages_strobes (page pages : Nat) {bytes : List (BitVec 8)}
    (fits : bytes.length ≤ 128 * pages) :
    (trace.updatePages (BitVec.ofNat 8 (0xB0 + page)) pages bytes).strobes =
      trace.strobes ++ updateStrobes (128 * page) bytes := by
  induction pages generalizing trace page bytes with
  | zero =>
      have empty : bytes = [] := List.length_eq_zero_iff.mp (by omega)
      simp [updatePages, empty, updateStrobes]
  | succ pages inductionHypothesis =>
      cases bytes with
      | nil => simp [updatePages, updateStrobes]
      | cons byte bytes =>
          obtain ⟨strobes, rest⟩ := updateColumns_spec
            (trace |> writeCommand (BitVec.ofNat 8 (0xB0 + page)) |> writeCommand 0x10
              |> writeCommand 0x04) 128 (byte :: bytes)
          have next : BitVec.ofNat 8 (0xB0 + page) + 1 = BitVec.ofNat 8 (0xB0 + (page + 1)) := by
            rw [← Nat.add_assoc, BitVec.ofNat_add _ 1]
            rfl
          have shorter : ((byte :: bytes).drop 128).length ≤ 128 * pages := by
            rw [List.length_drop]
            omega
          rw [updatePages, updateStrobes_page]
          simp only [rest, next, inductionHypothesis _ (page + 1) shorter, strobes,
            writeCommand_strobes]
          simp [pageCommands]

/-- The strobes of a screen update without DMA. -/
theorem lcdUpdate_strobes {bytes : List (BitVec 8)} (small : bytes.length ≤ 2048) :
    (trace.lcdUpdate bytes).strobes = trace.strobes ++ updateStrobes 0 bytes :=
  trace.updatePages_strobes 0 16 small

end LcdTrace
end DDSFunctionGen.Lcd

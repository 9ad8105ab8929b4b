import DDSFunctionGen.Fpga.LcdDmaInterface
import DDSFunctionGen.Lcd.Update
import DDSFunctionGen.Semantics.Execution
import Mathlib.Tactic.SplitIfs

/-!
# The display bridge gives the strobes of the software update

The divided clock lets one transmission step happen every 32 clocks. Two steps
make one strobe; a byte takes four strobes, and three more where a page starts.
States are compared up to the position of the divider.
-/

namespace DDSFunctionGen.Fpga

open DDSFunctionGen.Lcd DDSFunctionGen.Semantics

/-- A transmission step does not read the divider. -/
theorem LcdDma.transmitStep_counter (lcd : LcdDma) (counter : Nat) :
    { lcd with counter }.transmitStep { lcd with counter } =
      { lcd.transmitStep lcd with counter } := by
  simp only [transmitStep, setPageAddress, sendData]
  split_ifs <;> rfl

namespace LcdBench

/-- The bench between two bytes. -/
def free (index : Nat) (data : BitVec 8) (bus : LcdBus) (master : LcdMaster)
    (strobes : List Strobe) (taken : List (BitVec 8)) : LcdBench where
  lcd := { LcdDma.idle data bus with byteCounter := index }
  master := master
  strobes := strobes
  taken := taken

/-- The bench while byte `index` is transmitted. -/
def sending (index : Nat) (byte : BitVec 8) (rest : List (BitVec 8)) (taken : List (BitVec 8))
    (pageAddressSet : Bool) (step : BitVec 4) (bus : LcdBus) (strobes : List Strobe) :
    LcdBench where
  lcd :=
    { LcdDma.idle byte bus with
      transmitterBusy := true, waitrequest := true, byteCounter := index, pageAddressSet, step }
  master := { current := some byte, pending := rest }
  strobes := strobes
  taken := taken

/-- The bench in the clock after the last step of byte `index`. -/
def sent (index : Nat) (byte : BitVec 8) (rest : List (BitVec 8)) (taken : List (BitVec 8))
    (bus : LcdBus) (strobes : List Strobe) : LcdBench where
  lcd :=
    { LcdDma.idle byte bus with
      transmissionDone := true, waitrequest := true, byteCounter := index + 1, step := 8 }
  master := { current := some byte, pending := rest }
  strobes := strobes
  taken := taken

/-- The bench with the divider elsewhere. -/
def withCounter (bench : LcdBench) (counter : Nat) : LcdBench :=
  { bench with lcd := { bench.lcd with counter } }

/-- A transmission is in progress and its byte is held. -/
structure Busy (bench : LcdBench) : Prop where
  busy : bench.lcd.transmitterBusy = true
  notDone : bench.lcd.transmissionDone = false
  waits : bench.lcd.waitrequest = true
  holds : bench.master.current.isSome = true

/-- One transmission step. -/
def act (bench : LcdBench) : LcdBench :=
  let lcd := bench.lcd.transmitStep bench.lcd
  { bench with lcd, strobes := bench.strobes ++ strobe bench.lcd.bus lcd.bus }

/-- The divider has just let a step happen, or is about to start. -/
def JustStepped (counter : Nat) : Prop := counter = 0 ∨ counter % 32 = 1

/-- Wherever the divider starts, the first bench leads to the second. -/
def Sends (first second : LcdBench) : Prop :=
  ∀ counter, JustStepped counter → ∃ counter', JustStepped counter' ∧
    Reaches cycle (first.withCounter counter) (second.withCounter counter')

theorem Sends.trans {first middle last : LcdBench} (before : first.Sends middle)
    (after : middle.Sends last) : first.Sends last := by
  intro counter justStepped
  obtain ⟨counter', justStepped', before⟩ := before counter justStepped
  obtain ⟨counter'', justStepped'', after⟩ := after counter' justStepped'
  exact ⟨counter'', justStepped'', before.trans after⟩

@[simp] theorem strobe_self (bus : LcdBus) : strobe bus bus = [] := by
  simp [strobe]

variable {bench : LcdBench}

/-- During a transmission only the transmitter acts. -/
theorem Busy.cycle (busy : bench.Busy) (cpu : LcdBus) :
    bench.cycle cpu =
      { bench with
        lcd := bench.lcd.transmit bench.lcd
        strobes := bench.strobes ++ strobe bench.lcd.bus (bench.lcd.transmit bench.lcd).bus } := by
  have held : bench.master.clock bench.lcd.waitrequest = bench.master := by
    simp [LcdMaster.clock, busy.holds, busy.waits]
  have notTaken : bench.lcd.takes (bench.master.inputs cpu) = false := by
    simp [LcdDma.takes, busy.busy]
  have clock : bench.lcd.clock (bench.master.inputs cpu) = bench.lcd.transmit bench.lcd := by
    simp [LcdDma.clock, LcdDma.readData, LcdDma.endTransmission, LcdDma.releaseBus, notTaken,
      busy.busy, busy.notDone]
  simp only [LcdBench.cycle, held, clock, notTaken]
  rfl

/-- The divider counts up to its next step. -/
theorem Busy.waits_for (busy : bench.Busy) (waits : Nat)
    (noStep : ∀ passed < waits, ¬ ((bench.lcd.counter + passed) % 32 = 0 ∧
      bench.lcd.counter + passed ≠ 0)) :
    Reaches LcdBench.cycle bench (bench.withCounter (bench.lcd.counter + waits)) := by
  induction waits with
  | zero => exact Reaches.refl bench
  | succ waits inductionHypothesis =>
      refine (inductionHypothesis fun passed before => noStep passed (by omega)).trans ?_
      refine Reaches.of_step fun cpu => ?_
      have stillBusy : (bench.withCounter (bench.lcd.counter + waits)).Busy :=
        ⟨busy.busy, busy.notDone, busy.waits, busy.holds⟩
      have counts : (bench.withCounter (bench.lcd.counter + waits)).lcd.transmit
          (bench.withCounter (bench.lcd.counter + waits)).lcd =
            { bench.lcd with counter := bench.lcd.counter + (waits + 1) } := by
        simp only [LcdDma.transmit, withCounter, busy.busy, if_true,
          if_neg (noStep waits (Nat.lt_succ_self waits))]
        rfl
      rw [stillBusy.cycle, counts]
      simp [withCounter]

/-- After at most 32 clocks of waiting the transmitter takes its step. -/
theorem Busy.sends_act (busy : bench.Busy) : bench.Sends bench.act := by
  intro counter justStepped
  have busyAt : (bench.withCounter counter).Busy :=
    ⟨busy.busy, busy.notDone, busy.waits, busy.holds⟩
  let next := 32 * (counter / 32 + 1)
  refine ⟨next + 1, .inr (by omega), ?_⟩
  have waiting := busyAt.waits_for (next - counter) (by
    intro passed before
    rcases justStepped with zero | one
    · simp only [withCounter, next] at *
      omega
    · simp only [withCounter, next] at *
      omega)
  have waited : ((bench.withCounter counter).withCounter
      ((bench.withCounter counter).lcd.counter + (next - counter))) =
        bench.withCounter next := by
    simp only [withCounter]
    congr 2
    omega
  rw [waited] at waiting
  refine waiting.trans (Reaches.of_step fun cpu => ?_)
  have busyNext : (bench.withCounter next).Busy :=
    ⟨busy.busy, busy.notDone, busy.waits, busy.holds⟩
  have tick : (bench.withCounter next).lcd.counter % 32 = 0 ∧
      (bench.withCounter next).lcd.counter ≠ 0 := by
    simp only [withCounter, next]
    omega
  have steps : (bench.withCounter next).lcd.transmit (bench.withCounter next).lcd =
      { bench.lcd.transmitStep bench.lcd with counter := next + 1 } := by
    have same := bench.lcd.transmitStep_counter next
    simp only [LcdDma.transmit, if_pos tick, busyNext.busy, if_true]
    simp only [withCounter, same]
  rw [busyNext.cycle, steps]
  rfl

variable {index : Nat} {byte : BitVec 8} {rest taken : List (BitVec 8)} {pageAddressSet : Bool}
  {step : BitVec 4} {bus : LcdBus} {strobes : List Strobe}

theorem sending_busy : (sending index byte rest taken pageAddressSet step bus strobes).Busy :=
  ⟨rfl, rfl, rfl, rfl⟩

/-- A step of the transmitter, by what it does. -/
theorem sends_sending {second : LcdBench}
    (acts : (sending index byte rest taken pageAddressSet step bus strobes).act = second) :
    (sending index byte rest taken pageAddressSet step bus strobes).Sends second := by
  rw [← acts]
  exact sending_busy.sends_act

/-- A command takes two steps: E rises with it on the bus, then falls. -/
theorem sends_command (starts : index % 128 = 0) {data : BitVec 8}
    (which : step = 0 ∧ data = BitVec.ofNat 8 (0xB0 + index / 128) ∨ step = 2 ∧ data = 0x10 ∨
      step = 4 ∧ data = 0x04) :
    (sending index byte rest taken false step bus strobes).Sends
      (sending index byte rest taken (decide (step = 4)) (if step = 4 then 0 else step + 2)
        { control := 0b00011, data } (strobes ++ [command data])) := by
  have rise : (sending index byte rest taken false step bus strobes).act =
      sending index byte rest taken false (step + 1) { control := 0b10010, data } strobes := by
    rcases which with ⟨rfl, rfl⟩ | ⟨rfl, rfl⟩ | ⟨rfl, rfl⟩
    all_goals
      simp [act, sending, LcdDma.idle, LcdDma.transmitStep, LcdDma.setPageAddress, starts, strobe,
        LcdBus.enable]
  refine (sends_sending rise).trans (sends_sending ?_)
  rcases which with ⟨rfl, rfl⟩ | ⟨rfl, rfl⟩ | ⟨rfl, rfl⟩
  all_goals
    simp [act, sending, LcdDma.idle, LcdDma.transmitStep, LcdDma.setPageAddress, starts, strobe,
      LcdBus.enable, LcdBus.a0, command]

/-- The page address before the first byte of a page. -/
theorem sends_pageCommands (starts : index % 128 = 0) :
    (sending index byte rest taken false 0 bus strobes).Sends
      (sending index byte rest taken true 0 { control := 0b00011, data := 0x04 }
        (strobes ++ pageCommands (index / 128))) := by
  have three : strobes ++ pageCommands (index / 128) =
      strobes ++ [command (BitVec.ofNat 8 (0xB0 + index / 128))] ++ [command 0x10] ++
        [command 0x04] := by
    simp [pageCommands]
  rw [three]
  refine (sends_command starts (.inl ⟨rfl, rfl⟩)).trans ?_
  refine Sends.trans (sends_command starts (.inr (.inl ⟨rfl, rfl⟩))) ?_
  exact sends_command starts (.inr (.inr ⟨rfl, rfl⟩))

/-- Once the page is addressed, a step sends data. -/
theorem act_sending (address : ¬ (index % 128 = 0 ∧ pageAddressSet = false)) :
    let lcd := (sending index byte rest taken pageAddressSet step bus strobes).lcd
    (sending index byte rest taken pageAddressSet step bus strobes).act =
      { sending index byte rest taken pageAddressSet step bus strobes with
        lcd := lcd.sendData lcd
        strobes := strobes ++ strobe bus (lcd.sendData lcd).bus } := by
  intro lcd
  have data : lcd.transmitStep lcd = lcd.sendData lcd := if_neg address
  rw [act, data]
  rfl

/-- The data takes two steps a time. -/
theorem sends_data (address : ¬ (index % 128 = 0 ∧ pageAddressSet = false))
    (which : step = 0 ∨ step = 2 ∨ step = 4) :
    (sending index byte rest taken pageAddressSet step bus strobes).Sends
      (sending index byte rest taken pageAddressSet (step + 2) { control := 0b00111, data := byte }
        (strobes ++ [displayData byte])) := by
  have rise : (sending index byte rest taken pageAddressSet step bus strobes).act =
      sending index byte rest taken pageAddressSet (step + 1) { control := 0b10110, data := byte }
        strobes := by
    rw [act_sending address]
    rcases which with rfl | rfl | rfl
    all_goals simp [sending, LcdDma.idle, LcdDma.sendData, strobe, LcdBus.enable]
  refine (sends_sending rise).trans (sends_sending ?_)
  rw [act_sending address]
  rcases which with rfl | rfl | rfl
  all_goals
    simp [sending, LcdDma.idle, LcdDma.sendData, strobe, LcdBus.enable, LcdBus.a0, displayData]

/-- The fourth time ends the byte. -/
theorem sends_last (address : ¬ (index % 128 = 0 ∧ pageAddressSet = false)) :
    (sending index byte rest taken pageAddressSet 6 bus strobes).Sends
      (sent index byte rest taken { control := 0b00111, data := byte }
        (strobes ++ [displayData byte])) := by
  have rise : (sending index byte rest taken pageAddressSet 6 bus strobes).act =
      sending index byte rest taken pageAddressSet 7 { control := 0b10110, data := byte }
        strobes := by
    rw [act_sending address]
    simp [sending, LcdDma.idle, LcdDma.sendData, strobe, LcdBus.enable]
  refine (sends_sending rise).trans (sends_sending ?_)
  rw [act_sending address]
  simp [sending, sent, LcdDma.idle, LcdDma.sendData, strobe, LcdBus.enable, LcdBus.a0,
    displayData]

/-- A byte whose page is addressed is written four times. -/
theorem sends_byte (address : ¬ (index % 128 = 0 ∧ pageAddressSet = false)) :
    (sending index byte rest taken pageAddressSet 0 bus strobes).Sends
      (sent index byte rest taken { control := 0b00111, data := byte }
        (strobes ++ List.replicate 4 (displayData byte))) := by
  have four : strobes ++ List.replicate 4 (displayData byte) =
      strobes ++ [displayData byte] ++ [displayData byte] ++ [displayData byte] ++
        [displayData byte] := by
    simp [List.replicate]
  rw [four]
  refine (sends_data address (.inl rfl)).trans ?_
  refine (sends_data address (.inr (.inl rfl))).trans ?_
  refine (sends_data address (.inr (.inr rfl))).trans ?_
  exact sends_last address

/-- The strobes of byte `index`. -/
def byteStrobes (index : Nat) (byte : BitVec 8) : List Strobe :=
  (if index % 128 = 0 then pageCommands (index / 128) else []) ++
    List.replicate 4 (displayData byte)

/-- Every byte is sent, after the page address where it starts a page. -/
theorem sends_index :
    (sending index byte rest taken false 0 bus strobes).Sends
      (sent index byte rest taken { control := 0b00111, data := byte }
        (strobes ++ byteStrobes index byte)) := by
  by_cases starts : index % 128 = 0
  · rw [byteStrobes, if_pos starts, ← List.append_assoc]
    exact (sends_pageCommands starts).trans (sends_byte (by simp))
  · rw [byteStrobes, if_neg starts, List.nil_append]
    exact sends_byte (by simp [starts])

/-- From one byte to the next: the byte is taken, sent and released. -/
theorem reaches_next {data : BitVec 8} {current : Option (BitVec 8)} :
    Reaches cycle (free index data bus { current, pending := byte :: rest } strobes taken)
      (free (index + 1) byte { control := 0b00111, data := byte }
        { current := some byte, pending := rest } (strobes ++ byteStrobes index byte)
        (taken ++ [byte])) := by
  have take : ∀ cpu, (free index data bus { current, pending := byte :: rest } strobes taken).cycle
      cpu = (sending index byte rest (taken ++ [byte]) false 0 bus strobes).withCounter 0 := by
    intro cpu
    simp [cycle, free, sending, withCounter, LcdDma.idle, LcdMaster.clock, LcdMaster.advance,
      LcdMaster.inputs, LcdDma.clock, LcdDma.takes, LcdDma.readData, LcdDma.transmit,
      LcdDma.endTransmission, LcdDma.releaseBus]
  have sends : (sending index byte rest (taken ++ [byte]) false 0 bus strobes).Sends _ :=
    sends_index
  obtain ⟨counter, -, transmits⟩ := sends 0 (.inl rfl)
  refine ((Reaches.of_step take).trans transmits).trans (Reaches.of_step fun cpu => ?_)
  simp [cycle, free, sent, withCounter, LcdDma.idle, LcdMaster.clock, LcdMaster.inputs,
    LcdDma.clock, LcdDma.takes, LcdDma.readData, LcdDma.transmit, LcdDma.endTransmission,
    LcdDma.releaseBus]

/-- The bytes of a transfer, one after the other. -/
theorem reaches_all (bytes : List (BitVec 8)) (index : Nat) (data : BitVec 8) (bus : LcdBus)
    (current : Option (BitVec 8)) (strobes : List Strobe) (taken : List (BitVec 8)) :
    ∃ data' bus' current',
      Reaches cycle (free index data bus { current, pending := bytes } strobes taken)
        (free (index + bytes.length) data' bus' { current := current', pending := [] }
          (strobes ++ updateStrobes index bytes) (taken ++ bytes)) := by
  induction bytes generalizing index data bus current strobes taken with
  | nil =>
      refine ⟨data, bus, current, ?_⟩
      simp only [updateStrobes, List.append_nil, List.length_nil, Nat.add_zero]
      exact Reaches.refl _
  | cons byte bytes inductionHypothesis =>
      obtain ⟨data', bus', current', transfer⟩ := inductionHypothesis (index + 1) byte
        { control := 0b00111, data := byte } (some byte) (strobes ++ byteStrobes index byte)
        (taken ++ [byte])
      refine ⟨data', bus', current', reaches_next.trans ?_⟩
      have strobed : strobes ++ updateStrobes index (byte :: bytes) =
          strobes ++ byteStrobes index byte ++ updateStrobes (index + 1) bytes := by
        rw [updateStrobes, byteStrobes, List.append_assoc strobes]
      have counted : index + (byte :: bytes).length = index + 1 + bytes.length := by
        rw [List.length_cons]
        omega
      rw [strobed, counted, List.append_cons taken byte bytes]
      exact transfer

/-- The strobes given and the bytes taken so far stay. -/
theorem prefix_run (bench : LcdBench) (cpu : List LcdBus) :
    bench.strobes <+: (run cycle bench cpu).strobes ∧
      bench.taken <+: (run cycle bench cpu).taken := by
  induction cpu generalizing bench with
  | nil => exact ⟨List.prefix_refl _, List.prefix_refl _⟩
  | cons bus cpu inductionHypothesis =>
      obtain ⟨strobes, taken⟩ := inductionHypothesis (bench.cycle bus)
      refine ⟨(List.prefix_append _ _).trans strobes, List.IsPrefix.trans ?_ taken⟩
      simp only [cycle]
      split
      · exact List.prefix_append _ _
      · exact List.prefix_refl _

/-- The bench before a transfer of `bytes`. -/
def start (data : BitVec 8) (bus : LcdBus) (bytes : List (BitVec 8)) : LcdBench where
  lcd := LcdDma.idle data bus
  master := { pending := bytes }

/-- For every buffer that fits the screen, whatever the CPU drives meanwhile:
after some number of clocks the bridge has given exactly the strobes of the
software update, has taken each byte once, in order, and is idle again; and it
never gives another strobe or takes another byte on the way. -/
theorem update_strobes (data : BitVec 8) (bus : LcdBus) (bytes : List (BitVec 8))
    (small : bytes.length ≤ 2048) (cpuBus : LcdBus) :
    ∃ count,
      (∀ cpu : List LcdBus, cpu.length = count →
        let bench := run cycle (start data bus bytes) cpu
        bench.strobes = (LcdTrace.lcdUpdate { bus := cpuBus } bytes).strobes ∧
        bench.taken = bytes ∧ bench.master.pending = [] ∧
        bench.lcd = { LcdDma.idle bench.lcd.data bench.lcd.bus with byteCounter := bytes.length }) ∧
      ∀ cpu : List LcdBus, cpu.length ≤ count →
        let bench := run cycle (start data bus bytes) cpu
        bench.strobes <+: (LcdTrace.lcdUpdate { bus := cpuBus } bytes).strobes ∧
        bench.taken <+: bytes := by
  obtain ⟨data', bus', current', count, transfer⟩ := reaches_all bytes 0 data bus none [] []
  have software : (LcdTrace.lcdUpdate { bus := cpuBus } bytes).strobes = updateStrobes 0 bytes :=
    LcdTrace.lcdUpdate_strobes _ small
  rw [software]
  simp only [List.nil_append, Nat.zero_add] at transfer
  have atEnd : ∀ cpu : List LcdBus, cpu.length = count → run cycle (start data bus bytes) cpu = _ :=
    transfer
  refine ⟨count, ?_, ?_⟩
  · intro cpu enough
    rw [atEnd cpu enough]
    exact ⟨rfl, rfl, rfl, rfl⟩
  · intro cpu early
    let rest := List.replicate (count - cpu.length) cpuBus
    have complete := atEnd (cpu ++ rest) (by simp [rest, early])
    have before := prefix_run (run cycle (start data bus bytes) cpu) rest
    rw [← run_append, complete] at before
    exact before

/-- A page and two bytes of the next one. -/
theorem update_strobes_two_pages :
    let bytes : List (BitVec 8) := List.replicate 128 0x12 ++ [0x34, 0x56]
    ∃ count, ∀ cpu : List LcdBus, cpu.length = count →
      (run cycle (start 0 { control := 0, data := 0 } bytes) cpu).strobes =
        [command 0xB0, command 0x10, command 0x04] ++ List.replicate 512 (displayData 0x12) ++
          [command 0xB1, command 0x10, command 0x04] ++ List.replicate 4 (displayData 0x34) ++
          List.replicate 4 (displayData 0x56) := by
  intro bytes
  have small : bytes.length ≤ 2048 := by simp [bytes]
  obtain ⟨count, transfer, -⟩ := update_strobes 0 { control := 0, data := 0 } bytes small
    { control := 0, data := 0 }
  refine ⟨count, fun cpu enough => (transfer cpu enough).1.trans ?_⟩
  have firstPage : (bytes.take 128).flatMap (List.replicate 4 ∘ displayData) =
      List.replicate 512 (displayData 0x12) := by
    rw [List.take_left' List.length_replicate, List.flatMap_replicate]
    exact List.flatten_replicate_replicate
  have begins : bytes = 0x12 :: (List.replicate 127 0x12 ++ [0x34, 0x56]) := rfl
  have nextPage : bytes.drop 128 = [0x34, 0x56] := List.drop_left' List.length_replicate
  have paged := updateStrobes_page 0 0x12 (List.replicate 127 0x12 ++ [0x34, 0x56])
  rw [← begins, firstPage, nextPage] at paged
  have commands : pageCommands 0 = [command 0xB0, command 0x10, command 0x04] := by decide
  have following : updateStrobes (128 * (0 + 1)) [0x34, 0x56] = [command 0xB1, command 0x10,
      command 0x04] ++ (List.replicate 4 (displayData 0x34) ++
        List.replicate 4 (displayData 0x56)) := by decide
  rw [Nat.mul_zero, commands, following] at paged
  rw [LcdTrace.lcdUpdate_strobes _ small, List.nil_append]
  simpa only [List.append_assoc] using paged

end LcdBench
end DDSFunctionGen.Fpga

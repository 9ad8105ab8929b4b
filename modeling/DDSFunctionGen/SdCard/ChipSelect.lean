import DDSFunctionGen.SdCard.CardStream
import DDSFunctionGen.SdCard.Initialize

/-!
# The chip select at the exits of the driver

The driver selects the card before its first command and deselects it as the last
statement before `return true`. No `return false` does.
-/

namespace DDSFunctionGen.SdCard

universe u

/-! ## The chip select -/

section Selected

variable {Card : Type u} {slave : SpiSlave Card}

theorem waitStartToken_selected (counter : Nat) (bus : SpiBus Card) (passes : Nat) :
    (waitStartToken slave counter bus passes).2.selected = bus.selected := by
  induction passes generalizing counter bus with
  | zero =>
      simp only [waitStartToken]
      split
      · rfl
      · rfl
  | succ passes inductionHypothesis =>
      simp only [waitStartToken]
      split
      · rfl
      · exact inductionHypothesis (counter + 1) (spiPoll slave bus).2

theorem tokenAfter_selected (cmdNumber : BitVec 8) (address : BitVec 32) (bus : SpiBus Card) :
    (tokenAfter slave cmdNumber address bus).2.selected = true :=
  waitStartToken_selected 0 _ 500

theorem readCmd0Response_selected (cmd0response : BitVec 8) (bus : SpiBus Card) (passes : Nat) :
    (readCmd0Response slave cmd0response bus passes).selected = bus.selected := by
  induction passes generalizing cmd0response bus with
  | zero => rfl
  | succ passes inductionHypothesis =>
      simp only [readCmd0Response]
      split
      · exact inductionHypothesis _ (sdReadResponseR1 slave bus).2
      · rfl

theorem leaveIdleState_selected (r1Response : BitVec 8) (bus : SpiBus Card) (passes : Nat) :
    (leaveIdleState slave r1Response bus passes).2.selected = bus.selected := by
  induction passes generalizing r1Response bus with
  | zero => rfl
  | succ passes inductionHypothesis =>
      simp only [leaveIdleState]
      split
      · exact inductionHypothesis _
          (sdReadResponseR1 slave (sdSendApplicationSpecificCommand slave acmd41 0 bus)).2
      · rfl

theorem sdMakeReady_selected (bus : SpiBus Card) :
    (sdMakeReady slave bus).2.selected = bus.selected := by
  simp only [sdMakeReady]
  split
  · exact leaveIdleState_selected _ _ 100
  · rfl

theorem sdDetect_selected (r7Resp : ResponseR7) (bus : SpiBus Card) :
    (sdDetect slave r7Resp bus).2.selected = bus.selected := by
  have ready := @sdMakeReady_selected Card slave bus
  simp only [sdDetect]
  split
  · split
    · exact ready
    · exact ready
  split
  · split
    · split
      · exact ready
      · exact ready
    · exact ready
  · rfl

/-- The initialisation deselects the card if it returns true. -/
theorem sdInitialize_selected_iff (bus : SpiBus Card) :
    (sdInitialize slave bus).2.2.selected = false ↔ (sdInitialize slave bus).1 = true := by
  simp only [sdInitialize]
  split
  · rw [sdDetect_selected]
    refine iff_of_false (fun deselected => ?_) nofun
    have selected := @readCmd0Response_selected Card slave 0
      (sdSendCommand slave cmd0 0x00000000
        (spiCS slave true (Nat.repeat (spiWriteByte slave 0xFF) 10 (spiCS slave false bus)))) 100
    exact nomatch selected.symm.trans deselected
  · exact iff_of_true rfl rfl

/-- A read deselects the card if it returns true. -/
theorem run_selected_iff (read : BlockRead) (address : BitVec 32) (bus : SpiBus Card) :
    (read.run slave address bus).2.selected = false ↔
      (read.run slave address bus).1.isSome = true := by
  have selected := @tokenAfter_selected Card slave read.cmdNumber address bus
  rcases run_cases slave read address bus with ⟨-, returned, stays⟩ | ⟨-, returned, last, ends⟩
  · rw [returned, stays, selected]
    exact iff_of_false nofun nofun
  · rw [ends]
    exact iff_of_true rfl returned

end Selected

/-! ## The cards that `SD_Initialize` accepts -/

section Accepted

variable (stream : Nat → BitVec 8)

/-- The bytes polled for the response of CMD0: up to `0x01`, at most `polls`. -/
def cmd0Polls (start : Nat) : Nat → Nat
  | 0 => 0
  | polls + 1 => if stream start = 0x01 then 1 else cmd0Polls (start + 1) polls + 1

/-- The position of the response to CMD8: behind ten dummy bytes, CMD0, its polls and
CMD8. -/
def r7Start (start : Nat) : Nat := start + 17 + cmd0Polls stream (start + 17) 100 + 7

/-- The card is no Ver2.00 card, or it echoes the voltage and the pattern of CMD8. -/
def AnswersCmd8 (r7 : Nat) : Prop :=
  stream r7 &&& r1IllegalCommandMsk ≠ 0 ∨ stream r7 &&& 0x80 ≠ 0 ∨
    stream (r7 + 3) &&& 0x0F = 0x01 ∧ stream (r7 + 4) = 0xAA

/-- The OCR in the response to CMD58. -/
def ocrAt (r3 : Nat) : BitVec 32 :=
  (stream (r3 + 1)).setWidth 32 <<< 24 ||| (stream (r3 + 2)).setWidth 32 <<< 16 |||
    (stream (r3 + 3)).setWidth 32 <<< 8 ||| (stream (r3 + 4)).setWidth 32

/-- One of the responses to ACMD41 leaves the idle state; the loop takes 16 bytes a
pass and ends each with a response. -/
def LeavesIdle (start passes : Nat) : Prop :=
  ∃ i < passes, stream (start + 16 * i + 15) &&& r1InIdleStateMsk = 0

/-- The card behind the stream is of a known type, accepts the voltage and becomes
ready. -/
def Accepted (start : Nat) : Prop :=
  let r7 := r7Start stream start
  AnswersCmd8 stream r7 ∧ ocrAt stream (r7 + 12) &&& 0xFF8000 ≠ 0 ∧
    LeavesIdle stream (r7 + 17) 100

variable {stream}

theorem readCmd0Response_card (cmd0response : BitVec 8) (bus : SpiBus Nat) (passes : Nat)
    (waiting : cmd0response ≠ 0x01) :
    (readCmd0Response (streamSlave stream) cmd0response bus passes).card =
      bus.card + cmd0Polls stream bus.card passes := by
  induction passes generalizing cmd0response bus with
  | zero => rfl
  | succ passes inductionHypothesis =>
      rw [readCmd0Response, if_pos waiting, cmd0Polls]
      by_cases idle : stream bus.card = 0x01
      · rw [if_pos idle]
        cases passes with
        | zero => rfl
        | succ passes => exact congrArg SpiBus.card (if_neg (not_not_intro idle))
      · rw [if_neg idle]
        have polled := inductionHypothesis (stream bus.card)
          (sdReadResponseR1 (streamSlave stream) bus).2 idle
        refine polled.trans ?_
        rw [show (sdReadResponseR1 (streamSlave stream) bus).2.card = bus.card + 1 from rfl]
        omega

/-- The loop over ACMD41 against a stream. -/
theorem leaveIdleState_ready_iff (r1Response : BitVec 8) (bus : SpiBus Nat) (passes : Nat) :
    (leaveIdleState (streamSlave stream) r1Response bus passes).1 &&& r1InIdleStateMsk = 0 ↔
      r1Response &&& r1InIdleStateMsk = 0 ∨ LeavesIdle stream bus.card passes := by
  induction passes generalizing r1Response bus with
  | zero => exact ⟨.inl, fun ready => ready.resolve_right fun ⟨_, less, _⟩ => nomatch less⟩
  | succ passes inductionHypothesis =>
      rw [leaveIdleState]
      by_cases ready : r1Response &&& r1InIdleStateMsk = 0
      · rw [if_neg (not_not_intro ready)]
        exact iff_of_true ready (.inl ready)
      · rw [if_pos ready]
        have sent := inductionHypothesis (stream (bus.card + 15))
          (sdReadResponseR1 (streamSlave stream)
            (sdSendApplicationSpecificCommand (streamSlave stream) acmd41 0 bus)).2
        refine sent.trans ?_
        rw [show (sdReadResponseR1 (streamSlave stream)
          (sdSendApplicationSpecificCommand (streamSlave stream) acmd41 0 bus)).2.card =
            bus.card + 16 from rfl]
        constructor
        · rintro (first | ⟨i, less, later⟩)
          · exact .inr ⟨0, Nat.succ_pos passes, first⟩
          · refine .inr ⟨i + 1, Nat.succ_lt_succ less, ?_⟩
            rw [show bus.card + 16 * (i + 1) + 15 = bus.card + 16 + 16 * i + 15 by omega]
            exact later
        · rintro (now | ⟨i, less, later⟩)
          · exact absurd now ready
          · cases i with
            | zero => exact .inl later
            | succ i =>
                refine .inr ⟨i, Nat.lt_of_succ_lt_succ less, ?_⟩
                rw [show bus.card + 16 + 16 * i + 15 = bus.card + 16 * (i + 1) + 15 by omega]
                exact later

theorem sdMakeReady_iff (bus : SpiBus Nat) :
    (sdMakeReady (streamSlave stream) bus).1 = true ↔
      ocrAt stream (bus.card + 7) &&& 0xFF8000 ≠ 0 ∧ LeavesIdle stream (bus.card + 12) 100 := by
  have ocr : (sdReadResponseR3 (streamSlave stream)
      (sdSendCommand (streamSlave stream) cmd58 0 bus)).1.ocr = ocrAt stream (bus.card + 7) := rfl
  have loop := @leaveIdleState_ready_iff stream r1InIdleStateMsk
    (sdReadResponseR3 (streamSlave stream) (sdSendCommand (streamSlave stream) cmd58 0 bus)).2 100
  simp only [sdMakeReady, ocr]
  split
  · rename_i compatible
    have idle : ¬ r1InIdleStateMsk &&& r1InIdleStateMsk = 0 := by decide
    rw [decide_eq_true_iff]
    exact loop.trans ⟨fun ready => ⟨compatible, ready.resolve_left idle⟩, fun ready => .inr ready.2⟩
  · rename_i incompatible
    exact iff_of_false nofun fun accepted => incompatible accepted.1

end Accepted

/-- A type is detected where the answer to CMD8 is in order and the card becomes
ready. -/
theorem sdDetect_ne_none_iff {Card : Type u} {slave : SpiSlave Card} (r7Resp : ResponseR7)
    (bus : SpiBus Card) :
    (sdDetect slave r7Resp bus).1 ≠ .none ↔
      (r7Resp.r1 &&& r1IllegalCommandMsk ≠ 0 ∨ r7Resp.r1 &&& 0x80 ≠ 0 ∨
          r7Resp.voltageAccepted = 0x01 ∧ r7Resp.checkPattern = 0xAA) ∧
        (sdMakeReady slave bus).1 = true := by
  by_cases legacy : r7Resp.r1 &&& r1IllegalCommandMsk ≠ 0 ∨ r7Resp.r1 &&& 0x80 ≠ 0
  · rw [sdDetect, if_pos legacy]
    cases ready : (sdMakeReady slave bus).1 with
    | true =>
        refine iff_of_true ?_ ⟨or_assoc.1 (.inl legacy), rfl⟩
        simp only [ready, if_true]
        exact nofun
    | false =>
        refine iff_of_false ?_ fun accepted => nomatch accepted.2
        simp [ready]
  · rw [sdDetect, if_neg legacy]
    by_cases echoed : r7Resp.voltageAccepted = 0x01 ∧ r7Resp.checkPattern = 0xAA
    · rw [if_pos echoed]
      cases ready : (sdMakeReady slave bus).1 with
      | true =>
          refine iff_of_true ?_ ⟨or_assoc.1 (.inr echoed), rfl⟩
          simp only [ready, if_true]
          split
          · exact nofun
          · exact nofun
      | false =>
          refine iff_of_false ?_ fun accepted => nomatch accepted.2
          simp [ready]
    · rw [if_neg echoed]
      refine iff_of_false (not_not_intro rfl) fun accepted => ?_
      rcases or_assoc.2 accepted.1 with answered | answered
      · exact legacy answered
      · exact echoed answered

/-- `SD_Initialize` returns true exactly for the cards it accepts. -/
theorem sdInitialize_iff {stream : Nat → BitVec 8} (bus : SpiBus Nat) :
    (sdInitialize (streamSlave stream) bus).1 = true ↔ Accepted stream bus.card := by
  let asked := sdSendCommand (streamSlave stream) cmd8 0x000001AA
    (readCmd0Response (streamSlave stream) 0
      (sdSendCommand (streamSlave stream) cmd0 0x00000000 (spiCS (streamSlave stream) true
        (Nat.repeat (spiWriteByte (streamSlave stream) 0xFF) 10
          (spiCS (streamSlave stream) false bus)))) 100)
  have position : asked.card = r7Start stream bus.card := by
    have polled := @readCmd0Response_card stream 0
      (sdSendCommand (streamSlave stream) cmd0 0x00000000 (spiCS (streamSlave stream) true
        (Nat.repeat (spiWriteByte (streamSlave stream) 0xFF) 10
          (spiCS (streamSlave stream) false bus)))) 100 (by decide)
    exact congrArg (· + 7) polled
  have detected := @sdDetect_ne_none_iff Nat (streamSlave stream)
    (sdReadResponseR7 (streamSlave stream) asked).1 (sdReadResponseR7 (streamSlave stream) asked).2
  have ready := @sdMakeReady_iff stream (sdReadResponseR7 (streamSlave stream) asked).2
  have returns : (sdInitialize (streamSlave stream) bus).1 = true ↔
      (sdDetect (streamSlave stream) (sdReadResponseR7 (streamSlave stream) asked).1
        (sdReadResponseR7 (streamSlave stream) asked).2).1 ≠ .none := by
    simp only [sdInitialize]
    split
    · rename_i none
      exact iff_of_false nofun (not_not_intro none)
    · rename_i known
      exact iff_of_true rfl known
  rw [returns, detected, ready]
  rw [Accepted, ← position]
  exact Iff.rfl

/-! ## The exits -/

/-- A call of the driver: `SD_Initialize` detects the card. -/
inductive DriverCall where
  | detect
  | read (kind : BlockRead) (address : BitVec 32)
deriving DecidableEq, Repr

namespace DriverCall

/-- The bus after the call. -/
def bus {Card : Type u} (slave : SpiSlave Card) (before : SpiBus Card) :
    DriverCall → SpiBus Card
  | .detect => (sdInitialize slave before).2.2
  | .read kind address => (kind.run slave address before).2

/-- The card lets the call run to its end: it is accepted, or sends the start token
among the first 500 bytes behind its response. -/
def LetThrough (stream : Nat → BitVec 8) (before : SpiBus Nat) : DriverCall → Prop
  | .detect => Accepted stream before.card
  | .read _ _ => ∃ i < 500, stream (tokenStart before + i) = 0xFE

end DriverCall

/-- Against every stream of bytes, a call leaves the card deselected exactly where
the card lets it through. -/
theorem chip_select_released_iff (stream : Nat → BitVec 8) (call : DriverCall)
    (before : SpiBus Nat) :
    (call.bus (streamSlave stream) before).selected = false ↔
      call.LetThrough stream before := by
  cases call with
  | detect => exact (sdInitialize_selected_iff before).trans (sdInitialize_iff before)
  | read kind address =>
      refine (run_selected_iff kind address before).trans ?_
      rw [isSome_run]
      exact Waited.counter_lt_iff (tokenAfter_waited kind.cmdNumber address before)

/-- Without a card every byte reads `0xFF`, and `SD_Initialize` returns with the chip
select active. -/
theorem absent_card_stays_selected :
    ¬ ∀ (stream : Nat → BitVec 8) (call : DriverCall) (before : SpiBus Nat),
        (call.bus (streamSlave stream) before).selected = false := by
  intro claimed
  have released := claimed (fun _ => 0xFF) .detect
    { card := 0, rxdata := 0xFF, selected := false }
  exact absurd released (by decide +kernel)

end DDSFunctionGen.SdCard

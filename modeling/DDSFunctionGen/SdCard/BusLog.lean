import DDSFunctionGen.SdCard.BlockRead

/-!
# What the driver puts on the bus

A slave that also records what it is sent, for any card: the driver cannot tell
it from the card itself.
-/

namespace DDSFunctionGen.SdCard

open DDSFunctionGen.Semantics

universe u

/-- What a slave sees: its chip select driven, or a byte. -/
inductive Signal where
  | select (active : Bool)
  | byte (sent : BitVec 8)
deriving DecidableEq, Repr

variable {Card : Type u} (slave : SpiSlave Card)

/-- The slave beside a record of what it has seen. -/
def recorded : SpiSlave (Card × List Signal) where
  select recorded active := (slave.select recorded.1 active, recorded.2 ++ [.select active])
  exchange recorded sent :=
    ((slave.exchange recorded.1 sent).1,
      ((slave.exchange recorded.1 sent).2, recorded.2 ++ [.byte sent]))

/-- The record of a transfer is its bytes, in order. -/
theorem transfer_recorded (card : Card) (log : List Signal) (bytes : List (BitVec 8)) :
    transfer (recorded slave).exchange (card, log) bytes =
      ((transfer slave.exchange card bytes).1,
        ((transfer slave.exchange card bytes).2, log ++ bytes.map .byte)) := by
  induction bytes generalizing card log with
  | nil => simp
  | cons byte rest inductionHypothesis =>
      have first : (recorded slave).exchange (card, log) byte =
          ((slave.exchange card byte).1, ((slave.exchange card byte).2, log ++ [.byte byte])) :=
        rfl
      rw [transfer_cons, first, inductionHypothesis]
      simp

variable {slave}

/-- A command sends its frame. -/
theorem sdSendCommand_record (cmdNumber : BitVec 8) (data : BitVec 32)
    (bus : SpiBus (Card × List Signal)) :
    (sdSendCommand (recorded slave) cmdNumber data bus).card.2 =
      bus.card.2 ++ (commandFrame cmdNumber data).map .byte := by
  have sent : (sdSendCommand (recorded slave) cmdNumber data bus).card =
      (transfer (recorded slave).exchange bus.card (commandFrame cmdNumber data)).2 := rfl
  rw [sent, transfer_recorded]

/-! ## What was recorded stays -/

/-- The record goes on from an earlier one. -/
def Continues (before after : SpiBus (Card × List Signal)) : Prop :=
  before.card.2 <+: after.card.2

section Continues

variable {before bus : SpiBus (Card × List Signal)}

theorem Continues.trans {first middle last : SpiBus (Card × List Signal)}
    (earlier : Continues first middle) (later : Continues middle last) : Continues first last :=
  List.IsPrefix.trans earlier later

theorem continues_spiCS (active : Bool) : Continues bus (spiCS (recorded slave) active bus) :=
  List.prefix_append _ _

theorem continues_spiPoll : Continues bus (spiPoll (recorded slave) bus).2 :=
  List.prefix_append _ _

theorem continues_sdSendCommand (cmdNumber : BitVec 8) (data : BitVec 32) :
    Continues bus (sdSendCommand (recorded slave) cmdNumber data bus) := by
  rw [Continues, sdSendCommand_record]
  exact List.prefix_append _ _

theorem continues_waitStartToken (counter passes : Nat) :
    Continues bus (waitStartToken (recorded slave) counter bus passes).2 := by
  induction passes generalizing counter bus with
  | zero =>
      simp only [waitStartToken]
      split
      · exact continues_spiPoll
      · exact continues_spiPoll
  | succ passes inductionHypothesis =>
      simp only [waitStartToken]
      split
      · exact continues_spiPoll
      · exact continues_spiPoll.trans (inductionHypothesis (counter + 1))

theorem continues_readBlockAndCrc : Continues bus (readBlockAndCrc (recorded slave) bus).2 := by
  have block : Continues bus (spiRead512Byte (recorded slave) bus).2 := by
    simp only [Continues, spiRead512Byte]
    rw [transfer_recorded]
    exact List.prefix_append _ _
  exact block.trans (continues_spiPoll.trans continues_spiPoll)

theorem continues_readBlocks (count : Nat) :
    Continues bus (readBlocks (recorded slave) bus count).2 := by
  induction count generalizing bus with
  | zero => exact List.prefix_rfl
  | succ count inductionHypothesis =>
      exact continues_readBlockAndCrc.trans inductionHypothesis

theorem continues_sdReadResponseR1b : Continues bus (sdReadResponseR1b (recorded slave) bus).2 := by
  have polls : ∀ (response : BitVec 8) (passes : Nat),
      Continues bus (readUntilNonzero (recorded slave) response bus passes).2 := by
    intro response passes
    induction passes generalizing response bus with
    | zero => exact List.prefix_rfl
    | succ passes inductionHypothesis =>
        simp only [readUntilNonzero]
        split
        · exact List.prefix_rfl
        · exact continues_spiPoll.trans (inductionHypothesis _)
  exact polls 0 100

/-- A read selects the card and sends its command first. -/
theorem continues_tokenAfter (cmdNumber : BitVec 8) (address : BitVec 32) :
    bus.card.2 ++ .select true :: (commandFrame cmdNumber address).map .byte <+:
      (tokenAfter (recorded slave) cmdNumber address bus).2.card.2 := by
  have sent : bus.card.2 ++ .select true :: (commandFrame cmdNumber address).map .byte =
      (sdSendCommand (recorded slave) cmdNumber address
        (spiCS (recorded slave) true bus)).card.2 := by
    rw [sdSendCommand_record]
    exact List.append_cons _ _ _
  rw [sent]
  exact continues_spiPoll.trans (continues_waitStartToken 0 500)

end Continues

end DDSFunctionGen.SdCard

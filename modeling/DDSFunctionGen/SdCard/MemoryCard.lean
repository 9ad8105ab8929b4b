import DDSFunctionGen.SdCard.Protocol

/-!
# A card that follows the protocol

It answers at once, without gaps, and ignores the CRC of commands.
-/

namespace DDSFunctionGen.SdCard

open DDSFunctionGen.Semantics

/-- The bytes of the command being received, and what the card sends meanwhile. -/
structure MemoryCard where
  frame : List (BitVec 8) := []
  reply : Nat → BitVec 8 := fun _ => 0xFF
  position : Nat := 0

namespace MemoryCard

section Commands

variable (answer : List (BitVec 8) → Nat → BitVec 8)

/-- The card that sends an answer of its own after each command. A byte with start bits 01
starts a command of six bytes. -/
def answering : SpiSlave MemoryCard where
  select _ _ := {}
  exchange card byte :=
    let sent := card.reply card.position
    let next := { card with position := card.position + 1 }
    if card.frame = [] ∧ byte &&& 0xC0 ≠ 0x40 then (sent, next)
    else if card.frame.length = 5 then (sent, { reply := answer (card.frame ++ [byte]) })
    else (sent, { next with frame := card.frame ++ [byte] })

/-- Between commands the card sends its reply. -/
theorem gives_reply (reply : Nat → BitVec 8) (position count : Nat) :
    Presents (answering answer).exchange 0xFF { reply, position }
      ((List.range count).map fun k => reply (position + k)) := by
  induction count generalizing position with
  | zero => rfl
  | succ count inductionHypothesis =>
      rw [List.range_succ_eq_map, List.map_cons, List.map_map]
      refine presents_cons.mpr ⟨rfl, ?_⟩
      have later := inductionHypothesis (position + 1)
      simp only [Nat.add_assoc, Nat.add_comm 1] at later
      exact later

theorem argument_joined (data : BitVec 32) :
    (data >>> 24).setWidth 8 ++ (data >>> 16).setWidth 8 ++ (data >>> 8).setWidth 8 ++
      data.setWidth 8 = data := by
  apply BitVec.eq_of_getLsbD_eq
  intro index inWord
  simp only [BitVec.getLsbD_append, BitVec.getLsbD_setWidth, BitVec.getLsbD_ushiftRight]
  by_cases first : index < 8
  · simp [first]
  by_cases second : index < 16
  · simp [first, show index - 8 < 8 by omega, show 8 + (index - 8) = index by omega]
  by_cases third : index < 24
  · simp [first, show ¬ index - 8 < 8 by omega, show index - 8 - 8 < 8 by omega,
      show 16 + (index - 8 - 8) = index by omega]
  · simp [first, show ¬ index - 8 < 8 by omega, show ¬ index - 8 - 8 < 8 by omega,
      show index - 8 - 8 - 8 < 8 by omega, show 24 + (index - 8 - 8 - 8) = index by omega]

/-- The argument of a command. -/
def frameArgument : List (BitVec 8) → Nat
  | [_, first, second, third, fourth, _] => (first ++ second ++ third ++ fourth).toNat
  | _ => 0

/-- After a command and the byte that follows it the card is about to send R1. -/
theorem afterCommand_eq {cmdNumber : BitVec 8} (reads : cmdNumber = cmd17 ∨ cmdNumber = cmd18)
    {sector : Nat} (addressable : sector * 512 < 2 ^ 32) (card : MemoryCard) :
    ∃ frame, frame.head? = some (0x40 ||| cmdNumber) ∧ frameArgument frame = sector * 512 ∧
      afterCommand (answering answer) cmdNumber sector card =
        { reply := answer frame, position := 1 } := by
  let data := BitVec.ofNat 32 (sector * 512)
  refine ⟨(0x40 ||| cmdNumber) :: argumentBytes data ++
    [(getCommandCRC cmdNumber data <<< 1) ||| 0x01], rfl, ?_, ?_⟩
  · change BitVec.toNat (_ ++ _ ++ _ ++ _) = sector * 512
    rw [argument_joined, BitVec.toNat_ofNat, Nat.mod_eq_of_lt addressable]
  · rcases reads with rfl | rfl
    · simp [afterCommand, commandFrame, argumentBytes, answering, data, cmd17]
    · simp [afterCommand, commandFrame, argumentBytes, answering, data, cmd18]

end Commands

variable (memory : Memory)

/-- A packet without a gap, by offsets; 0xFF past its end. -/
def packetByte (sector offset : Nat) : BitVec 8 :=
  ((packet 0 (memory.block sector) [0, 0])[offset]?).getD 0xFF

variable (r1 : BitVec 8)

/-- What the card sends after a command: nothing while the host sends its next
byte, R1, and the data. -/
def answerTo (frame : List (BitVec 8)) : Nat → BitVec 8
  | 0 => 0xFF
  | 1 => r1
  | offset + 2 =>
      let sector := frameArgument frame / 512
      if frame.head? = some (0x40 ||| cmd17) then packetByte memory sector offset
      else if frame.head? = some (0x40 ||| cmd18) then
        packetByte memory (sector + offset / 515) (offset % 515)
      else 0xFF

/-- A card that stores a memory and sends a fixed R1. -/
def slave : SpiSlave MemoryCard := answering (answerTo memory r1)

theorem packet_eq (sector : Nat) :
    packet 0 (memory.block sector) [0, 0] = (List.range 515).map (packetByte memory sector) := by
  have length : (packet 0 (memory.block sector) [0, 0]).length = 515 := by
    simp [packet]
  apply List.ext_getElem
  · rw [length, List.length_map, List.length_range]
  · intro offset inPacket inRange
    rw [List.getElem_map, List.getElem_range, packetByte, List.getElem?_eq_getElem inPacket]
    rfl

/-- What the card chooses of its packets. -/
def noGaps : Answer where
  gap _ := 0
  crc _ := [0, 0]
  gap_lt _ := by decide
  length_crc _ := rfl

/-- The packets of a multiple-block read, by offsets. -/
theorem stream_eq (sector count : Nat) :
    noGaps.stream memory sector count =
      (List.range (515 * count)).map fun offset =>
        packetByte memory (sector + offset / 515) (offset % 515) := by
  induction count with
  | zero => rfl
  | succ count inductionHypothesis =>
      rw [noGaps.stream_succ, inductionHypothesis, noGaps, packet_eq, Nat.mul_succ,
        List.range_add, List.map_append, List.map_map]
      refine congrArg _ (List.map_congr_left fun offset inPacket => ?_)
      have small : offset < 515 := List.mem_range.mp inPacket
      simp only [Function.comp_apply]
      rw [show (515 * count + offset) / 515 = count by omega,
        show (515 * count + offset) % 515 = offset by omega]

/-- After a command the card sends R1 and its answer. -/
theorem gives_answer (frame : List (BitVec 8)) (count : Nat) :
    Presents (slave memory r1).exchange 0xFF
      { reply := answerTo memory r1 frame, position := 1 }
      (r1 :: (List.range count).map fun k => answerTo memory r1 frame (k + 2)) := by
  have gives := gives_reply (answerTo memory r1) (answerTo memory r1 frame) 1 (count + 1)
  rw [List.range_succ_eq_map, List.map_cons, List.map_map] at gives
  simp only [Function.comp_def, Nat.succ_eq_add_one, Nat.add_comm 1, Nat.add_assoc] at gives
  exact gives

/-- The card answers a multiple-block read. -/
theorem answersMultiple {sector : Nat} (count : Nat) (addressable : sector * 512 < 2 ^ 32)
    (card : MemoryCard) : AnswersMultiple (slave memory r1) memory sector count noGaps card := by
  obtain ⟨frame, head, argument, after⟩ :=
    afterCommand_eq (answerTo memory r1) (.inr rfl) addressable card
  have first : sector * 512 / 512 = sector := Nat.mul_div_cancel sector (by decide)
  have other : ¬ some (0x40 ||| cmd18) = some (0x40 ||| cmd17) := by decide
  refine ⟨r1, ?_⟩
  rw [slave, after, stream_eq]
  have gives := gives_answer memory r1 frame (515 * count)
  simp only [answerTo, head, if_neg other, if_true, argument, first] at gives
  exact gives

/-- In every state the card follows the protocol. -/
theorem followsProtocol : FollowsProtocol (slave memory r1) memory fun _ => True where
  single card _ sector addressable := by
    obtain ⟨frame, head, argument, after⟩ :=
      afterCommand_eq (answerTo memory r1) (.inl rfl) addressable card
    have same : sector * 512 / 512 = sector := Nat.mul_div_cancel sector (by decide)
    refine ⟨r1, 0, [0, 0], by decide, rfl, ?_, trivial⟩
    rw [slave, after, packet_eq]
    have gives := gives_answer memory r1 frame 515
    simp only [answerTo, head, if_true, argument, same] at gives
    exact gives
  multiple card _ sector count positive addressable :=
    ⟨noGaps, answersMultiple memory r1 count (by omega) card⟩

/-- In a read of two blocks the second start token follows the first CRC. -/
theorem second_token (sector : Nat) : (noGaps.stream memory sector 2)[515]? = some 0xFE := by
  rw [stream_eq, List.getElem?_map, List.getElem?_range (by decide)]
  rfl

end MemoryCard

/-- A card full of one byte. -/
def Memory.filled (byte : BitVec 8) : Memory where
  block _ := List.replicate 512 byte
  length_block _ := List.length_replicate

end DDSFunctionGen.SdCard

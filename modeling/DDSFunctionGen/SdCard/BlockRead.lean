import DDSFunctionGen.SdCard.AnswerStream
import DDSFunctionGen.SdCard.MemoryCard

/-!
# Multiple-block reads against single-block reads

`SD_ReadMultipleBlocks` waits for the start token once. From the second block on
it takes the gap and the start token for data, and lags behind the card's data
by all of them so far.
-/

namespace DDSFunctionGen.SdCard

open DDSFunctionGen.Semantics

universe u

section Transfers

variable {Card : Type u} {slave : SpiSlave Card} {bus : SpiBus Card}

/-- The card presents these bytes while it is clocked with MOSI high. -/
abbrev Gives (slave : SpiSlave Card) (card : Card) (bytes : List (BitVec 8)) : Prop :=
  Presents slave.exchange 0xFF card bytes

/-- The card after `count` bytes. -/
abbrev clocked (slave : SpiSlave Card) (count : Nat) (card : Card) : Card :=
  stateAfter slave.exchange 0xFF count card

theorem clocked_clocked (before after : Nat) (card : Card) :
    clocked slave after (clocked slave before card) = clocked slave (before + after) card :=
  (stateAfter_add before after).symm

/-- What a card gives can be taken in two parts. -/
theorem gives_take_drop {card : Card} {bytes : List (BitVec 8)} {count : Nat}
    (enough : count ≤ bytes.length) (gives : Gives slave card bytes) :
    (transfer slave.exchange card (List.replicate count 0xFF)).1 = bytes.take count ∧
      Gives slave (clocked slave count card) (bytes.drop count) := by
  have taken : (bytes.take count).length = count := by
    rw [List.length_take, Nat.min_eq_left enough]
  have both := presents_append.mp ((List.take_append_drop count bytes).symm ▸ gives)
  rw [Presents, taken] at both
  exact both

/-- A poll takes one byte. -/
theorem spiPoll_spec {byte : BitVec 8} {rest : List (BitVec 8)}
    (gives : Gives slave bus.card (byte :: rest)) :
    (spiPoll slave bus).1 = byte ∧ (spiPoll slave bus).2.card = clocked slave 1 bus.card ∧
      Gives slave (spiPoll slave bus).2.card rest :=
  ⟨(presents_cons.mp gives).1, rfl, (presents_cons.mp gives).2⟩

/-- The wait passes over the gap and takes the start token. -/
theorem waitStartToken_spec {gap passes : Nat} (enough : gap ≤ passes) (timeoutCounter : Nat)
    {rest : List (BitVec 8)}
    (gives : Gives slave bus.card (List.replicate gap 0xFF ++ 0xFE :: rest)) :
    (waitStartToken slave timeoutCounter bus passes).1 = timeoutCounter + gap ∧
      (waitStartToken slave timeoutCounter bus passes).2.card = clocked slave (gap + 1) bus.card ∧
      Gives slave (waitStartToken slave timeoutCounter bus passes).2.card rest := by
  induction gap generalizing passes timeoutCounter bus with
  | zero =>
      obtain ⟨token, card, gives⟩ := spiPoll_spec gives
      cases passes with
      | zero =>
          simp only [waitStartToken, token, if_true]
          exact ⟨rfl, card, gives⟩
      | succ passes =>
          simp only [waitStartToken, token, if_true]
          exact ⟨rfl, card, gives⟩
  | succ gap inductionHypothesis =>
      cases passes with
      | zero => omega
      | succ passes =>
          obtain ⟨token, card, gives⟩ := spiPoll_spec gives
          obtain ⟨counter, after, gives⟩ := inductionHypothesis (Nat.le_of_succ_le_succ enough)
            (timeoutCounter + 1) gives
          have other : ¬ (0xFF : BitVec 8) = 0xFE := by decide
          simp only [waitStartToken, token, if_neg other]
          refine ⟨counter.trans (by omega), ?_, gives⟩
          rw [after, card, clocked_clocked, Nat.add_comm]

theorem spiRead512Byte_card : (spiRead512Byte slave bus).2.card = clocked slave 512 bus.card := by
  simp only [spiRead512Byte, stateAfter]

/-- A block and its CRC take 514 bytes. -/
theorem readBlockAndCrc_spec {bytes : List (BitVec 8)} (enough : 514 ≤ bytes.length)
    (gives : Gives slave bus.card bytes) :
    (readBlockAndCrc slave bus).1 = bytes.take 512 ∧
      (readBlockAndCrc slave bus).2.card = clocked slave 514 bus.card ∧
      Gives slave (readBlockAndCrc slave bus).2.card (bytes.drop 514) := by
  have card : (readBlockAndCrc slave bus).2.card = clocked slave 514 bus.card := by
    rw [← clocked_clocked 512 2, ← spiRead512Byte_card, readBlockAndCrc]
    rfl
  have dataLength : 512 ≤ bytes.length := by omega
  have block := (gives_take_drop dataLength gives).1
  refine ⟨block, card, ?_⟩
  rw [card]
  exact (gives_take_drop enough gives).2

/-- The loop over the blocks stores 512 of every 514 bytes. -/
theorem readBlocks_spec (count : Nat) {bytes : List (BitVec 8)}
    (enough : 514 * count ≤ bytes.length) (gives : Gives slave bus.card bytes) :
    (readBlocks slave bus count).1 =
      (List.range count).flatMap fun i => (bytes.drop (514 * i)).take 512 := by
  induction count generalizing bus bytes with
  | zero => rfl
  | succ count inductionHypothesis =>
      obtain ⟨block, -, gives⟩ := readBlockAndCrc_spec (by omega) gives
      have rest := inductionHypothesis (by rw [List.length_drop]; omega) gives
      simp only [readBlocks, block, rest, List.range_succ_eq_map, List.flatMap_cons,
        List.flatMap_map, List.drop_drop]
      simp [Nat.mul_succ, Nat.add_comm]

end Transfers

section Reads

variable {Card : Type u} {slave : SpiSlave Card} {bus : SpiBus Card} {memory : Memory}
  {Ready : Card → Prop}

/-- The address of a sector the bus can address. -/
theorem sector_address (sector : BitVec 32) (i : Nat) :
    (sector + BitVec.ofNat 32 i) * 512 = BitVec.ofNat 32 ((sector.toNat + i) * 512) := by
  apply BitVec.eq_of_toNat_eq
  simp [BitVec.toNat_mul, BitVec.toNat_add]

/-- The wait for the start token after a command. -/
def tokenAfter (slave : SpiSlave Card) (cmdNumber : BitVec 8) (address : BitVec 32)
    (bus : SpiBus Card) : Nat × SpiBus Card :=
  let bus := sdSendCommand slave cmdNumber address (spiCS slave true bus)
  waitStartToken slave 0 (sdReadResponseR1 slave bus).2 500

theorem sdReadSingleBlock_eq (address : BitVec 32) :
    sdReadSingleBlock slave address bus =
      let token := tokenAfter slave cmd17 address bus
      if 500 ≤ token.1 then (none, token.2)
      else (some (readBlockAndCrc slave token.2).1,
        spiCS slave false (readBlockAndCrc slave token.2).2) := by
  simp only [sdReadSingleBlock, tokenAfter]
  rfl

theorem sdReadMultipleBlocks_fst (address : BitVec 32) (count : Nat) :
    (sdReadMultipleBlocks slave address count bus).1 =
      let token := tokenAfter slave cmd18 address bus
      if 500 ≤ token.1 then none else some (readBlocks slave token.2 count).1 := by
  simp only [sdReadMultipleBlocks, tokenAfter, apply_ite Prod.fst]
  rfl

theorem sdReadMultipleBlocks_snd (address : BitVec 32) (count : Nat) :
    (sdReadMultipleBlocks slave address count bus).2 =
      let token := tokenAfter slave cmd18 address bus
      if 500 ≤ token.1 then token.2
      else
        spiCS slave false
          (sdReadResponseR1b slave
            (sdSendCommand slave cmd12 0x00 (readBlocks slave token.2 count).2)).2 := by
  simp only [sdReadMultipleBlocks, tokenAfter, apply_ite Prod.snd]
  rfl

/-- The token of a packet is found in time. -/
theorem tokenAfter_spec {cmdNumber : BitVec 8} {sector gap : Nat} {r1 : BitVec 8}
    {rest : List (BitVec 8)} (inTime : gap < 500)
    (gives : Gives slave (afterCommand slave cmdNumber sector bus.card)
      (r1 :: (List.replicate gap 0xFF ++ 0xFE :: rest))) :
    let token := tokenAfter slave cmdNumber (BitVec.ofNat 32 (sector * 512)) bus
    token.1 = gap ∧
      token.2.card = clocked slave (gap + 2) (afterCommand slave cmdNumber sector bus.card) ∧
      Gives slave token.2.card rest := by
  let commanded :=
    sdSendCommand slave cmdNumber (BitVec.ofNat 32 (sector * 512)) (spiCS slave true bus)
  have commandGiven : Gives slave commanded.card _ := gives
  obtain ⟨-, responded, packetGiven⟩ := spiPoll_spec commandGiven
  have enough : gap ≤ 500 := by omega
  obtain ⟨counter, tokenTaken, restGiven⟩ := waitStartToken_spec enough 0 packetGiven
  refine ⟨counter.trans (Nat.zero_add gap), ?_, restGiven⟩
  refine tokenTaken.trans ?_
  rw [responded, clocked_clocked, Nat.add_comm]
  rfl

/-- A single-block read stores the block. -/
theorem sdReadSingleBlock_spec (follows : FollowsProtocol slave memory Ready)
    (ready : Ready bus.card) {sector : Nat} (addressable : sector * 512 < 2 ^ 32) :
    ∃ after, sdReadSingleBlock slave (BitVec.ofNat 32 (sector * 512)) bus =
      (some (memory.block sector), after) ∧ Ready after.card := by
  obtain ⟨r1, gap, crc, short, crcLength, gives, readyAfter⟩ :=
    follows.single bus.card ready sector addressable
  obtain ⟨counter, tokenTaken, blockGiven⟩ := tokenAfter_spec short gives
  obtain ⟨block, finished, -⟩ := readBlockAndCrc_spec (by simp [crcLength]) blockGiven
  rw [sdReadSingleBlock_eq]
  simp only [counter, if_neg (Nat.not_le.mpr short)]
  refine ⟨_, Prod.ext (congrArg some ?_) rfl, ?_⟩
  · rw [block]
    simp
  · simp only [spiCS, finished, tokenTaken, clocked_clocked]
    exact readyAfter

/-- A multiple-block read stores the bytes from the first start token on, 512 of
every 514. -/
theorem sdReadMultipleBlocks_spec {sector last : Nat} {answer : Answer}
    (answers : AnswersMultiple slave memory sector (last + 1) answer bus.card) :
    (sdReadMultipleBlocks slave (BitVec.ofNat 32 (sector * 512)) (last + 1) bus).1 =
      some ((List.range (last + 1)).flatMap fun i =>
        ((answer.stream memory sector (last + 1)).drop (answer.gap 0 + 1 + 514 * i)).take 512) := by
  obtain ⟨r1, gives⟩ := answers
  obtain ⟨starts, long⟩ := answer.stream_start memory sector last
  rw [starts] at gives
  obtain ⟨counter, -, blocksGiven⟩ := tokenAfter_spec (answer.gap_lt 0) gives
  rw [sdReadMultipleBlocks_fst]
  simp only [counter, if_neg (Nat.not_le.mpr (answer.gap_lt 0)), readBlocks_spec (last + 1) long
    blocksGiven, List.drop_drop]

/-- Single-block reads, one after the other, store the blocks. -/
theorem readSingleBlocks_spec (follows : FollowsProtocol slave memory Ready)
    (ready : Ready bus.card) {sector : BitVec 32} {i count : Nat}
    (addressable : (sector.toNat + i + count) * 512 ≤ 2 ^ 32) :
    ∃ after, readSingleBlocks slave sector i bus count =
      (some ((List.range count).flatMap fun k => memory.block (sector.toNat + i + k)), after) := by
  induction count generalizing i bus with
  | zero => exact ⟨bus, rfl⟩
  | succ count inductionHypothesis =>
      have inside : (sector.toNat + i) * 512 < 2 ^ 32 := by omega
      have shift : sector.toNat + (i + 1) + count = sector.toNat + i + (count + 1) := by omega
      have rest : (sector.toNat + (i + 1) + count) * 512 ≤ 2 ^ 32 := shift ▸ addressable
      obtain ⟨middle, first, readyMiddle⟩ := sdReadSingleBlock_spec follows ready inside
      obtain ⟨after, others⟩ := inductionHypothesis readyMiddle rest
      refine ⟨after, ?_⟩
      rw [readSingleBlocks, sector_address, first]
      simp only [others, List.range_succ_eq_map, List.flatMap_cons, List.flatMap_map]
      simp [Nat.add_assoc, Nat.add_comm 1]

/-- What a multiple-block read stores of block `i` is the block exactly when the
block repeats. -/
theorem taken_eq_block_iff (answer : Answer) (memory : Memory) (sector : Nat) {i count : Nat}
    (before : i < count) :
    ((answer.stream memory sector count).drop (answer.gap 0 + 1 + 514 * i)).take 512 =
        memory.block (sector + i) ↔
      ∀ j < 512, (answer.stream memory sector count)[answer.dataStart i + j]? =
        (answer.stream memory sector count)[answer.dataStart i + j - answer.lag i]? := by
  have blockLength := memory.length_block (sector + i)
  have inStream : ∀ j < 512, (answer.stream memory sector count)[answer.dataStart i + j]? =
      (memory.block (sector + i))[j]? := fun j inBlock =>
    answer.getElem?_stream memory sector before inBlock
  have taken : ∀ j < 512,
      (((answer.stream memory sector count).drop (answer.gap 0 + 1 + 514 * i)).take 512)[j]? =
        (answer.stream memory sector count)[answer.dataStart i + j - answer.lag i]? := by
    intro j inBlock
    rw [List.getElem?_take_of_lt inBlock, List.getElem?_drop, Answer.dataStart]
    congr 1
    omega
  constructor
  · intro same j inBlock
    rw [← taken j inBlock, same, inStream j inBlock]
  · intro repeats
    apply List.ext_getElem?
    intro j
    by_cases inBlock : j < 512
    · rw [taken j inBlock, ← repeats j inBlock, inStream j inBlock]
    · have past : 512 ≤ j := Nat.le_of_not_lt inBlock
      rw [List.getElem?_eq_none (Nat.le_trans (List.length_take_le _ _) past),
        List.getElem?_eq_none (Nat.le_trans (Nat.le_of_eq blockLength) past)]

/-- The two reads agree when they agree on every block. -/
theorem reads_eq_iff (follows : FollowsProtocol slave memory Ready) (ready : Ready bus.card)
    {sector : BitVec 32} {last : Nat} (addressable : (sector.toNat + (last + 1)) * 512 ≤ 2 ^ 32)
    {answer : Answer}
    (answers : AnswersMultiple slave memory sector.toNat (last + 1) answer bus.card) :
    (sdReadMultipleBlocks slave (sector * 512) (last + 1) bus).1 =
        (readSingleBlocks slave sector 0 bus (last + 1)).1 ↔
      ∀ i < last + 1, ((answer.stream memory sector.toNat (last + 1)).drop
        (answer.gap 0 + 1 + 514 * i)).take 512 = memory.block (sector.toNat + i) := by
  have fromFirst : (sector.toNat + 0 + (last + 1)) * 512 ≤ 2 ^ 32 := addressable
  obtain ⟨after, singly⟩ := readSingleBlocks_spec follows ready fromFirst
  have address : sector * 512 = BitVec.ofNat 32 (sector.toNat * 512) := by
    simpa using sector_address sector 0
  have long := (answer.stream_start memory sector.toNat last).2
  have takenLength : ∀ i < last + 1, (((answer.stream memory sector.toNat (last + 1)).drop
      (answer.gap 0 + 1 + 514 * i)).take 512).length = 512 := by
    intro i before
    simp only [List.length_take, List.length_drop] at long ⊢
    omega
  rw [singly, address, sdReadMultipleBlocks_spec answers, Option.some_inj]
  exact flatMap_range_inj takenLength fun i _ => memory.length_block _

/-- For every card that follows the protocol: a multiple-block read stores what
single-block reads of the same sectors store exactly when every block after the
first repeats the bytes before it in the card's stream. -/
theorem multiple_matches_single_iff (follows : FollowsProtocol slave memory Ready)
    (ready : Ready bus.card) {sector : BitVec 32} {count : Nat} (several : 2 ≤ count)
    (addressable : (sector.toNat + count) * 512 ≤ 2 ^ 32) {answer : Answer}
    (answers : AnswersMultiple slave memory sector.toNat count answer bus.card) :
    (sdReadMultipleBlocks slave (sector * 512) count bus).1 =
        (readSingleBlocks slave sector 0 bus count).1 ↔
      answer.Repeats memory sector.toNat count := by
  obtain ⟨last, rfl⟩ := Nat.exists_eq_add_of_le' (Nat.lt_of_lt_of_le Nat.zero_lt_two several)
  rw [reads_eq_iff follows ready addressable answers]
  constructor
  · intro same i _ before
    exact (taken_eq_block_iff answer memory sector.toNat before).mp (same i before)
  · intro repeats i before
    refine (taken_eq_block_iff answer memory sector.toNat before).mpr ?_
    rcases Nat.eq_zero_or_pos i with rfl | positive
    · exact fun j _ => rfl
    · exact repeats i positive before

end Reads

section Cards

open MemoryCard

/-- The bus with a fresh card. -/
def freshBus : SpiBus MemoryCard where
  card := {}
  rxdata := 0
  selected := false

/-- Where the second block of a read without gaps starts. -/
theorem dataStart_noGaps : noGaps.dataStart 1 = 516 ∧ noGaps.lag 1 = 1 := ⟨rfl, rfl⟩

theorem second_block (byte : BitVec 8) {j : Nat} (inBlock : j < 512) :
    (noGaps.stream (.filled byte) 0 2)[516 + j]? = some byte := by
  rw [← dataStart_noGaps.1, noGaps.getElem?_stream (.filled byte) 0 (by decide) inBlock]
  exact List.getElem?_replicate_of_lt inBlock

/-- Two blocks full of start tokens. -/
theorem multiple_matches_single_tokens :
    (sdReadMultipleBlocks (slave (.filled 0xFE) 0x00) (0 * 512) 2 freshBus).1 =
      (readSingleBlocks (slave (.filled 0xFE) 0x00) 0 0 freshBus 2).1 := by
  refine (multiple_matches_single_iff (followsProtocol (.filled 0xFE) 0x00) trivial (by decide)
    (by decide) (answersMultiple (.filled 0xFE) 0x00 2 (by decide) freshBus.card)).mpr ?_
  intro i positive before j inBlock
  obtain rfl : i = 1 := by omega
  rw [dataStart_noGaps.1, dataStart_noGaps.2]
  refine (second_block 0xFE inBlock).trans ?_
  cases j with
  | zero => exact (second_token (.filled 0xFE) 0).symm
  | succ j => exact (second_block 0xFE (Nat.lt_of_succ_lt inBlock)).symm

/-- A card of zeros follows the protocol, but the second of two blocks starts
with its start token. -/
theorem multiple_takes_token_for_data :
    FollowsProtocol (slave (.filled 0) 0x00) (.filled 0) (fun _ => True) ∧
      (sdReadMultipleBlocks (slave (.filled 0) 0x00) (0 * 512) 2 freshBus).1 ≠
        (readSingleBlocks (slave (.filled 0) 0x00) 0 0 freshBus 2).1 := by
  refine ⟨followsProtocol (.filled 0) 0x00, fun same => ?_⟩
  have agree := (reads_eq_iff (followsProtocol (.filled 0) 0x00) trivial (by decide)
    (answersMultiple (.filled 0) 0x00 2 (by decide) freshBus.card)).mp same
  have repeats := (taken_eq_block_iff noGaps (.filled 0) 0 (by decide)).mp (agree 1 (by decide)) 0
    (by decide)
  rw [dataStart_noGaps.1, dataStart_noGaps.2, second_block 0 (by decide)] at repeats
  have token := repeats.trans (second_token (.filled 0) 0)
  exact absurd token (by decide)

end Cards

end DDSFunctionGen.SdCard

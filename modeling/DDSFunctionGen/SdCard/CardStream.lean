import DDSFunctionGen.SdCard.BlockRead

/-!
# Waiting for the start token

Against a card that answers with any stream of bytes, a read polls at most 501
times. The loop counts the polls that were no token, so with the token in the
last one the count has reached the limit that the test after the loop takes for
a timeout.
-/

namespace DDSFunctionGen.SdCard

universe u

/-- A card that answers with a stream of bytes, whatever it is sent; its state is
the position in the stream. -/
def streamSlave (stream : Nat → BitVec 8) : SpiSlave Nat where
  select position _ := position
  exchange position _ := (stream position, position + 1)

/-- The two functions that read blocks. -/
inductive BlockRead where
  | single
  | multiple (count : Nat)
deriving DecidableEq, Repr

namespace BlockRead

variable {Card : Type u} (slave : SpiSlave Card)

/-- `SD_ReadSingleBlock` or `SD_ReadMultipleBlocks`. -/
def run (address : BitVec 32) (bus : SpiBus Card) :
    BlockRead → Option (List (BitVec 8)) × SpiBus Card
  | .single => sdReadSingleBlock slave address bus
  | .multiple count => sdReadMultipleBlocks slave address count bus

/-- The command a read sends. -/
def cmdNumber : BlockRead → BitVec 8
  | .single => cmd17
  | .multiple _ => cmd18

end BlockRead

/-! ## The wait -/

section Streams

variable {stream : Nat → BitVec 8}

/-- The wait ends with the first token, or after its last pass. -/
inductive Waited (stream : Nat → BitVec 8) (start passes : Nat) : Nat → Nat → Prop
  | found {gap : Nat} (inTime : gap ≤ passes) (before : ∀ i < gap, stream (start + i) ≠ 0xFE)
      (token : stream (start + gap) = 0xFE) : Waited stream start passes gap (start + gap + 1)
  | missed (never : ∀ i ≤ passes, stream (start + i) ≠ 0xFE) :
      Waited stream start passes (passes + 1) (start + passes + 1)

/-- One more byte that is no token. -/
theorem Waited.later {start passes counter position : Nat} (other : stream start ≠ 0xFE)
    (waited : Waited stream (start + 1) passes counter position) :
    Waited stream start (passes + 1) (counter + 1) position := by
  cases waited with
  | found inTime before token =>
      have shifted : start + 1 + counter = start + (counter + 1) := by omega
      rw [shifted] at token ⊢
      refine .found (Nat.succ_le_succ inTime) (fun i less => ?_) token
      cases i with
      | zero => exact other
      | succ i => simpa [Nat.add_assoc, Nat.add_comm 1] using before i (Nat.lt_of_succ_lt_succ less)
  | missed never =>
      have shifted : start + 1 + passes + 1 = start + (passes + 1) + 1 := by omega
      rw [shifted]
      refine .missed fun i within => ?_
      cases i with
      | zero => exact other
      | succ i => simpa [Nat.add_assoc, Nat.add_comm 1] using never i (Nat.le_of_succ_le_succ within)

/-- The count stays below the limit where a token comes before the last pass. -/
theorem Waited.counter_lt_iff {start passes counter position : Nat}
    (waited : Waited stream start passes counter position) :
    counter < passes ↔ ∃ i < passes, stream (start + i) = 0xFE := by
  cases waited with
  | found _ before token =>
      refine ⟨fun inTime => ⟨counter, inTime, token⟩, fun ⟨i, less, token⟩ => ?_⟩
      rcases Nat.lt_or_ge i counter with earlier | later
      · exact absurd token (before i earlier)
      · exact Nat.lt_of_le_of_lt later less
  | missed never =>
      refine iff_of_false (Nat.not_lt.2 (Nat.le_succ passes)) fun ⟨i, less, token⟩ => ?_
      exact never i (Nat.le_of_lt less) token

/-- A wait polls a token if its count stays within the passes. -/
theorem Waited.polled_iff {start passes counter position : Nat}
    (waited : Waited stream start passes counter position) :
    (∃ i < position - start, stream (start + i) = 0xFE) ↔ counter ≤ passes := by
  cases waited with
  | found inTime before token =>
      have last : counter < start + counter + 1 - start := by omega
      exact iff_of_true ⟨counter, last, token⟩ inTime
  | missed never =>
      refine iff_of_false (fun ⟨i, less, token⟩ => ?_) (Nat.not_succ_le_self passes)
      exact never i (by omega) token

/-- The count equals the passes if the last of them is the first token. -/
theorem Waited.counter_eq_iff {start passes counter position : Nat}
    (waited : Waited stream start passes counter position) :
    counter = passes ↔
      (∀ i < passes, stream (start + i) ≠ 0xFE) ∧ stream (start + passes) = 0xFE := by
  cases waited with
  | found inTime before token =>
      constructor
      · rintro rfl
        exact ⟨before, token⟩
      · rintro ⟨never, -⟩
        refine Nat.le_antisymm inTime (Nat.not_lt.1 fun early => ?_)
        exact never counter early token
  | missed never =>
      refine iff_of_false (Nat.succ_ne_self passes) ?_
      rintro ⟨-, token⟩
      exact never passes (Nat.le_refl passes) token

/-- One poll and one more for each pass. -/
theorem Waited.position_le {start passes counter position : Nat}
    (waited : Waited stream start passes counter position) :
    position - start ≤ passes + 1 := by
  cases waited with
  | found inTime _ _ => omega
  | missed _ => omega

/-- The wait against a stream. -/
theorem waitStartToken_waited (counter : Nat) (bus : SpiBus Nat) (passes : Nat) :
    ∃ taken, (waitStartToken (streamSlave stream) counter bus passes).1 = counter + taken ∧
      Waited stream bus.card passes taken
        (waitStartToken (streamSlave stream) counter bus passes).2.card := by
  induction passes generalizing counter bus with
  | zero =>
      by_cases token : stream bus.card = 0xFE
      · have found : (waitStartToken (streamSlave stream) counter bus 0) =
            (counter, (spiPoll (streamSlave stream) bus).2) := if_pos token
        rw [found]
        exact ⟨0, rfl, .found (Nat.le_refl 0) nofun token⟩
      · have missed : (waitStartToken (streamSlave stream) counter bus 0) =
            (counter + 1, (spiPoll (streamSlave stream) bus).2) := if_neg token
        rw [missed]
        refine ⟨1, rfl, .missed fun i within => ?_⟩
        obtain rfl := Nat.le_zero.1 within
        exact token
  | succ passes inductionHypothesis =>
      by_cases token : stream bus.card = 0xFE
      · have found : (waitStartToken (streamSlave stream) counter bus (passes + 1)) =
            (counter, (spiPoll (streamSlave stream) bus).2) := if_pos token
        rw [found]
        exact ⟨0, rfl, .found (Nat.zero_le _) nofun token⟩
      · have missed : (waitStartToken (streamSlave stream) counter bus (passes + 1)) =
            waitStartToken (streamSlave stream) (counter + 1)
              (spiPoll (streamSlave stream) bus).2 passes := if_neg token
        obtain ⟨taken, count, waited⟩ :=
          inductionHypothesis (counter + 1) (spiPoll (streamSlave stream) bus).2
        rw [missed]
        exact ⟨taken + 1, by omega, waited.later token⟩

/-- The position from which a read polls for the token: behind the command and the
response. -/
def tokenStart (bus : SpiBus Nat) : Nat := bus.card + 8

/-- The bytes that a read polls while it waits for the start token. -/
def polledBytes (stream : Nat → BitVec 8) (read : BlockRead) (address : BitVec 32)
    (bus : SpiBus Nat) : List (BitVec 8) :=
  let token := tokenAfter (streamSlave stream) read.cmdNumber address bus
  (List.range (token.2.card - tokenStart bus)).map fun i => stream (tokenStart bus + i)

/-- A read returns true if it polled a token, and only then, and polls at most 501
bytes. -/
structure HonoursToken (stream : Nat → BitVec 8) (read : BlockRead) (address : BitVec 32)
    (bus : SpiBus Nat) : Prop where
  returns : (read.run (streamSlave stream) address bus).1.isSome = true ↔
    0xFE ∈ polledBytes stream read address bus
  bounded : (polledBytes stream read address bus).length ≤ 501

/-- Of the 501 bytes a read may poll, the last is the first token. -/
def TokenInLastPoll (stream : Nat → BitVec 8) (bus : SpiBus Nat) : Prop :=
  (∀ i < 500, stream (tokenStart bus + i) ≠ 0xFE) ∧ stream (tokenStart bus + 500) = 0xFE

/-- The wait of a read. -/
theorem tokenAfter_waited (cmdNumber : BitVec 8) (address : BitVec 32) (bus : SpiBus Nat) :
    Waited stream (tokenStart bus) 500
      (tokenAfter (streamSlave stream) cmdNumber address bus).1
      (tokenAfter (streamSlave stream) cmdNumber address bus).2.card := by
  let commanded := (sdReadResponseR1 (streamSlave stream)
    (sdSendCommand (streamSlave stream) cmdNumber address
      (spiCS (streamSlave stream) true bus))).2
  have polled : commanded.card = tokenStart bus := rfl
  obtain ⟨taken, count, waited⟩ := @waitStartToken_waited stream 0 commanded 500
  have waits : tokenAfter (streamSlave stream) cmdNumber address bus =
      waitStartToken (streamSlave stream) 0 commanded 500 := rfl
  rw [waits, count, Nat.zero_add, ← polled]
  exact waited

/-- A read that counts 500 polls without a token returns after the wait; any other
deselects the card and returns true. -/
theorem run_cases {Card : Type u} (slave : SpiSlave Card) (read : BlockRead)
    (address : BitVec 32) (bus : SpiBus Card) :
    let token := tokenAfter slave read.cmdNumber address bus
    500 ≤ token.1 ∧ (read.run slave address bus).1 = none ∧
        (read.run slave address bus).2 = token.2 ∨
      token.1 < 500 ∧ (read.run slave address bus).1.isSome = true ∧
        ∃ last, (read.run slave address bus).2 = spiCS slave false last := by
  intro token
  rcases Nat.lt_or_ge token.1 500 with inTime | timeout
  · have counted : ¬ 500 ≤ token.1 := Nat.not_le.2 inTime
    refine .inr ⟨inTime, ?_⟩
    cases read with
    | single =>
        rw [BlockRead.run, sdReadSingleBlock_eq]
        exact if_neg counted ▸ ⟨rfl, _, rfl⟩
    | multiple count =>
        rw [BlockRead.run, sdReadMultipleBlocks_fst, sdReadMultipleBlocks_snd]
        refine ⟨?_, ?_⟩
        · exact if_neg counted ▸ rfl
        · exact ⟨_, if_neg counted⟩
  · refine .inl ⟨timeout, ?_⟩
    cases read with
    | single =>
        rw [BlockRead.run, sdReadSingleBlock_eq]
        exact if_pos timeout ▸ ⟨rfl, rfl⟩
    | multiple count =>
        rw [BlockRead.run, sdReadMultipleBlocks_fst, sdReadMultipleBlocks_snd]
        exact ⟨if_pos timeout, if_pos timeout⟩

/-- A read returns true if it counts fewer than 500 polls without a token. -/
theorem isSome_run {Card : Type u} (slave : SpiSlave Card) (read : BlockRead)
    (address : BitVec 32) (bus : SpiBus Card) :
    (read.run slave address bus).1.isSome = true ↔
      (tokenAfter slave read.cmdNumber address bus).1 < 500 := by
  rcases run_cases slave read address bus with ⟨timeout, returned, -⟩ | ⟨inTime, returned, -⟩
  · rw [returned]
    exact iff_of_false nofun (Nat.not_lt.2 timeout)
  · exact iff_of_true returned inTime

theorem mem_polledBytes (read : BlockRead) (address : BitVec 32) (bus : SpiBus Nat) :
    0xFE ∈ polledBytes stream read address bus ↔
      ∃ i < (tokenAfter (streamSlave stream) read.cmdNumber address bus).2.card - tokenStart bus,
        stream (tokenStart bus + i) = 0xFE := by
  simp only [polledBytes, List.mem_map, List.mem_range]

/-- A read takes a received token for a timeout exactly where the token is in the
last of its polls. -/
theorem token_honoured_iff (stream : Nat → BitVec 8) (read : BlockRead) (address : BitVec 32)
    (bus : SpiBus Nat) :
    HonoursToken stream read address bus ↔ ¬ TokenInLastPoll stream bus := by
  have waited := @tokenAfter_waited stream read.cmdNumber address bus
  have returned := isSome_run (streamSlave stream) read address bus
  have polled := (mem_polledBytes read address bus).trans waited.polled_iff
  have bounded : (polledBytes stream read address bus).length ≤ 501 := by
    rw [polledBytes, List.length_map, List.length_range]
    exact waited.position_le
  rw [TokenInLastPoll, ← waited.counter_eq_iff]
  constructor
  · intro honours last
    have same := returned.symm.trans (honours.returns.trans polled)
    omega
  · intro notLast
    refine ⟨returned.trans (Iff.trans ?_ polled.symm), bounded⟩
    omega

/-- A card that sends the start token after 500 other bytes. -/
def lateToken (position : Nat) : BitVec 8 := if position = 508 then 0xFE else 0xFF

/-- The token is polled, and the read returns false. -/
theorem late_token_times_out :
    ¬ ∀ (stream : Nat → BitVec 8) (read : BlockRead) (address : BitVec 32) (bus : SpiBus Nat),
        HonoursToken stream read address bus := by
  intro claimed
  have honours := claimed lateToken .single 0 { card := 0, rxdata := 0, selected := false }
  have polled : 0xFE ∈ polledBytes lateToken .single 0
      { card := 0, rxdata := 0, selected := false } := by decide +kernel
  have failed : (BlockRead.single.run (streamSlave lateToken) 0
      { card := 0, rxdata := 0, selected := false }).1.isSome = false := by decide +kernel
  rw [honours.returns.2 polled] at failed
  exact nomatch failed

end Streams

end DDSFunctionGen.SdCard

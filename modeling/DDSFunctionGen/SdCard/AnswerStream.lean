import DDSFunctionGen.SdCard.Protocol

/-!
# Where the data lies in an answer

The blocks of an answer lie 514 bytes apart, and further by the gaps and start
tokens before them.
-/

namespace DDSFunctionGen.SdCard

universe u

namespace Answer

variable (answer : Answer) (memory : Memory) (sector : Nat)

/-- The gaps and start tokens of the blocks after the first, up to block `i`. -/
def lag : Nat → Nat
  | 0 => 0
  | i + 1 => lag i + answer.gap (i + 1) + 1

/-- Where the data of block `i` starts in the card's stream. -/
def dataStart (i : Nat) : Nat := answer.gap 0 + 1 + 514 * i + answer.lag i

theorem length_stream (i : Nat) :
    (answer.stream memory sector i).length + answer.gap i + 1 = answer.dataStart i := by
  induction i with
  | zero => simp [stream, dataStart, lag]
  | succ i inductionHypothesis =>
      simp only [stream_succ, packet, List.length_append, List.length_replicate, List.length_cons,
        Memory.length_block, length_crc, dataStart, lag] at inductionHypothesis ⊢
      omega

/-- The stream up to block `i`, its packet, and what follows. -/
theorem stream_split {i count : Nat} (before : i < count) :
    ∃ rest, answer.stream memory sector count =
      answer.stream memory sector i ++
        (packet (answer.gap i) (memory.block (sector + i)) (answer.crc i) ++ rest) := by
  induction count with
  | zero => omega
  | succ count inductionHypothesis =>
      rw [stream_succ]
      rcases Nat.lt_succ_iff_lt_or_eq.mp before with earlier | rfl
      · obtain ⟨rest, split⟩ := inductionHypothesis earlier
        refine ⟨rest ++ packet (answer.gap count) (memory.block (sector + count))
          (answer.crc count), ?_⟩
        rw [split]
        simp only [List.append_assoc]
      · exact ⟨[], by rw [List.append_nil]⟩

/-- The data of block `i` in the stream. -/
theorem getElem?_stream {i count j : Nat} (before : i < count) (inBlock : j < 512) :
    (answer.stream memory sector count)[answer.dataStart i + j]? =
      (memory.block (sector + i))[j]? := by
  obtain ⟨rest, split⟩ := answer.stream_split memory sector before
  have start := answer.length_stream memory sector i
  rw [split, List.getElem?_append_right (by omega), packet, List.append_assoc,
    List.getElem?_append_right (by rw [List.length_replicate]; omega), List.length_replicate]
  have position : answer.dataStart i + j - (answer.stream memory sector i).length -
      answer.gap i = j + 1 := by omega
  rw [position, List.cons_append, List.getElem?_cons_succ, List.append_assoc,
    List.getElem?_append_left (by rw [Memory.length_block]; exact inBlock)]

/-- The stream starts with the first gap and start token, and goes on for what a
multiple-block read takes of it. -/
theorem stream_start (last : Nat) :
    let after := (answer.stream memory sector (last + 1)).drop (answer.gap 0 + 1)
    answer.stream memory sector (last + 1) =
        List.replicate (answer.gap 0) 0xFF ++ 0xFE :: after ∧
      514 * (last + 1) ≤ after.length := by
  intro after
  obtain ⟨rest, split⟩ := answer.stream_split memory sector (Nat.zero_lt_succ last)
  have starts : answer.stream memory sector (last + 1) =
      List.replicate (answer.gap 0) 0xFF ++ 0xFE ::
        (memory.block sector ++ answer.crc 0 ++ rest) := by
    rw [split]
    simp [stream, packet]
  have tail : after = memory.block sector ++ answer.crc 0 ++ rest := by
    simp only [after]
    rw [starts, ← List.drop_drop, List.drop_left' List.length_replicate]
    rfl
  refine ⟨tail ▸ starts, ?_⟩
  have start := answer.length_stream memory sector last
  simp only [after, stream_succ, packet, List.length_drop, List.length_append,
    List.length_replicate, List.length_cons, Memory.length_block, length_crc, dataStart] at start ⊢
  omega

/-- Every data byte of the blocks after the first repeats the byte that the lag
puts it behind in the card's stream: block 1 goes on repeating its own gap and
start token, a later block what comes right before it. -/
def Repeats (count : Nat) : Prop :=
  ∀ i, 0 < i → i < count → ∀ j < 512,
    (answer.stream memory sector count)[answer.dataStart i + j]? =
      (answer.stream memory sector count)[answer.dataStart i + j - answer.lag i]?

end Answer

/-- Lists of one width, joined, are equal exactly when they are equal one by one. -/
theorem flatMap_range_inj {Element : Type u} {first second : Nat → List Element} {width count : Nat}
    (firstWidth : ∀ i < count, (first i).length = width)
    (secondWidth : ∀ i < count, (second i).length = width) :
    (List.range count).flatMap first = (List.range count).flatMap second ↔
      ∀ i < count, first i = second i := by
  induction count with
  | zero => simp
  | succ count inductionHypothesis =>
      have sameWidth : (first count).length = (second count).length := by
        rw [firstWidth count (Nat.lt_succ_self count), secondWidth count (Nat.lt_succ_self count)]
      have before := inductionHypothesis (fun i less => firstWidth i (Nat.lt_succ_of_lt less))
        (fun i less => secondWidth i (Nat.lt_succ_of_lt less))
      simp only [List.range_succ, List.flatMap_append, List.flatMap_cons, List.flatMap_nil,
        List.append_nil]
      constructor
      · intro joined i less
        obtain ⟨earlier, last⟩ := List.append_inj' joined sameWidth
        rcases Nat.lt_succ_iff_lt_or_eq.mp less with less | rfl
        · exact before.mp earlier i less
        · exact last
      · intro same
        rw [before.mpr fun i less => same i (Nat.lt_succ_of_lt less),
          same count (Nat.lt_succ_self count)]

end DDSFunctionGen.SdCard

import DDSFunctionGen.Firmware.DelayTimer

/-!
# The busy wait of `delay_us`

The wait ends at the first poll whose reading passes a target. The readings are
those of a counter that may reload between any two polls, so the polls are
described by the ticks elapsed since the first reading, and the reading at each
of them is recovered from its number of ticks.
-/

namespace DDSFunctionGen.Firmware

/-- What a search through a sorted list finds is above a bound exactly when every
success is. -/
theorem find?_bounded_iff {condition : Nat → Bool} {items : List Nat}
    (sorted : items.Pairwise (· ≤ ·)) (bound : Nat) :
    (∀ item, items.find? condition = some item → bound ≤ item) ↔
      ∀ item ∈ items, condition item = true → bound ≤ item := by
  induction items with
  | nil => exact iff_of_true nofun fun _ member => absurd member List.not_mem_nil
  | cons head items inductionHypothesis =>
      obtain ⟨least, sortedRest⟩ := List.pairwise_cons.mp sorted
      rw [List.forall_mem_cons, List.find?_cons]
      cases headMeets : condition head with
      | true =>
          constructor
          · intro found
            have bounded := found head rfl
            exact ⟨fun _ => bounded, fun item member _ => Nat.le_trans bounded (least item member)⟩
          · rintro ⟨bounded, -⟩ item found
            rw [← Option.some.inj found]
            exact bounded rfl
      | false =>
          rw [inductionHypothesis sortedRest]
          exact (and_iff_right nofun).symm

namespace DelayTimer

/-- A polling loop: the ticks elapsed when a poll ends it, for the ticks between
successive polls; none while it is still waiting. -/
def waitWhile (waiting : BitVec 32 → Bool) (timer : DelayTimer) (elapsed : Nat) :
    List Nat → Option Nat
  | [] => none
  | gap :: gaps =>
      if waiting (timer.after gap).readTimerUs then
        waitWhile waiting (timer.after gap) (elapsed + gap) gaps
      else some (elapsed + gap)

/-- `TimerTick` -/
def timerTick (t : BitVec 32) : BitVec 32 := (t.setWidth 64 * ticksPerMicrosecond).setWidth 32

/-- `delay_us`: the ticks elapsed since `TimerSnap` when it returns. -/
def delayUs (timer : DelayTimer) (t : BitVec 32) (gaps : List Nat) : Option Nat :=
  let timerSnap := timer.readTimerUs
  if timerTick t < timerSnap then
    waitWhile (fun reading => timerSnap - timerTick t < reading) timer 0 gaps
  else
    waitWhile (fun reading => reading < timerSnap - timerTick t) timer 0 gaps

/-- The ticks elapsed at the polls. -/
def polls (elapsed : Nat) : List Nat → List Nat
  | [] => []
  | gap :: gaps => (elapsed + gap) :: polls (elapsed + gap) gaps

theorem le_of_mem_polls {elapsed : Nat} {gaps : List Nat} :
    ∀ poll ∈ polls elapsed gaps, elapsed ≤ poll := by
  induction gaps generalizing elapsed with
  | nil => exact fun _ member => absurd member List.not_mem_nil
  | cons gap gaps inductionHypothesis =>
      intro poll member
      rcases List.mem_cons.mp member with rfl | later
      · exact Nat.le_add_right elapsed gap
      · exact Nat.le_trans (Nat.le_add_right elapsed gap) (inductionHypothesis poll later)

theorem polls_sorted (elapsed : Nat) (gaps : List Nat) :
    (polls elapsed gaps).Pairwise (· ≤ ·) := by
  induction gaps generalizing elapsed with
  | nil => exact List.Pairwise.nil
  | cons gap gaps inductionHypothesis =>
      exact List.pairwise_cons.mpr ⟨le_of_mem_polls, inductionHypothesis (elapsed + gap)⟩

/-- The wait ends at the first poll whose reading does not keep it waiting. -/
theorem waitWhile_eq_find? (waiting : BitVec 32 → Bool) (timer : DelayTimer) (elapsed : Nat)
    (gaps : List Nat) :
    waitWhile waiting (timer.after elapsed) elapsed gaps =
      (polls elapsed gaps).find? fun poll => !waiting (timer.after poll).readTimerUs := by
  induction gaps generalizing elapsed with
  | nil => rfl
  | cons gap gaps inductionHypothesis =>
      rw [waitWhile, polls, List.find?_cons, ← after_add, inductionHypothesis (elapsed + gap)]
      cases waiting (timer.after (elapsed + gap)).readTimerUs with
      | true => rfl
      | false => rfl

/-- A wait ends in time exactly when every poll that could end it does. -/
theorem waitWhile_bounded_iff (waiting : BitVec 32 → Bool) (timer : DelayTimer)
    (gaps : List Nat) (bound : Nat) :
    (∀ elapsed, waitWhile waiting timer 0 gaps = some elapsed → bound ≤ elapsed) ↔
      ∀ poll ∈ polls 0 gaps,
        waiting (timer.after poll).internalCounter = false → bound ≤ poll := by
  have searched := waitWhile_eq_find? waiting timer 0 gaps
  rw [after] at searched
  rw [searched, find?_bounded_iff (polls_sorted 0 gaps)]
  simp only [readTimerUs_eq, Bool.not_eq_true']

theorem toNat_timerTick {t : BitVec 32}
    (fits : t.toNat * (2500000000 / timerFrequency) < period) :
    (timerTick t).toNat = t.toNat * (2500000000 / timerFrequency) := by
  have divisor : ticksPerMicrosecond.toNat = 25 := rfl
  have factor : 2500000000 / timerFrequency = 25 := rfl
  rw [factor] at fits ⊢
  rw [timerTick, BitVec.toNat_setWidth, BitVec.toNat_mul, BitVec.toNat_setWidth, divisor]
  unfold period at fits
  omega

/-- The polls at which the wait may end come in time: the counter holds more than
the ticks to wait; or it holds fewer, and no poll falls between its reload and
the end of the wait; or, where it holds just as many, no poll comes before that. -/
def PollsInTime (counter ticks : Nat) (polls : List Nat) : Prop :=
  ticks < counter ∨ ∀ poll ∈ polls, poll < ticks → poll ≤ counter ∧ counter < ticks

instance (counter ticks : Nat) (polls : List Nat) : Decidable (PollsInTime counter ticks polls) :=
  inferInstanceAs (Decidable (_ ∨ _))

/-- With more left in the counter than the ticks to wait, no poll ends the wait
too soon. -/
theorem ends_in_time (timer : DelayTimer) {ticks : BitVec 32}
    (more : ticks < timer.internalCounter) {poll : Nat}
    (ends : ¬ timer.internalCounter - ticks < (timer.after poll).internalCounter) :
    ticks.toNat ≤ poll := by
  have counted := timer.internalCounter_after poll
  have bound := timer.internalCounter_lt
  rw [BitVec.lt_def] at more ends
  rw [BitVec.toNat_sub] at ends
  unfold period at *
  omega

/-- Otherwise a poll before the time is up goes on waiting until the counter is
reloaded, but not where the difference is zero. -/
theorem waits_on_iff (timer : DelayTimer) {ticks : BitVec 32}
    (enough : ¬ ticks < timer.internalCounter) {poll : Nat} (early : poll < ticks.toNat) :
    (timer.after poll).internalCounter < timer.internalCounter - ticks ↔
      poll ≤ timer.internalCounter.toNat ∧ timer.internalCounter.toNat < ticks.toNat := by
  have counted := timer.internalCounter_after poll
  have bound := timer.internalCounter_lt
  have boundAfter := (timer.after poll).internalCounter_lt
  have inside := ticks.isLt
  rw [BitVec.lt_def] at enough ⊢
  rw [BitVec.toNat_sub]
  unfold period at *
  rcases Nat.lt_or_eq_of_le (Nat.not_lt.mp enough) with fewer | same
  · have target : (2 ^ 32 - ticks.toNat + timer.internalCounter.toNat) % 2 ^ 32 =
        2 ^ 32 - ticks.toNat + timer.internalCounter.toNat := by omega
    rw [target]
    omega
  · have target : (2 ^ 32 - ticks.toNat + timer.internalCounter.toNat) % 2 ^ 32 = 0 := by omega
    rw [target]
    omega

/-- `delay_us` does not return early exactly when the polls come in time. -/
theorem delayUs_in_time_iff (timer : DelayTimer) (t : BitVec 32)
    (fits : t.toNat * (2500000000 / timerFrequency) < period) (gaps : List Nat) :
    (∀ elapsed, timer.delayUs t gaps = some elapsed →
        t.toNat * (2500000000 / timerFrequency) ≤ elapsed) ↔
      PollsInTime timer.readTimerUs.toNat (t.toNat * (2500000000 / timerFrequency))
        (polls 0 gaps) := by
  have ticks := toNat_timerTick fits
  rw [← ticks, readTimerUs_eq, delayUs, PollsInTime, readTimerUs_eq]
  by_cases more : timerTick t < timer.internalCounter
  · rw [if_pos more, waitWhile_bounded_iff]
    refine iff_of_true (fun poll _ ends => ?_) (.inl more)
    exact timer.ends_in_time more (of_decide_eq_false ends)
  · rw [if_neg more, waitWhile_bounded_iff, or_iff_right (mt BitVec.lt_def.mpr more)]
    refine forall₂_congr fun poll _ => ?_
    rw [decide_eq_false_iff_not, ← Nat.not_lt, Decidable.not_imp_not]
    exact forall_congr' fun early => timer.waits_on_iff more early

/-- One microsecond from a counter at ten, polled before the reload and after the time is
up: the wait goes on until the counter is reloaded once more. -/
theorem delayUs_in_time_from_ten :
    delayUs { internalCounter := 10 } 1 [6, 24, period - 15] = some (period + 15) ∧
      (1 : BitVec 32).toNat * (2500000000 / timerFrequency) ≤ period + 15 := by
  have reloaded : ∀ ticks, ticks = period + 15 →
      (after { internalCounter := 10 } ticks).internalCounter = 0xFFFFFFFA := by
    intro ticks elapsed
    have counted := internalCounter_after { internalCounter := 10 } ticks
    have bound := (after { internalCounter := 10 } ticks).internalCounter_lt
    apply BitVec.eq_of_toNat_eq
    simp only [BitVec.reduceToNat] at counted ⊢
    unfold period at *
    omega
  have again : (6 + 24) + (period - 15) = period + 15 := by decide
  have ends : delayUs { internalCounter := 10 } 1 [6, 24, period - 15] = some (period + 15) := by
    have ticks : timerTick 1 = 25 := by decide
    have searched := waitWhile_eq_find? (· < (10 : BitVec 32) - 25) { internalCounter := 10 } 0
      [6, 24, period - 15]
    rw [after] at searched
    rw [delayUs, ticks, readTimerUs_eq, if_neg (by decide)]
    refine searched.trans ?_
    rw [polls, List.find?_cons_of_neg (by decide), polls, List.find?_cons_of_neg (by decide),
      polls, List.find?_cons_of_pos, Nat.zero_add, again]
    rw [readTimerUs_eq, reloaded _ (by rw [Nat.zero_add, again])]
    decide
  refine ⟨ends, ?_⟩
  exact (delayUs_in_time_iff { internalCounter := 10 } 1 (by decide) [6, 24, period - 15]).mpr
    (by decide) _ ends

/-- A poll right after the reload ends a wait of 25 ticks after eleven. -/
theorem delayUs_early :
    delayUs { internalCounter := 10 } 1 [6, 5] = some 11 ∧
      11 < (1 : BitVec 32).toNat * (2500000000 / timerFrequency) := by
  decide

end DelayTimer
end DDSFunctionGen.Firmware

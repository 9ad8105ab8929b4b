/-!
# Loops that count up

`countedLoop body start stop` is `for (int i = start; i < stop; i++) body(i)`
with a body that leaves `i` alone.
-/

namespace DDSFunctionGen.Semantics

universe u v

variable {State : Type u} {body : Int → State → State}

/-- A number of passes of the loop, from an index on. -/
def loopFrom (body : Int → State → State) (index : Int) (state : State) : Nat → State
  | 0 => state
  | passes + 1 => loopFrom body (index + 1) (body index state) passes

/-- `for (int i = start; i < stop; i++)` -/
def countedLoop (body : Int → State → State) (start stop : Int) (state : State) : State :=
  loopFrom body start state (stop - start).toNat

/-- `for (int i = start; i >= stop; i--)` -/
def countedDown (body : Int → State → State) (start stop : Int) (state : State) : State :=
  countedLoop (fun pass => body (start - pass)) 0 (start - stop + 1) state

/-- A loop whose bounds have met does nothing. -/
@[simp] theorem countedLoop_empty {start stop : Int} (met : stop ≤ start) (state : State) :
    countedLoop body start stop state = state := by
  rw [countedLoop, Int.toNat_of_nonpos (by omega)]
  rfl

/-- The first pass of a loop. -/
theorem countedLoop_step {start stop : Int} (more : start < stop) (state : State) :
    countedLoop body start stop state = countedLoop body (start + 1) stop (body start state) := by
  have passes : (stop - start).toNat = (stop - (start + 1)).toNat + 1 := by omega
  rw [countedLoop, passes]
  rfl

/-- The passes of a loop, counted from zero. -/
theorem countedLoop_from_zero (start stop : Int) (state : State) :
    countedLoop body start stop state =
      countedLoop (fun pass => body (start + pass)) 0 (stop - start) state := by
  have shifted : ∀ (passes : Nat) (index : Int) (state : State),
      loopFrom body (start + index) state passes =
        loopFrom (fun pass => body (start + pass)) index state passes := by
    intro passes
    induction passes with
    | zero => exact fun _ _ => rfl
    | succ passes inductionHypothesis =>
        intro index state
        rw [loopFrom, loopFrom, Int.add_assoc, inductionHypothesis]
  rw [countedLoop, countedLoop, Int.sub_zero, ← shifted, Int.add_zero]

/-- Two loops of the same bounds whose passes keep a relation end related. -/
theorem countedLoop_related {Mirror : Type v} {mirrorBody : Int → Mirror → Mirror}
    (Related : Int → State → Mirror → Prop) {start stop : Int} (ordered : start ≤ stop)
    {state : State} {mirror : Mirror} (initial : Related start state mirror)
    (preserved : ∀ index state mirror, start ≤ index → index < stop →
      Related index state mirror →
        Related (index + 1) (body index state) (mirrorBody index mirror)) :
    Related stop (countedLoop body start stop state)
      (countedLoop mirrorBody start stop mirror) := by
  obtain ⟨passes, rfl⟩ : ∃ passes : Nat, stop = start + passes :=
    ⟨(stop - start).toNat, by omega⟩
  clear ordered
  induction passes generalizing start state mirror with
  | zero => simpa using initial
  | succ passes inductionHypothesis =>
      have bounds : start + ((passes + 1 : Nat) : Int) = start + 1 + passes := by omega
      have more : start < start + ((passes + 1 : Nat) : Int) := by omega
      rw [countedLoop_step more state, countedLoop_step more mirror]
      rw [bounds] at preserved ⊢
      refine inductionHypothesis (preserved start state mirror (by omega) (by omega) initial) ?_
      intro index state mirror above below
      exact preserved index state mirror (by omega) below

/-- A loop that carries a value from pass to pass is a loop over the values it takes. -/
theorem countedLoop_carries {Value : Type v} (body : Int → Value → State → State)
    (advance : Value → Value) (value : Int → Value)
    (advances : ∀ index, value (index + 1) = advance (value index)) (start stop : Int)
    (state : State) :
    (countedLoop (fun index (carried : State × Value) =>
        (body index carried.2 carried.1, advance carried.2)) start stop (state, value start)).1 =
      countedLoop (fun index => body index (value index)) start stop state := by
  by_cases ordered : start ≤ stop
  · let Carried : Int → State × Value → State → Prop := fun index pass after =>
      pass = (after, value index)
    suffices carried : Carried stop _ _ from congrArg Prod.fst carried
    refine countedLoop_related Carried ordered rfl ?_
    rintro index _ after - - rfl
    simp only [Carried, advances]
  · rw [countedLoop_empty (by omega), countedLoop_empty (by omega)]

/-- An invariant of the passes holds after the last of them. -/
theorem countedLoop_invariant (Invariant : Int → State → Prop) {start stop : Int}
    (ordered : start ≤ stop) {state : State} (initial : Invariant start state)
    (preserved : ∀ index state, start ≤ index → index < stop → Invariant index state →
      Invariant (index + 1) (body index state)) :
    Invariant stop (countedLoop body start stop state) :=
  @countedLoop_related State body Unit (fun _ mirror => mirror)
    (fun index state _ => Invariant index state) start stop ordered state () initial
    fun index state _ => preserved index state

/-- What one pass makes true and every pass keeps is true after the loop. -/
theorem countedLoop_marks {Marked : State → Prop} {start index stop : Int}
    (fromStart : start ≤ index) (beforeStop : index < stop)
    (marks : ∀ state, Marked (body index state))
    (kept : ∀ other state, Marked state → Marked (body other state)) (state : State) :
    Marked (countedLoop body start stop state) := by
  let Passed : Int → State → Prop := fun reached after => index < reached → Marked after
  have invariant : Passed stop (countedLoop body start stop state) := by
    refine countedLoop_invariant Passed (by omega) (by grind) ?_
    intro reached after above below earlier passed
    rcases Int.lt_or_eq_of_le (Int.lt_add_one_iff.mp passed) with before | rfl
    · exact kept reached after (earlier before)
    · exact marks after
  exact invariant beforeStop

theorem countedLoop_keeps {Marked : State → Prop} {start stop : Int}
    (kept : ∀ index state, Marked state → Marked (body index state)) {state : State}
    (marked : Marked state) : Marked (countedLoop body start stop state) := by
  by_cases ordered : start ≤ stop
  · exact countedLoop_invariant (fun _ => Marked) ordered marked
      fun index after _ _ earlier => kept index after earlier
  · rwa [countedLoop_empty (by omega)]

end DDSFunctionGen.Semantics

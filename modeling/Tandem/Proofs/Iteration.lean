import Tandem.Machine.Progress

/-!
# Rounds of a dispatch loop

`iterate` answers how a run ends. Here a run is taken apart into its rounds: `iteration step n` is
the state at the start of round `n`, if the run gets that far. A run ends in a round whose step is
over (`iterate_of_done`), and it goes on forever exactly if every round is reached
(`iterate_eq_none_iff`). What every step keeps holds at every round and at the end
(`iteration_invariant`, `iterate_invariant`).

Two loops whose steps correspond have corresponding rounds and corresponding ends
(`Lockstep.iteration`, `Lockstep.iterate`). If one of them may break away, they correspond until it
does (`LockstepUnless.iterate`, `LockstepUnless.ends`). If one of them may fail where the other one
does not, the runs of the one that end well are runs of the other (`Spared.iterate`).
-/

/-- Optional values stay related in every wider sense. -/
theorem Option.Rel.mono {α β : Type} {r s : α → β → Prop} {left : Option α} {right : Option β}
    (wider : ∀ a b, r a b → s a b) (related : Option.Rel r left right) :
    Option.Rel s left right := by
  cases related with
  | some related => exact .some (wider _ _ related)
  | none => exact .none

namespace Tandem

variable {σ τ : Type}

/-- The state after a step, if the run goes on. -/
def Progress.next? : Progress σ → Option σ
  | .running state => some state
  | .done _ _ => none

/-- The state that a step leaves. -/
def Progress.state : Progress σ → σ
  | .running state => state
  | .done _ state => state

/-- The state at the start of round `n` of a loop, if the run is not over by then. Rounds count
from zero. -/
def iteration (step : σ → Progress σ) : (n : Nat) → σ → Option σ
  | 0, state => some state
  | n + 1, state => (step state).next?.bind (iteration step n)

theorem iteration_succ (step : σ → Progress σ) (n : Nat) (state : σ) :
    iteration step (n + 1) state = (iteration step n state).bind fun next => (step next).next? := by
  induction n generalizing state with
  | zero => simp [iteration]
  | succ n ih =>
    rw [iteration, iteration]
    cases (step state).next? with
    | none => rfl
    | some next => exact ih next

/-- A round is reached from the round before it. -/
theorem iteration_succ_eq_some {step : σ → Progress σ} {n : Nat} {state next : σ} :
    iteration step (n + 1) state = some next ↔
      ∃ current, iteration step n state = some current ∧ step current = .running next := by
  rw [iteration_succ, Option.bind_eq_some_iff]
  constructor
  · rintro ⟨current, reached, after⟩
    refine ⟨current, reached, ?_⟩
    cases stepped : step current with
    | running target =>
      rw [stepped] at after
      exact congrArg Progress.running (Option.some.inj after)
    | done result final =>
      rw [stepped] at after
      cases after
  · rintro ⟨current, reached, stepped⟩
    exact ⟨current, reached, by rw [stepped]; rfl⟩

/-- The rounds before a reached round are reached too. -/
theorem iteration_of_le {step : σ → Progress σ} {m n : Nat} {state final : σ} (before : m ≤ n)
    (reached : iteration step n state = some final) :
    ∃ current, iteration step m state = some current := by
  induction n generalizing final with
  | zero => exact ⟨state, by rw [Nat.le_zero.mp before]; rfl⟩
  | succ n ih =>
    rcases Nat.lt_or_ge n m with later | earlier
    · exact ⟨final, by rw [show m = n + 1 by omega]; exact reached⟩
    · obtain ⟨current, reached, -⟩ := iteration_succ_eq_some.mp reached
      exact ih earlier reached

/-- Rounds after a reached round are rounds from its state. -/
theorem iteration_add {step : σ → Progress σ} {n : Nat} {state current : σ}
    (reached : iteration step n state = some current) (more : Nat) :
    iteration step (n + more) state = iteration step more current := by
  induction more with
  | zero => exact reached
  | succ more ih => rw [← Nat.add_assoc, iteration_succ, iteration_succ, ih]

/-- From a reached round on, a run goes as it goes from that round's state. -/
theorem iterate_add {step : σ → Progress σ} {n : Nat} {state current : σ}
    (reached : iteration step n state = some current) (fuel : Nat) :
    iterate step (n + fuel) state = iterate step fuel current := by
  induction n generalizing state with
  | zero =>
    cases reached
    rw [Nat.zero_add]
  | succ n ih =>
    rw [iteration, Option.bind_eq_some_iff] at reached
    obtain ⟨next, after, reached⟩ := reached
    rw [show n + 1 + fuel = n + fuel + 1 by omega, iterate]
    cases stepped : step state with
    | running target =>
      rw [stepped] at after
      cases after
      exact ih reached
    | done result final =>
      rw [stepped] at after
      cases after

/-- A run ends in the round whose step is over. -/
theorem iterate_of_done {step : σ → Progress σ} {n : Nat} {state current final : σ}
    {result : Except Fault UInt32} (reached : iteration step n state = some current)
    (stepped : step current = .done result final) :
    iterate step (n + 1) state = some ⟨result, final⟩ := by
  rw [iterate_add reached, iterate, stepped]

/-- A run has not ended after `n` steps exactly if it reaches round `n`. -/
theorem iterate_eq_none_iff {step : σ → Progress σ} {n : Nat} {state : σ} :
    iterate step n state = none ↔ ∃ current, iteration step n state = some current := by
  constructor
  · intro unfinished
    induction n generalizing state with
    | zero => exact ⟨state, rfl⟩
    | succ n ih =>
      rw [iterate] at unfinished
      cases stepped : step state with
      | running next =>
        rw [stepped] at unfinished
        obtain ⟨current, reached⟩ := ih unfinished
        exact ⟨current, by rw [iteration, stepped]; exact reached⟩
      | done result final =>
        rw [stepped] at unfinished
        cases unfinished
  · rintro ⟨current, reached⟩
    exact iterate_add reached 0

/-- A run that has ended reached the round that ended it. -/
theorem iterate_eq_some {step : σ → Progress σ} {fuel : Nat} {state : σ} {outcome : Outcome σ}
    (ended : iterate step fuel state = some outcome) :
    ∃ n current, n < fuel ∧ iteration step n state = some current ∧
      step current = .done outcome.result outcome.state := by
  induction fuel generalizing state with
  | zero => cases ended
  | succ fuel ih =>
    rw [iterate] at ended
    cases stepped : step state with
    | running next =>
      rw [stepped] at ended
      obtain ⟨n, current, inside, reached, stopped⟩ := ih ended
      exact ⟨n + 1, current, by omega, by rw [iteration, stepped]; exact reached, stopped⟩
    | done result final =>
      rw [stepped] at ended
      cases ended
      exact ⟨0, state, by omega, rfl, stepped⟩

/-- However many steps it may take, a run that ends comes to one outcome. -/
theorem iterate_unique {step : σ → Progress σ} {fuel fuel' : Nat} {state : σ} {one two : Outcome σ}
    (ended : iterate step fuel state = some one) (ended' : iterate step fuel' state = some two) :
    one = two := by
  induction fuel generalizing state fuel' with
  | zero => cases ended
  | succ fuel ih =>
    cases fuel' with
    | zero => cases ended'
    | succ fuel' =>
      rw [iterate] at ended ended'
      cases stepped : step state with
      | running next =>
        rw [stepped] at ended ended'
        exact ih ended ended'
      | done result final =>
        rw [stepped] at ended ended'
        exact Option.some.inj (ended.symm.trans ended')

/-! ## Invariants -/

/-- What every step keeps holds at every round. -/
theorem iteration_invariant {step : σ → Progress σ} {P : σ → Prop}
    (kept : ∀ state, P state → P (step state).state) {n : Nat} {state current : σ} (start : P state)
    (reached : iteration step n state = some current) : P current := by
  induction n generalizing current with
  | zero =>
    cases reached
    exact start
  | succ n ih =>
    obtain ⟨before, reached, stepped⟩ := iteration_succ_eq_some.mp reached
    have := kept before (ih reached)
    rwa [stepped] at this

/-- What every step keeps holds at the end. -/
theorem iterate_invariant {step : σ → Progress σ} {P : σ → Prop}
    (kept : ∀ state, P state → P (step state).state) {fuel : Nat} {state : σ} {outcome : Outcome σ}
    (start : P state) (ended : iterate step fuel state = some outcome) : P outcome.state := by
  obtain ⟨n, last, -, reached, stopped⟩ := iterate_eq_some ended
  have := kept last (iteration_invariant kept start reached)
  rwa [stopped] at this

/-- What every step keeps holds at the end if it holds after any one round. -/
theorem iterate_invariant_of_round {step : σ → Progress σ} {P : σ → Prop}
    (kept : ∀ state, P state → P (step state).state) {n fuel : Nat} {state current : σ}
    {outcome : Outcome σ} (reached : iteration step n state = some current)
    (ended : iterate step fuel state = some outcome) (holds : P (step current).state) :
    P outcome.state := by
  rcases Nat.lt_or_ge n fuel with inside | early
  · obtain ⟨more, rfl⟩ := Nat.exists_eq_add_of_lt inside
    rw [Nat.add_assoc, iterate_add reached, iterate] at ended
    cases stepped : step current with
    | running next =>
      rw [stepped] at ended holds
      exact iterate_invariant kept holds ended
    | done result final =>
      rw [stepped] at ended holds
      cases ended
      exact holds
  · have unfinished := iterate_eq_none_iff.mpr (iteration_of_le early reached)
    rw [ended] at unfinished
    cases unfinished

/-! ## Corresponding loops -/

/-- Two steps that came to the same: both runs go on, or both end with one result. -/
inductive Progress.Related (During After : σ → τ → Prop) : Progress σ → Progress τ → Prop
  | running {left : σ} {right : τ} (states : During left right) :
    Related During After (.running left) (.running right)
  | done {result : Except Fault UInt32} {left : σ} {right : τ} (states : After left right) :
    Related During After (.done result left) (.done result right)

theorem Progress.Related.flip {During After : σ → τ → Prop} {left : Progress σ} {right : Progress τ}
    (related : Progress.Related During After left right) :
    Progress.Related (fun right left => During left right) (fun right left => After left right)
      right left := by
  cases related with
  | running states => exact .running states
  | done states => exact .done states

/-- Two outcomes with the same result. -/
structure Outcome.Related (After : σ → τ → Prop) (left : Outcome σ) (right : Outcome τ) : Prop where
  result : left.result = right.result
  state : After left.state right.state

theorem Outcome.Related.mono {P Q : σ → τ → Prop} {left : Outcome σ} {right : Outcome τ}
    (wider : ∀ a b, P a b → Q a b) (related : Outcome.Related P left right) :
    Outcome.Related Q left right :=
  ⟨related.result, wider _ _ related.state⟩

/-- The steps of two loops correspond at states that `During` relates. -/
def Lockstep (leftStep : σ → Progress σ) (rightStep : τ → Progress τ) (During After : σ → τ → Prop) :
    Prop :=
  ∀ left right, During left right →
    Progress.Related During After (leftStep left) (rightStep right)

namespace Lockstep

variable {leftStep : σ → Progress σ} {rightStep : τ → Progress τ} {During After : σ → τ → Prop}
  {left : σ} {right : τ}

/-- Loops in lockstep reach the same rounds, in related states. -/
theorem iteration (lockstep : Lockstep leftStep rightStep During After) (start : During left right)
    (n : Nat) : Option.Rel During (iteration leftStep n left) (iteration rightStep n right) := by
  induction n generalizing left right with
  | zero => exact .some start
  | succ n ih =>
    rw [Tandem.iteration, Tandem.iteration]
    have stepped := lockstep left right start
    revert stepped
    generalize leftStep left = leftProgress
    generalize rightStep right = rightProgress
    intro stepped
    cases stepped with
    | running states => exact ih states
    | done states => exact .none

/-- Loops in lockstep end after the same number of steps and with the same result, if at all. -/
theorem iterate (lockstep : Lockstep leftStep rightStep During After) (start : During left right)
    (fuel : Nat) :
    Option.Rel (Outcome.Related After) (iterate leftStep fuel left)
      (iterate rightStep fuel right) := by
  induction fuel generalizing left right with
  | zero => exact .none
  | succ fuel ih =>
    rw [Tandem.iterate, Tandem.iterate]
    have stepped := lockstep left right start
    revert stepped
    generalize leftStep left = leftProgress
    generalize rightStep right = rightProgress
    intro stepped
    cases stepped with
    | running states => exact ih states
    | done states => exact .some ⟨rfl, states⟩

end Lockstep

/-! ## Loops of which one may fail -/

/-- The steps of two loops correspond at states that `During` relates, unless the left one fails. -/
def Spared (leftStep : σ → Progress σ) (rightStep : τ → Progress τ) (During After : σ → τ → Prop) :
    Prop :=
  ∀ left right, During left right →
    Progress.Related During After (leftStep left) (rightStep right) ∨
      ∃ fault final, leftStep left = .done (.error fault) final

/-- Where a left loop ends well, so does the right one, after the same number of steps. -/
theorem Spared.iterate {leftStep : σ → Progress σ} {rightStep : τ → Progress τ}
    {During After : σ → τ → Prop} {left leftFinal : σ} {right : τ} {fuel : Nat} {value : UInt32}
    (spared : Spared leftStep rightStep During After) (start : During left right)
    (ended : iterate leftStep fuel left = some ⟨.ok value, leftFinal⟩) :
    ∃ rightFinal, iterate rightStep fuel right = some ⟨.ok value, rightFinal⟩ ∧
      After leftFinal rightFinal := by
  induction fuel generalizing left right with
  | zero => cases ended
  | succ fuel ih =>
    rw [Tandem.iterate] at ended ⊢
    rcases spared left right start with related | ⟨fault, final, failed⟩
    · generalize leftStep left = leftProgress at related ended
      generalize rightStep right = rightProgress at related
      cases related with
      | running states => exact ih states ended
      | done states =>
        cases ended
        exact ⟨_, rfl, states⟩
    · rw [failed] at ended
      cases ended

/-! ## Loops that correspond until one breaks away -/

/-- What does not hold for ever, but to begin with, holds for a last time. -/
theorem exists_last {P : Nat → Prop} (start : P 0) (notAlways : ¬ ∀ n, P n) :
    ∃ n, P n ∧ ¬ P (n + 1) := by
  refine Classical.byContradiction fun noLast => notAlways fun n => ?_
  induction n with
  | zero => exact start
  | succ n ih => exact Classical.byContradiction fun fails => noLast ⟨n, ih, fails⟩

/-- The steps of two loops correspond, or the right loop breaks away. -/
def LockstepUnless (leftStep : σ → Progress σ) (rightStep : τ → Progress τ)
    (During After Away : σ → τ → Prop) : Prop :=
  ∀ left right, During left right →
    Progress.Related During After (leftStep left) (rightStep right) ∨
      Away left right ∧ ∀ next, rightStep right ≠ .running next

/-- How two loops end that correspond until the right one breaks away. -/
inductive Ends (leftStep : σ → Progress σ) (rightStep : τ → Progress τ)
    (During After Away : σ → τ → Prop) (left : σ) (right : τ) : Prop
  | same (fuel : Nat) {leftOutcome : Outcome σ} {rightOutcome : Outcome τ}
    (leftEnds : iterate leftStep fuel left = some leftOutcome)
    (rightEnds : iterate rightStep fuel right = some rightOutcome)
    (related : Outcome.Related After leftOutcome rightOutcome) :
    Ends leftStep rightStep During After Away left right
  | forever (leftRuns : ∀ fuel, iterate leftStep fuel left = none)
    (rightRuns : ∀ fuel, iterate rightStep fuel right = none) :
    Ends leftStep rightStep During After Away left right
  | away (n : Nat) {leftState : σ} {rightState : τ}
    (leftReached : iteration leftStep n left = some leftState)
    (rightReached : iteration rightStep n right = some rightState)
    (during : During leftState rightState) (away : Away leftState rightState) :
    Ends leftStep rightStep During After Away left right

namespace LockstepUnless

variable {leftStep : σ → Progress σ} {rightStep : τ → Progress τ}
  {During After Away : σ → τ → Prop} {left : σ} {right : τ}

/-- Until then, the loops are in related states at every round that both reach. -/
theorem iteration (lockstep : LockstepUnless leftStep rightStep During After Away)
    (start : During left right) {n : Nat} {leftState : σ} {rightState : τ}
    (leftReached : Tandem.iteration leftStep n left = some leftState)
    (rightReached : Tandem.iteration rightStep n right = some rightState) :
    During leftState rightState := by
  induction n generalizing leftState rightState with
  | zero =>
    cases leftReached
    cases rightReached
    exact start
  | succ n ih =>
    obtain ⟨leftBefore, leftReached, leftStepped⟩ := iteration_succ_eq_some.mp leftReached
    obtain ⟨rightBefore, rightReached, rightStepped⟩ := iteration_succ_eq_some.mp rightReached
    rcases lockstep _ _ (ih leftReached rightReached) with related | ⟨-, stopped⟩
    · rw [leftStepped, rightStepped] at related
      cases related with
      | running states => exact states
    · exact absurd rightStepped (stopped _)

/-- In any number of steps, the loops end alike, if they end, or there is a round in which the right
one breaks away. -/
theorem iterate (lockstep : LockstepUnless leftStep rightStep During After Away)
    (start : During left right) (fuel : Nat) :
    Option.Rel (Outcome.Related After) (Tandem.iterate leftStep fuel left)
        (Tandem.iterate rightStep fuel right) ∨
      ∃ n leftState rightState, n < fuel ∧ Tandem.iteration leftStep n left = some leftState ∧
        Tandem.iteration rightStep n right = some rightState ∧ During leftState rightState ∧
        Away leftState rightState := by
  induction fuel generalizing left right with
  | zero => exact .inl .none
  | succ fuel ih =>
    rcases lockstep left right start with related | ⟨away, -⟩
    · rw [Tandem.iterate, Tandem.iterate]
      cases leftStepped : leftStep left with
      | done result final =>
        rw [leftStepped] at related
        cases rightStepped : rightStep right with
        | running next =>
          rw [rightStepped] at related
          cases related
        | done result' final' =>
          rw [rightStepped] at related
          cases related with
          | done states => exact .inl (.some ⟨rfl, states⟩)
      | running leftNext =>
        rw [leftStepped] at related
        cases rightStepped : rightStep right with
        | done result final =>
          rw [rightStepped] at related
          cases related
        | running rightNext =>
          rw [rightStepped] at related
          cases related with
          | running states =>
            refine (ih states).imp_right ?_
            rintro ⟨n, leftState, rightState, inside, leftReached, rightReached, during, away⟩
            refine ⟨n + 1, leftState, rightState, Nat.succ_lt_succ inside, ?_, ?_, during, away⟩
            · rw [Tandem.iteration, leftStepped]
              exact leftReached
            · rw [Tandem.iteration, rightStepped]
              exact rightReached
    · exact .inr ⟨0, left, right, Nat.succ_pos fuel, rfl, rfl, start, away⟩

/-- The loops end alike, run on alike, or there is a round in which the right one breaks away. -/
theorem ends (lockstep : LockstepUnless leftStep rightStep During After Away)
    (start : During left right) : Ends leftStep rightStep During After Away left right := by
  let Common (n : Nat) : Prop := ∃ leftState rightState,
    Tandem.iteration leftStep n left = some leftState ∧
      Tandem.iteration rightStep n right = some rightState
  by_cases always : ∀ n, Common n
  · refine .forever (fun fuel => ?_) (fun fuel => ?_)
    · obtain ⟨leftState, -, reached, -⟩ := always fuel
      exact iterate_eq_none_iff.mpr ⟨leftState, reached⟩
    · obtain ⟨-, rightState, -, reached⟩ := always fuel
      exact iterate_eq_none_iff.mpr ⟨rightState, reached⟩
  · -- The last round that both reach decides between the other two ends.
    have start' : Common 0 := ⟨left, right, rfl, rfl⟩
    obtain ⟨n, ⟨leftState, rightState, leftReached, rightReached⟩, last⟩ :=
      exists_last start' always
    have during := lockstep.iteration start leftReached rightReached
    rcases lockstep _ _ during with related | ⟨away, -⟩
    · cases leftStepped : leftStep leftState with
      | running leftNext =>
        cases rightStepped : rightStep rightState with
        | running rightNext =>
          exact absurd ⟨leftNext, rightNext,
            iteration_succ_eq_some.mpr ⟨_, leftReached, leftStepped⟩,
            iteration_succ_eq_some.mpr ⟨_, rightReached, rightStepped⟩⟩ last
        | done result final =>
          rw [leftStepped, rightStepped] at related
          cases related
      | done result final =>
        rw [leftStepped] at related
        cases rightStepped : rightStep rightState with
        | running rightNext =>
          rw [rightStepped] at related
          cases related
        | done result' final' =>
          rw [rightStepped] at related
          cases related with
          | done states =>
            exact .same (n + 1) (iterate_of_done leftReached leftStepped)
              (iterate_of_done rightReached rightStepped) ⟨rfl, states⟩
    · exact .away n leftReached rightReached during away

end LockstepUnless

end Tandem

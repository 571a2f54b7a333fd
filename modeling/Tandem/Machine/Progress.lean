import Tandem.Fault

/-!
# Progress

A dispatch loop repeats a step until the run is over. A machine need not ever stop, so `iterate`
takes the number of steps that it may use; a run that ends in that many steps ends the same way
with more (`iterate_mono`), and a run that ends at no number of steps goes on forever.
-/

namespace Tandem

/-- What one step of a dispatch loop came to. -/
inductive Progress (σ : Type) where
  /-- The run goes on from a state. -/
  | running (state : σ)
  /-- The run is over: with the accumulator, or with a fault. -/
  | done (result : Except Fault UInt32) (state : σ)

/-- How a run ended, and the state that it left. -/
structure Outcome (σ : Type) where
  result : Except Fault UInt32
  state : σ

/-- Repeat `step` from a state, at most `fuel` times. -/
def iterate {σ : Type} (step : σ → Progress σ) : (fuel : Nat) → σ → Option (Outcome σ)
  | 0, _ => none
  | fuel + 1, state =>
    match step state with
    | .running next => iterate step fuel next
    | .done result final => some ⟨result, final⟩

/-- A run that is over stays the same with more fuel. -/
theorem iterate_mono {σ : Type} {step : σ → Progress σ} {fuel more : Nat} {state : σ}
    {outcome : Outcome σ} (enough : fuel ≤ more) (ended : iterate step fuel state = some outcome) :
    iterate step more state = some outcome := by
  induction fuel generalizing more state with
  | zero => exact nomatch ended
  | succ fuel ih =>
    obtain ⟨more, rfl⟩ : ∃ rest, more = rest + 1 := ⟨more - 1, by omega⟩
    simp only [iterate] at ended ⊢
    cases stepped : step state with
    | running next =>
      rw [stepped] at ended
      exact ih (by omega) ended
    | done result final =>
      rw [stepped] at ended
      exact ended

end Tandem

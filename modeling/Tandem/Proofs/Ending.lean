import Tandem.Proofs.Boundary
import Tandem.Proofs.Threaded.Bounds

/-!
# The last boundary of a run

A run that ends does so at the last of its boundaries (`Strategy.ends`), in one of four ways: there
is no instruction, the instruction fails, it succeeds and leads out of the image, or threaded
dispatch refuses to go where it leads. The only other way is to come to no boundary at all, because
there is no room for the engine's id.
-/

namespace Tandem

/-- How a run ends at a boundary. -/
inductive Boundary.Ends (image : Image) (boundary : Boundary) : Strategy → Outcome Machine → Prop
  | undecodable {strategy : Strategy} {fault : Fault}
    (undecoded : Instruction.decode image boundary.offset = .error fault) :
    Ends image boundary strategy ⟨.error fault, boundary.machine⟩
  | failed {strategy : Strategy} {instruction : Instruction} {fault : Fault} {after : Machine}
    (decoded : Instruction.decode image boundary.offset = .ok instruction)
    (failed : Machine.execute image boundary.offset instruction boundary.machine =
      .error fault after) :
    Ends image boundary strategy ⟨.error fault, after⟩
  | completed {strategy : Strategy} {instruction : Instruction} {flow : Flow} {after : Machine}
    {continuations : Stack} (decoded : Instruction.decode image boundary.offset = .ok instruction)
    (done : Machine.execute image boundary.offset instruction boundary.machine = .ok flow after) :
    Ends image boundary strategy
      ⟨.ok after.registers.accumulator, { after with continuations }⟩
  /-- A call finds no room for its id, or a return finds another id than its own. -/
  | refused {instruction : Instruction} {flow : Flow} {fault : Fault} {after : Machine}
    {continuations : Stack} (decoded : Instruction.decode image boundary.offset = .ok instruction)
    (done : Machine.execute image boundary.offset instruction boundary.machine = .ok flow after) :
    Ends image boundary .threaded ⟨.error fault, { after with continuations }⟩

variable {image : Image} {prepared : Machine} {m n : Nat}

/-! ## Rounds -/

theorem Sequential.ends_of_done {machine final : Machine} {result : Except Fault UInt32}
    (stops : step image machine = .done result final) :
    Boundary.Ends image ⟨machine.cursor, machine⟩ .sequential ⟨result, final⟩ := by
  cases decoded : Instruction.decode image machine.cursor with
  | error fault =>
    rw [step_of_undecodable decoded] at stops
    cases stops
    exact .undecodable decoded
  | ok instruction =>
    cases ran : Machine.execute image machine.cursor instruction machine with
    | error fault after =>
      rw [step_of_failed decoded ran] at stops
      cases stops
      exact .failed decoded ran
    | ok flow after =>
      rw [step_of_done decoded ran] at stops
      cases flow <;> cases stops <;> exact .completed decoded ran

/-- Finding the next operation changes nothing but the continuation stack. -/
theorem Threaded.successor_continuations (code : Code) (op : Op) (flow : Flow) (machine : Machine) :
    ∃ continuations,
      (successor code op flow).final machine = { machine with continuations } := by
  have kept {α : Type} (action : Stack.Action α) :
      Action.Preserves (fun state => ∃ continuations, state = { machine with continuations })
        (Machine.onContinuations action) := by
    rintro _ ⟨continuations, rfl⟩
    unfold Action.final Machine.onContinuations
    cases action continuations with
    | ok value stack => exact ⟨stack, rfl⟩
    | error fault stack => exact ⟨stack, rfl⟩
  exact successor_preserves (fun id => kept _) (kept _) code op flow machine
    ⟨machine.continuations, rfl⟩

theorem Threaded.ends_of_done {code : Code} {thread final : Thread} {op : Op}
    {result : Except Fault UInt32} (faithful : code.Faithful image)
    (found : code.ops[thread.position]? = some op)
    (stops : step image code thread = .done result final) :
    Boundary.Ends image ⟨op.offset, thread.machine⟩ .threaded ⟨result, final.machine⟩ := by
  have settled := (faithful.settled _ _ found).decoded
  cases decoded : op.decoded with
  | error fault =>
    rw [step_of_undecodable found decoded] at stops
    cases stops
    exact .undecodable (settled.symm.trans decoded)
  | ok instruction =>
    have decode := settled.symm.trans decoded
    cases ran : Machine.execute image op.offset instruction thread.machine with
    | error fault after =>
      rw [step_of_error found decoded (dispatch_of_failed ran)] at stops
      cases stops
      exact .failed decode ran
    | ok flow after =>
      obtain ⟨continuations, kept⟩ := successor_continuations code op flow after
      have dispatched : dispatch image code op instruction thread.machine =
        successor code op flow after := dispatch_of_done ran
      cases led : successor code op flow after with
      | error fault machine =>
        rw [Action.final_of_error led] at kept
        rw [step_of_error found decoded (dispatched.trans led), kept] at stops
        cases stops
        exact .refused decode ran
      | ok link machine =>
        rw [Action.final_of_ok led] at kept
        cases link with
        | some position =>
          rw [step_of_some found decoded (dispatched.trans led)] at stops
          cases stops
        | none =>
          rw [step_of_none found decoded (dispatched.trans led), kept] at stops
          cases stops
          have completed : Boundary.Ends image ⟨op.offset, thread.machine⟩ .threaded
            ⟨.ok after.registers.accumulator, { after with continuations }⟩ := .completed decode ran
          exact completed

/-! ## Runs -/

namespace Strategy

variable {strategy : Strategy} {boundary : Boundary} {fuel : Nat} {outcome : Outcome Machine}

/-- The boundaries before a boundary are there. -/
theorem boundary?_of_le (before : m ≤ n)
    (arrived : strategy.boundary? image prepared n = some boundary) :
    ∃ earlier, strategy.boundary? image prepared m = some earlier := by
  induction before generalizing boundary with
  | refl => exact ⟨boundary, arrived⟩
  | step _ ih =>
    obtain ⟨previous, _, _, arrived, -⟩ := passes arrived
    exact ih arrived

/-- The boundaries after the last one are not. -/
theorem boundary?_eq_none_of_le (before : m ≤ n) (none : strategy.boundary? image prepared m = none) :
    strategy.boundary? image prepared n = .none := by
  cases arrived : strategy.boundary? image prepared n with
  | none => rfl
  | some boundary =>
    obtain ⟨earlier, arrived⟩ := boundary?_of_le before arrived
    rw [none] at arrived
    cases arrived

theorem boundary?_eq_none_of_dispatch
    (ended : strategy.dispatch image n prepared = some outcome) :
    strategy.boundary? image prepared n = none := by
  cases arrived : strategy.boundary? image prepared n with
  | none => rfl
  | some boundary =>
    rw [dispatch_eq_none_iff.mpr ⟨boundary, arrived⟩] at ended
    cases ended

/-- The last boundary of a run, and what the run comes to there. -/
structure EndsAt (strategy : Strategy) (image : Image) (prepared : Machine) (n : Nat)
    (boundary : Boundary) (outcome : Outcome Machine) : Prop where
  arrived : strategy.boundary? image prepared n = some boundary
  last : strategy.boundary? image prepared (n + 1) = none
  ends : boundary.Ends image strategy outcome

/-- A run that ends has a last boundary, or no boundary at all. -/
theorem ends (ended : strategy.dispatch image fuel prepared = some outcome) :
    (∃ n boundary, n < fuel ∧ strategy.EndsAt image prepared n boundary outcome) ∨
      strategy = .threaded ∧ strategy.boundary? image prepared 0 = none ∧
        ∃ fault, outcome = ⟨.error fault, prepared⟩ := by
  cases strategy with
  | sequential =>
    obtain ⟨n, machine, inside, reached, stops⟩ := iterate_eq_some ended
    have ended' : sequential.dispatch image (n + 1) prepared = some outcome :=
      iterate_of_done reached stops
    exact .inl ⟨n, _, inside, boundary?_sequential.mpr ⟨machine, reached, rfl⟩,
      boundary?_eq_none_of_dispatch ended', Sequential.ends_of_done stops⟩
  | threaded =>
    cases rooted : Machine.onContinuations (Stack.push Threaded.rootId) prepared with
    | error fault refused =>
      have none : threaded.boundary? image prepared 0 = none := by
        rw [boundary?, rooted]
      refine .inr ⟨rfl, none, fault, ?_⟩
      rw [dispatch, Threaded.run, rooted] at ended
      cases ended
      unfold Machine.onContinuations at rooted
      cases pushed : Stack.push Threaded.rootId prepared.continuations with
      | ok value stack =>
        rw [pushed] at rooted
        cases rooted
      | error fault stack =>
        obtain ⟨-, -, rfl⟩ := Stack.push_eq_error pushed
        rw [pushed] at rooted
        cases rooted
        rfl
    | ok _ entered =>
      have ended' := ended
      rw [dispatch, Threaded.run_eq rooted] at ended'
      obtain ⟨⟨result, final⟩, dispatched, rfl⟩ := Option.map_eq_some_iff.mp ended'
      obtain ⟨n, thread, inside, reached, stops⟩ := iterate_eq_some dispatched
      have faithful := Threaded.faithful_ofImage image
      obtain ⟨op, found⟩ := Threaded.found_of_iteration faithful reached
      have last : threaded.dispatch image (n + 1) prepared = some ⟨result, final.machine⟩ := by
        rw [dispatch, Threaded.run_eq rooted, iterate_of_done reached stops]
        rfl
      exact .inl ⟨n, _, inside,
        boundary?_threaded.mpr ⟨entered, thread, op, rooted, reached, found, rfl⟩,
        boundary?_eq_none_of_dispatch last, Threaded.ends_of_done faithful found stops⟩

end Strategy

end Tandem

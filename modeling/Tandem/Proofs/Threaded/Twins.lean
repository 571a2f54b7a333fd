import Tandem.Proofs.Machine.Twins
import Tandem.Proofs.Threaded.Dispatch

/-!
# Threaded runs of twins

Twins stay twins in every round of a threaded run too, and their threads are always at the same
operation (`Threaded.lockstep_twins`). Here the simulation of the continuation stacks counts: the
ids that are popped decide where a run goes on. Again a round may end the left run with a waived
fault (`Threaded.step_twins`).
-/

namespace Tandem.Threaded

variable {waived : Fault → Prop} {R S : Stack → Stack → Prop}

/-- Twins at one operation. -/
structure Twins (R S : Stack → Stack → Prop) (left right : Thread) : Prop where
  position : left.position = right.position
  machine : Machine.Twins R S left.machine right.machine

theorem onContinuations_twins {α : Type} {action : Stack.Action α}
    (kept : Action.Respects waived S action action) :
    Action.Respects waived (Machine.Twins R S) (Machine.onContinuations action)
      (Machine.onContinuations action) := by
  intro left right twins
  have result := kept left.continuations right.continuations twins.surroundings.continuations
  simp only [Machine.onContinuations]
  revert result
  generalize action left.continuations = leftResult
  generalize action right.continuations = rightResult
  intro result
  cases result with
  | ok states => exact .ok (twins.withContinuations states)
  | error states => exact .error (twins.withContinuations states)
  | waived excuse => exact .waived excuse

theorem follow_twins (link : Option Nat) (offset : Nat) :
    Action.Respects waived (Machine.Twins R S) (follow link offset) (follow link offset) := by
  cases link with
  | some index => exact .pure index
  | none => exact .throw _

theorem successor_twins (simulation : Stack.Simulation waived S) (code : Code) (op : Op)
    (flow : Flow) :
    Action.Respects waived (Machine.Twins R S) (successor code op flow)
      (successor code op flow) := by
  cases flow with
  | next => exact .bind (follow_twins _ _) fun _ => .pure _
  | branch target => exact .bind (follow_twins _ _) fun _ => .pure _
  | call target =>
    exact .bind (follow_twins _ _) fun _ =>
      .bind (onContinuations_twins (simulation.push op.continuation)) fun _ => .pure _
  | toCaller address =>
    refine .bind (onContinuations_twins (simulation.pop UInt32)) fun id => ?_
    cases code.resume? id with
    | none => exact .throw _
    | some resume =>
      by_cases fits : resume.returnOffset = address
      · simp only [if_pos fits]
        exact .pure _
      · simp only [if_neg fits]
        exact .throw _
  | toEngine =>
    refine .bind (onContinuations_twins (simulation.pop UInt32)) fun id => ?_
    by_cases root : id = rootId
    · rw [if_pos root]
      exact .pure _
    · rw [if_neg root]
      exact .throw _
  | halt => exact .pure _

theorem dispatch_twins (operands : Stack.Simulation waived R)
    (continuations : Stack.Simulation waived S) (image : Image) (code : Code) (op : Op)
    (instruction : Instruction) :
    Action.Respects waived (Machine.Twins R S) (dispatch image code op instruction)
      (dispatch image code op instruction) :=
  .bind (Machine.twins_execute operands image op.offset instruction) fun flow =>
    successor_twins continuations code op flow

/-- A round of twins comes to the same, unless it ends the left run with a waived fault. -/
theorem step_twins (operands : Stack.Simulation waived R)
    (continuations : Stack.Simulation waived S) (image : Image) (code : Code) {left right : Thread}
    (twins : Twins R S left right) :
    Progress.Related (Twins R S) (Twins R S) (step image code left) (step image code right) ∨
      ∃ fault final, waived fault ∧ step image code left = .done (.error fault) final := by
  obtain ⟨position, left⟩ := left
  obtain ⟨_, right⟩ := right
  obtain ⟨rfl, twins⟩ := twins
  cases found : code.ops[position]? with
  | none =>
    rw [step_of_missing found, step_of_missing found]
    exact .inl (.done ⟨rfl, twins⟩)
  | some op =>
    cases decoded : op.decoded with
    | error fault =>
      rw [step_of_undecodable found decoded, step_of_undecodable found decoded]
      exact .inl (.done ⟨rfl, twins⟩)
    | ok instruction =>
      have related := dispatch_twins operands continuations image code op instruction left right twins
      cases ran : dispatch image code op instruction left with
      | error fault leftAfter =>
        rw [ran] at related
        generalize ran' : dispatch image code op instruction right = rightResult at related
        rw [step_of_error found decoded ran]
        cases related with
        | error after =>
          rw [step_of_error found decoded ran']
          exact .inl (.done ⟨rfl, after⟩)
        | waived excuse => exact .inr ⟨fault, _, excuse, rfl⟩
      | ok successor leftAfter =>
        rw [ran] at related
        obtain ⟨rightAfter, ran', after⟩ := related.of_ok
        cases successor with
        | some next =>
          rw [step_of_some found decoded ran, step_of_some found decoded ran']
          exact .inl (.running ⟨rfl, after⟩)
        | none =>
          rw [step_of_none found decoded ran, step_of_none found decoded ran', after.registers]
          exact .inl (.done ⟨rfl, after⟩)

/-- Threaded runs of twins go through the same rounds. -/
theorem lockstep_twins (operands : Stack.Simulation Fault.NoneWaived R)
    (continuations : Stack.Simulation Fault.NoneWaived S) (image : Image) (code : Code) :
    Lockstep (step image code) (step image code) (Twins R S) (Twins R S) :=
  fun _ _ twins => (step_twins operands continuations image code twins).resolve_right
    fun ⟨_, _, excuse, _⟩ => excuse

/-- Whole threaded runs of twins, from the push of the engine's id on. -/
theorem run_twins (operands : Stack.Simulation Fault.NoneWaived R)
    (continuations : Stack.Simulation Fault.NoneWaived S) (image : Image) (code : Code)
    {left right : Machine} (twins : Machine.Twins R S left right) (fuel : Nat) :
    Option.Rel (Outcome.Related (Machine.Twins R S)) (run image code fuel left)
      (run image code fuel right) := by
  have result := onContinuations_twins (R := R) (continuations.push rootId) left right twins
  rw [run, run]
  revert result
  generalize Machine.onContinuations (Stack.push rootId) left = leftResult
  generalize Machine.onContinuations (Stack.push rootId) right = rightResult
  intro result
  cases result with
  | error after => exact .some ⟨rfl, after⟩
  | waived excuse => exact excuse.elim
  | @ok _ leftEntered rightEntered after =>
    have start : Twins R S ⟨0, leftEntered⟩ ⟨0, rightEntered⟩ := ⟨rfl, after⟩
    have ends := (lockstep_twins operands continuations image code).iterate start fuel
    dsimp only
    revert ends
    generalize iterate (step image code) fuel ⟨0, leftEntered⟩ = leftEnd
    generalize iterate (step image code) fuel ⟨0, rightEntered⟩ = rightEnd
    intro ends
    cases ends with
    | none => exact .none
    | some outcomes => exact .some ⟨outcomes.result, outcomes.state.machine⟩

/-- Threads at one operation, on machines whose stacks hold the same bytes. -/
abbrev Alike (stale : Prop) (stackSize : Nat) (leftGrowth rightGrowth : Growth) :
    Thread → Thread → Prop :=
  Twins (Stack.Alike stale stackSize leftGrowth rightGrowth)
    (Stack.Alike stale (Machine.continuationCapacity stackSize) leftGrowth rightGrowth)

variable {stale : Prop} {stackSize : Nat} {leftGrowth rightGrowth : Growth} {left right : Machine}

theorem lockstep_alike (image : Image) (code : Code) :
    Lockstep (step image code) (step image code) (Alike stale stackSize leftGrowth rightGrowth)
      (Alike stale stackSize leftGrowth rightGrowth) :=
  lockstep_twins (Stack.Alike.simulation _ _ _ _) (Stack.Alike.simulation _ _ _ _) image code

theorem run_alike (image : Image) (code : Code)
    (alike : Machine.Alike stale stackSize leftGrowth rightGrowth left right) (fuel : Nat) :
    Option.Rel (Outcome.Related (Machine.Alike stale stackSize leftGrowth rightGrowth))
      (run image code fuel left) (run image code fuel right) :=
  run_twins (Stack.Alike.simulation _ _ _ _) (Stack.Alike.simulation _ _ _ _) image code alike fuel

end Tandem.Threaded

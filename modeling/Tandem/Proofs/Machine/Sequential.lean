import Tandem.Machine.Sequential
import Tandem.Proofs.Iteration
import Tandem.Proofs.Machine.Similar

/-!
# Rounds of sequential dispatch

The three things that a round can be: a decode that fails, an instruction that fails, and an
instruction that succeeds and leads on. Records are only ever added, so the records at any moment of
a run are the first ones of the records at every later moment (`Sequential.records_iteration`,
`Sequential.records_state_iterate`).
-/

namespace Tandem

namespace Machine

variable {image : Image} {offset : Nat} {instruction : Instruction} {machine after : Machine}

/-- The records of a machine in the order in which they were made. -/
def records (machine : Machine) : List Record := (machine.trace.getD []).reverse

theorem records_congr (same : machine.trace = after.trace) : machine.records = after.records := by
  rw [records, records, same]

theorem surroundings_of_done {flow : Flow}
    (done : execute image offset instruction machine = .ok flow after) :
    after.surroundings = machine.surroundings.recorded (after.record offset instruction) := by
  have kept := surroundings_execute image offset instruction machine
  rw [done] at kept
  exact kept

theorem surroundings_of_failed {fault : Fault}
    (failed : execute image offset instruction machine = .error fault after) :
    after.surroundings = machine.surroundings := by
  have kept := surroundings_execute image offset instruction machine
  rw [failed] at kept
  exact kept

/-- A completed instruction adds a record if records are kept. -/
theorem records_of_done {flow : Flow}
    (done : execute image offset instruction machine = .ok flow after) :
    machine.records <+: after.records := by
  have trace : after.trace = machine.trace.map (after.record offset instruction :: ·) :=
    congrArg Surroundings.trace (surroundings_of_done done)
  rw [records, records, trace]
  cases machine.trace with
  | none => exact List.prefix_refl _
  | some newest =>
    rw [Option.map_some, Option.getD_some, Option.getD_some, List.reverse_cons]
    exact List.prefix_append _ _

end Machine

namespace Sequential

variable {image : Image} {machine after : Machine} {instruction : Instruction} {fault : Fault}

theorem step_of_undecodable (decoded : Instruction.decode image machine.cursor = .error fault) :
    step image machine = .done (.error fault) machine := by
  rw [step, decoded]

theorem step_of_failed (decoded : Instruction.decode image machine.cursor = .ok instruction)
    (failed : Machine.execute image machine.cursor instruction machine = .error fault after) :
    step image machine = .done (.error fault) after := by
  simp only [step, decoded, failed]

theorem step_of_done {flow : Flow}
    (decoded : Instruction.decode image machine.cursor = .ok instruction)
    (done : Machine.execute image machine.cursor instruction machine = .ok flow after) :
    step image machine = follow instruction.length flow after := by
  simp only [step, decoded, done]

/-- A round that goes on is one in which an instruction succeeds. -/
theorem done_of_running {next : Machine} (goesOn : step image machine = .running next) :
    ∃ instruction flow after, Instruction.decode image machine.cursor = .ok instruction ∧
      Machine.execute image machine.cursor instruction machine = .ok flow after ∧
      follow instruction.length flow after = .running next := by
  cases decoded : Instruction.decode image machine.cursor with
  | error fault =>
    rw [step_of_undecodable decoded] at goesOn
    cases goesOn
  | ok instruction =>
    cases done : Machine.execute image machine.cursor instruction machine with
    | error fault after =>
      rw [step_of_failed decoded done] at goesOn
      cases goesOn
    | ok flow after =>
      rw [step_of_done decoded done] at goesOn
      exact ⟨instruction, flow, after, rfl, done, goesOn⟩

theorem trace_follow (length : Nat) (flow : Flow) (machine : Machine) :
    (follow length flow machine).state.trace = machine.trace := by
  cases flow <;> rfl

theorem records_step (image : Image) (machine : Machine) :
    machine.records <+: (step image machine).state.records := by
  cases decoded : Instruction.decode image machine.cursor with
  | error fault =>
    rw [step_of_undecodable decoded]
    exact List.prefix_refl _
  | ok instruction =>
    cases ran : Machine.execute image machine.cursor instruction machine with
    | error fault after =>
      have trace := congrArg Machine.Surroundings.trace (Machine.surroundings_of_failed ran)
      rw [step_of_failed decoded ran, Machine.records_congr trace.symm]
      exact List.prefix_refl _
    | ok flow after =>
      rw [step_of_done decoded ran, Machine.records_congr (trace_follow instruction.length flow after)]
      exact Machine.records_of_done ran

theorem records_iteration {n : Nat} {later : Machine}
    (reached : iteration (step image) n machine = some later) :
    machine.records <+: later.records :=
  iteration_invariant (P := fun state => machine.records <+: state.records)
    (fun state before => before.trans (records_step image state)) (List.prefix_refl _) reached

/-- The records after one round are the first ones at every later round. -/
theorem records_state_iteration {n m : Nat} {current later : Machine}
    (reached : iteration (step image) n machine = some current) (after : n < m)
    (reached' : iteration (step image) m machine = some later) :
    (step image current).state.records <+: later.records := by
  obtain ⟨more, rfl⟩ := Nat.exists_eq_add_of_lt after
  rw [Nat.add_assoc, iteration_add reached, iteration] at reached'
  cases stepped : step image current with
  | running next =>
    rw [stepped] at reached'
    exact records_iteration reached'
  | done result final =>
    rw [stepped] at reached'
    cases reached'

/-- They are the first ones of the whole run. -/
theorem records_state_iterate {n fuel : Nat} {current : Machine} {outcome : Outcome Machine}
    (reached : iteration (step image) n machine = some current)
    (ended : iterate (step image) fuel machine = some outcome) :
    (step image current).state.records <+: outcome.state.records :=
  iterate_invariant_of_round
    (P := fun state => (step image current).state.records <+: state.records)
    (fun state before => before.trans (records_step image state)) reached ended (List.prefix_refl _)

end Sequential

end Tandem

import Tandem.Proofs.Machine.Completed
import Tandem.Proofs.Stack.Words
import Tandem.Proofs.Threaded.Table
import Tandem.Threaded.Dispatch

/-!
# Rounds of threaded dispatch

What a round comes to, by the flow of its instruction. Links of settled operations are never missing
where control goes along them (`Op.Settled.next_eq_some`, `Op.Settled.taken_eq_some`), so a round
whose instruction has succeeded can only fail on the continuation stack.
-/

namespace Tandem.Threaded

variable {image : Image} {code : Code} {thread : Thread} {op : Op} {instruction : Instruction}
  {machine after : Machine} {flow : Flow} {fault : Fault}

/-! ## Rounds -/

theorem step_of_undecodable (found : code.ops[thread.position]? = some op)
    (decoded : op.decoded = .error fault) :
    step image code thread = .done (.error fault) thread := by
  simp only [step, found, decoded]

theorem step_of_missing (missing : code.ops[thread.position]? = none) :
    step image code thread = .done (.error (.endOfImage thread.position)) thread := by
  simp only [step, missing]

theorem step_of_error {final : Machine} (found : code.ops[thread.position]? = some op)
    (decoded : op.decoded = .ok instruction)
    (failed : dispatch image code op instruction thread.machine = .error fault final) :
    step image code thread = .done (.error fault) { thread with machine := final } := by
  simp only [step, found, decoded, failed]

theorem step_of_some {final : Machine} {position : Nat}
    (found : code.ops[thread.position]? = some op) (decoded : op.decoded = .ok instruction)
    (leads : dispatch image code op instruction thread.machine = .ok (some position) final) :
    step image code thread = .running { position, machine := final } := by
  simp only [step, found, decoded, leads]

theorem step_of_none {final : Machine} (found : code.ops[thread.position]? = some op)
    (decoded : op.decoded = .ok instruction)
    (ends : dispatch image code op instruction thread.machine = .ok none final) :
    step image code thread =
      .done (.ok final.registers.accumulator) { thread with machine := final } := by
  simp only [step, found, decoded, ends]

theorem dispatch_of_failed
    (failed : Machine.execute image op.offset instruction machine = .error fault after) :
    dispatch image code op instruction machine = .error fault after := by
  rw [dispatch, Action.bind_of_error failed]

theorem dispatch_of_done
    (done : Machine.execute image op.offset instruction machine = .ok flow after) :
    dispatch image code op instruction machine = successor code op flow after := by
  rw [dispatch, Action.bind_of_ok done]

/-! ## Links -/

/-- Where an instruction falls through, the link of its operation leads just past it. -/
theorem Op.Settled.next_eq_some (settled : op.Settled image code.ops)
    (decoded : op.decoded = .ok instruction) (through : instruction.fallsThrough = true) :
    ∃ index, op.next = some index ∧ Stands code.ops (op.offset + instruction.length) index := by
  have link := settled.next
  simp only [Op.fallThrough?, decoded, Threaded.fallThrough?, through, if_true] at link
  cases linked : op.next with
  | none =>
    rw [linked] at link
    cases link
  | some index =>
    rw [linked] at link
    cases link with
    | some stands => exact ⟨index, rfl, stands⟩

/-- Where an instruction leads to a destination, so does the link of its operation. -/
theorem Op.Settled.taken_eq_some (settled : op.Settled image code.ops)
    (decoded : op.decoded = .ok instruction) {target : Target} {destination : Nat}
    (leaves : instruction.target? = some target)
    (leads : target.resolve (op.offset + instruction.length) = .ok destination) :
    ∃ index, op.taken = some index ∧ Stands code.ops destination index := by
  have link := settled.taken
  simp only [Op.destination?, decoded, Threaded.destination?, leaves, Option.bind_some, leads,
    Except.toOption] at link
  cases linked : op.taken with
  | none =>
    rw [linked] at link
    cases link
  | some index =>
    rw [linked] at link
    cases link with
    | some stands => exact ⟨index, rfl, stands⟩

/-- A call returns to the offset just past it. -/
theorem Op.returnOffset_of_resume? {resume : Resume} (call : op.resume? = some resume) :
    resume.returnOffset = op.nextOffset := by
  unfold Op.resume? at call
  split at call
  · cases call
    rfl
  · cases call

/-- A settled call has an entry in the resume table. -/
theorem Op.Settled.resume_of_call {width : Width} {target : Target}
    (settled : op.Settled image code.ops) (decoded : op.decoded = .ok (.call width target)) :
    ∃ resume, op.resume? = some resume := by
  obtain ⟨behind, linked, -⟩ := settled.next_eq_some decoded rfl
  exact ⟨⟨op.nextOffset, behind⟩, by rw [Op.resume?, decoded, linked]⟩

/-! ## Successors -/

theorem successor_next {index : Nat} (linked : op.next = some index) :
    successor code op .next machine = .ok (some index) machine := by
  rw [successor, linked]
  rfl

theorem successor_branch {index target : Nat} (linked : op.taken = some index) :
    successor code op (.branch target) machine = .ok (some index) machine := by
  rw [successor, linked]
  rfl

theorem successor_call_of_room {index target : Nat} (linked : op.taken = some index)
    (room : Machine.continuationSize ≤ machine.continuations.available) :
    successor code op (.call target) machine = .ok (some index)
      { machine with
        continuations := machine.continuations.append (Scalar.encode op.continuation) } := by
  have pushed := Stack.push_of_room op.continuation room
  simp only [successor, linked, follow, Action.bind_apply, Action.pure_apply,
    Machine.onContinuations, pushed]

theorem successor_call_of_full {index target : Nat} (linked : op.taken = some index)
    (full : machine.continuations.available < Machine.continuationSize) :
    successor code op (.call target) machine = .error
      (.stackOverflow Machine.continuationSize machine.continuations.available) machine := by
  have refused := Stack.push_of_full op.continuation full
  simp only [successor, linked, follow, Action.bind_apply, Action.pure_apply,
    Machine.onContinuations, refused]
  rfl

variable {id : UInt32} {ids : List UInt32}

theorem onContinuations_of_ok {α : Type} {action : Stack.Action α} {value : α} {stack : Stack}
    (done : action machine.continuations = .ok value stack) :
    Machine.onContinuations action machine = .ok value { machine with continuations := stack } := by
  rw [Machine.onContinuations, done]

theorem popped (holds : Stack.Holds (id :: ids) machine.continuations) :
    Machine.onContinuations (Stack.pop UInt32) machine =
      .ok id { machine with continuations := machine.continuations.drop Machine.continuationSize } :=
  onContinuations_of_ok holds.pop.1

/-- A return goes on where the newest id says if the frame returns there. -/
theorem successor_toCaller_of_resume {resume : Resume}
    (holds : Stack.Holds (id :: ids) machine.continuations) (named : code.resume? id = some resume) :
    successor code op (.toCaller resume.returnOffset) machine = .ok (some resume.op)
      { machine with continuations := machine.continuations.drop Machine.continuationSize } := by
  rw [successor, Action.bind_of_ok (popped holds), named]
  dsimp only
  rw [if_pos rfl]
  rfl

theorem successor_toCaller_of_mismatch {address : Nat}
    (holds : Stack.Holds (id :: ids) machine.continuations)
    (strays : ∀ resume, code.resume? id = some resume → resume.returnOffset ≠ address) :
    successor code op (.toCaller address) machine =
      .error (.malformedFrame op.offset (.continuation id))
        { machine with continuations := machine.continuations.drop Machine.continuationSize } := by
  rw [successor, Action.bind_of_ok (popped holds)]
  cases named : code.resume? id with
  | none => rfl
  | some resume =>
    dsimp only
    rw [if_neg (strays resume named)]
    rfl

/-- A return to the engine ends the run if its own id is next. -/
theorem successor_toEngine_of_root (holds : Stack.Holds (rootId :: ids) machine.continuations) :
    successor code op .toEngine machine = .ok none
      { machine with continuations := machine.continuations.drop Machine.continuationSize } := by
  rw [successor, Action.bind_of_ok (popped holds), if_pos rfl]
  rfl

theorem successor_toEngine_of_mismatch (holds : Stack.Holds (id :: ids) machine.continuations)
    (strays : id ≠ rootId) :
    successor code op .toEngine machine = .error (.malformedFrame op.offset (.continuation id))
      { machine with continuations := machine.continuations.drop Machine.continuationSize } := by
  rw [successor, Action.bind_of_ok (popped holds), if_neg strays]
  rfl

end Tandem.Threaded

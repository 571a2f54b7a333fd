import Tandem.Proofs.Engine.Capacity
import Tandem.Proofs.Threaded.Nesting

/-!
# Runs between two instructions

A run of a prepared machine goes from one instruction boundary to the next, by either strategy. A
boundary shows the offset that control is at and the machine; how a strategy keeps track of the
offset, in the cursor or as a place in a table, is left out.

Each boundary comes of the one before it by one instruction that succeeded (`Strategy.passes`), and
a run that has not ended is at a boundary (`Strategy.dispatch_eq_none_iff`). An instruction that
fails ends the run with its fault (`Strategy.dispatch_of_failed`).
-/

namespace Tandem

/-- A run between two instructions: where control is, and the machine. -/
structure Boundary where
  offset : Nat
  machine : Machine

/-- Where control goes after an instruction, as long as it stays in the image. `next` is the offset
just past the instruction. -/
def Flow.destination? (next : Nat) : Flow → Option Nat
  | .next => some next
  | .branch target => some target
  | .call target => some target
  | .toCaller address => some address
  | .toEngine => none
  | .halt => none

/-- An instruction of the image succeeds at a boundary and leads to another one. Of the machine, only
what tells the strategy its way can be changed on top of what the instruction did. -/
structure Passes (image : Image) (before : Boundary) (instruction : Instruction) (flow : Flow)
    (after : Boundary) : Prop where
  decoded : Instruction.decode image before.offset = .ok instruction
  done : ∃ machine,
    Machine.execute image before.offset instruction before.machine = .ok flow machine ∧
      after.machine = { machine with
        cursor := after.machine.cursor
        continuations := after.machine.continuations }
  leads : flow.destination? (before.offset + instruction.length) = some after.offset

/-- The boundary that a run of a prepared machine comes to after `n` instructions, if it is not over
by then. -/
def Strategy.boundary? (strategy : Strategy) (image : Image) (prepared : Machine) (n : Nat) :
    Option Boundary :=
  match strategy with
  | .sequential =>
    (iteration (Sequential.step image) n prepared).map fun machine => ⟨machine.cursor, machine⟩
  | .threaded =>
    match Machine.onContinuations (Stack.push Threaded.rootId) prepared with
    | .error _ _ => none
    | .ok () entered =>
      (iteration (Threaded.step image (.ofImage image)) n ⟨0, entered⟩).bind fun thread =>
        (Threaded.Code.ofImage image).ops[thread.position]?.map fun op =>
          ⟨op.offset, thread.machine⟩

variable {image : Image} {machine prepared next : Machine} {n : Nat}

/-! ## Rounds -/

theorem Sequential.passes_of_running (goesOn : step image machine = .running next) :
    ∃ instruction flow,
      Passes image ⟨machine.cursor, machine⟩ instruction flow ⟨next.cursor, next⟩ := by
  obtain ⟨instruction, flow, after, decoded, done, follows⟩ := done_of_running goesOn
  have cursor : after.cursor = machine.cursor :=
    congrArg Machine.Surroundings.cursor (Machine.surroundings_of_done done)
  refine ⟨instruction, flow, decoded, ⟨after, done, ?_⟩, ?_⟩
  · cases flow <;> cases follows <;> rfl
  · cases flow with
    | next =>
      cases follows
      rw [Flow.destination?, ← cursor]
    | branch target => cases follows; rfl
    | call target => cases follows; rfl
    | toCaller address => cases follows; rfl
    | toEngine => cases follows
    | halt => cases follows

/-- A round of threaded dispatch passes on to an operation of the table. -/
theorem Threaded.passes_of_running {code : Code} {thread next : Thread} {op : Op}
    (faithful : code.Faithful image) (found : code.ops[thread.position]? = some op)
    (goesOn : step image code thread = .running next) :
    ∃ op' instruction flow, code.ops[next.position]? = some op' ∧
      Passes image ⟨op.offset, thread.machine⟩ instruction flow ⟨op'.offset, next.machine⟩ := by
  obtain ⟨op', instruction, flow, after, succeeds⟩ := succeeds_of_running goesOn
  cases found.symm.trans succeeds.found
  have settled := faithful.settled _ _ found
  have completes := Machine.execute_completes succeeds.done
  have leads := succeeds.leads goesOn
  obtain ⟨position, arrived⟩ := next
  suffices ∃ offset, Stands code.ops offset position ∧
      flow.destination? (op.offset + instruction.length) = some offset ∧
        arrived = { after with
          cursor := arrived.cursor
          continuations := arrived.continuations } by
    obtain ⟨offset, stands, destination, machine⟩ := this
    obtain ⟨target, reached, rfl⟩ := stands_iff.mp stands
    exact ⟨target, instruction, flow, reached, settled.decoded.symm.trans succeeds.decoded,
      ⟨after, succeeds.done, machine⟩, destination⟩
  cases leads with
  | next linked =>
    cases completes with
    | next through frame stack =>
      obtain ⟨index, link, stands⟩ := settled.next_eq_some succeeds.decoded through
      cases linked.symm.trans link
      exact ⟨_, stands, rfl, rfl⟩
  | branch linked =>
    cases completes with
    | branch jumps resolves frame stack =>
      obtain ⟨index, link, stands⟩ := settled.taken_eq_some succeeds.decoded jumps resolves
      cases linked.symm.trans link
      exact ⟨_, stands, rfl, rfl⟩
  | call linked pushed =>
    cases completes with
    | call calls resolves room frame stack =>
      have jumps := congrArg Instruction.target? calls
      obtain ⟨index, link, stands⟩ := settled.taken_eq_some succeeds.decoded jumps resolves
      cases linked.symm.trans link
      exact ⟨_, stands, rfl, rfl⟩
  | toCaller popped named => exact ⟨_, faithful.resumes _ _ named, rfl, rfl⟩

/-- The threads of a run are at operations of the table. -/
theorem Threaded.found_of_iteration {code : Code} {thread : Thread} {entered : Machine}
    (faithful : code.Faithful image)
    (reached : iteration (step image code) n ⟨0, entered⟩ = some thread) :
    ∃ op, code.ops[thread.position]? = some op := by
  induction n generalizing thread with
  | zero =>
    cases reached
    obtain ⟨op, found, -⟩ := stands_iff.mp faithful.entry
    exact ⟨op, found⟩
  | succ n ih =>
    obtain ⟨before, reached, goesOn⟩ := iteration_succ_eq_some.mp reached
    obtain ⟨op, found⟩ := ih reached
    obtain ⟨op', _, _, found', -⟩ := passes_of_running faithful found goesOn
    exact ⟨op', found'⟩

/-! ## Runs -/

namespace Strategy

variable {strategy : Strategy} {boundary : Boundary}

theorem boundary?_sequential :
    sequential.boundary? image prepared n = some boundary ↔
      ∃ machine, iteration (Sequential.step image) n prepared = some machine ∧
        boundary = ⟨machine.cursor, machine⟩ := by
  rw [boundary?, Option.map_eq_some_iff]
  simp only [eq_comm]

theorem boundary?_threaded :
    threaded.boundary? image prepared n = some boundary ↔
      ∃ entered thread op,
        Machine.onContinuations (Stack.push Threaded.rootId) prepared = .ok () entered ∧
          iteration (Threaded.step image (.ofImage image)) n ⟨0, entered⟩ = some thread ∧
          (Threaded.Code.ofImage image).ops[thread.position]? = some op ∧
          boundary = ⟨op.offset, thread.machine⟩ := by
  unfold boundary?
  cases Machine.onContinuations (Stack.push Threaded.rootId) prepared with
  | error fault machine => simp
  | ok _ entered =>
    simp only [Option.bind_eq_some_iff, Option.map_eq_some_iff, EStateM.Result.ok.injEq, true_and,
      eq_comm (a := boundary), exists_and_left, exists_eq_left']

/-- A run starts at the entry, on the machine that was prepared. -/
theorem boundary?_zero {argument : UInt32}
    (ready : Machine.prepare image argument machine = .ok () prepared)
    (arrived : strategy.boundary? image prepared 0 = some boundary) :
    boundary.offset = image.entry ∧
      boundary.machine = { prepared with continuations := boundary.machine.continuations } := by
  obtain ⟨-, entry⟩ := Machine.prepare_eq_ok ready
  cases strategy with
  | sequential =>
    obtain ⟨machine, start, rfl⟩ := boundary?_sequential.mp arrived
    cases start
    exact ⟨by rw [entry]; rfl, rfl⟩
  | threaded =>
    obtain ⟨entered, thread, op, rooted, start, found, rfl⟩ := boundary?_threaded.mp arrived
    cases start
    obtain ⟨continuations, -, rfl⟩ := Threaded.onContinuations_eq_ok rooted
    obtain ⟨op', found', offset⟩ :=
      Threaded.stands_iff.mp (Threaded.faithful_ofImage image).entry
    cases found.symm.trans found'
    exact ⟨offset, rfl⟩

/-- A run comes to each of its boundaries from the one before it. -/
theorem passes {after : Boundary}
    (arrived : strategy.boundary? image prepared (n + 1) = some after) :
    ∃ before instruction flow, strategy.boundary? image prepared n = some before ∧
      Passes image before instruction flow after := by
  cases strategy with
  | sequential =>
    obtain ⟨machine, reached, rfl⟩ := boundary?_sequential.mp arrived
    obtain ⟨before, reached, goesOn⟩ := iteration_succ_eq_some.mp reached
    obtain ⟨instruction, flow, passes⟩ := Sequential.passes_of_running goesOn
    exact ⟨_, instruction, flow, boundary?_sequential.mpr ⟨before, reached, rfl⟩, passes⟩
  | threaded =>
    obtain ⟨entered, thread, op, rooted, reached, found, rfl⟩ := boundary?_threaded.mp arrived
    obtain ⟨before, reached, goesOn⟩ := iteration_succ_eq_some.mp reached
    have faithful := Threaded.faithful_ofImage image
    obtain ⟨op', found'⟩ := Threaded.found_of_iteration faithful reached
    obtain ⟨op'', instruction, flow, found'', passes⟩ :=
      Threaded.passes_of_running faithful found' goesOn
    cases found.symm.trans found''
    exact ⟨_, instruction, flow,
      boundary?_threaded.mpr ⟨entered, before, op', rooted, reached, found', rfl⟩, passes⟩

/-- A run that has not ended is at a boundary. -/
theorem dispatch_eq_none_iff :
    strategy.dispatch image n prepared = none ↔
      ∃ boundary, strategy.boundary? image prepared n = some boundary := by
  cases strategy with
  | sequential =>
    rw [dispatch, Sequential.run, iterate_eq_none_iff]
    simp only [boundary?_sequential]
    constructor
    · rintro ⟨machine, reached⟩
      exact ⟨_, machine, reached, rfl⟩
    · rintro ⟨_, machine, reached, -⟩
      exact ⟨machine, reached⟩
  | threaded =>
    simp only [dispatch, boundary?_threaded]
    cases rooted : Machine.onContinuations (Stack.push Threaded.rootId) prepared with
    | error fault machine => simp [Threaded.run, rooted]
    | ok _ entered =>
      rw [Threaded.run_eq rooted, Option.map_eq_none_iff, iterate_eq_none_iff]
      constructor
      · rintro ⟨thread, reached⟩
        obtain ⟨op, found⟩ :=
          Threaded.found_of_iteration (Threaded.faithful_ofImage image) reached
        exact ⟨_, entered, thread, op, rfl, reached, found, rfl⟩
      · rintro ⟨_, entered', thread, op, same, reached, -⟩
        cases same
        exact ⟨thread, reached⟩

/-- An instruction that fails at a boundary ends the run. -/
theorem dispatch_of_failed {instruction : Instruction} {fault : Fault} {left : Machine}
    (arrived : strategy.boundary? image prepared n = some boundary)
    (decoded : Instruction.decode image boundary.offset = .ok instruction)
    (failed : Machine.execute image boundary.offset instruction boundary.machine =
      .error fault left) :
    ∃ final, strategy.dispatch image (n + 1) prepared = some ⟨.error fault, final⟩ := by
  cases strategy with
  | sequential =>
    obtain ⟨machine, reached, rfl⟩ := boundary?_sequential.mp arrived
    exact ⟨_, iterate_of_done reached (Sequential.step_of_failed decoded failed)⟩
  | threaded =>
    obtain ⟨entered, thread, op, rooted, reached, found, rfl⟩ := boundary?_threaded.mp arrived
    have settled := (Threaded.faithful_ofImage image).settled _ _ found
    have stops := Threaded.step_of_error found (settled.decoded.trans decoded)
      (Threaded.dispatch_of_failed failed)
    refine ⟨left, ?_⟩
    rw [dispatch, Threaded.run_eq rooted, iterate_of_done reached stops]
    rfl

end Strategy

end Tandem

import Tandem.Proofs.Machine.Prepare
import Tandem.Proofs.Machine.Sequential
import Tandem.Proofs.Threaded.Dispatch
import Tandem.Proofs.Threaded.Faithful

/-!
# One round of both strategies

A sequential and a threaded run that agree at the start of a round meet the same instruction there,
and it comes to the same in both (`Threaded.Agrees.round`). If it succeeds, what is left of the round
is to follow its flow: by the cursor on the one side, by links and continuation ids on the other.
Runs of a prepared machine agree to begin with (`Threaded.enters`).
-/

namespace Tandem

/-- The traces are the same; the cursors and the continuation stacks can be anything. -/
def Machine.SameTrace (left right : Machine.Surroundings) : Prop := left.trace = right.trace

namespace Threaded

variable {image : Image} {code : Code} {machine left right : Machine} {thread : Thread} {op : Op}
  {instruction : Instruction} {flow : Flow} {fault : Fault}

/-- A threaded run is where the sequential one is, in the same state. -/
structure Agrees (code : Code) (machine : Machine) (thread : Thread) : Prop where
  state : Machine.Similar Eq Machine.SameTrace machine thread.machine
  position : Stands code.ops machine.cursor thread.position

/-- What holds of two runs that ended with one result. -/
def After (machine : Machine) (thread : Thread) : Prop :=
  Machine.Similar Eq Machine.SameTrace machine thread.machine

theorem similar_refl (machine : Machine) : Machine.Similar Eq Machine.SameTrace machine machine :=
  ⟨rfl, rfl, rfl, rfl, rfl, rfl⟩

theorem similar_atCursor (similar : Machine.Similar Eq Machine.SameTrace left right) (cursor : Nat) :
    Machine.Similar Eq Machine.SameTrace { left with cursor } right :=
  ⟨similar.stack, similar.registers, similar.frame, similar.fused, similar.stats,
    similar.surroundings⟩

theorem similar_withContinuations (similar : Machine.Similar Eq Machine.SameTrace left right)
    (continuations : Stack) :
    Machine.Similar Eq Machine.SameTrace left { right with continuations } :=
  ⟨similar.stack, similar.registers, similar.frame, similar.fused, similar.stats,
    similar.surroundings⟩

/-- The ways for a threaded run to fail after its instruction has succeeded. -/
inductive Parts (image : Image) (code : Code) (thread : Thread) : Fault → Prop
  /-- A call has pushed its frame, and there is no room for its id. -/
  | overflow {op : Op} {instruction : Instruction} {destination : Nat} {after : Machine}
    (found : code.ops[thread.position]? = some op) (decoded : op.decoded = .ok instruction)
    (called : Machine.execute image op.offset instruction thread.machine =
      .ok (.call destination) after)
    (full : after.continuations.available < Machine.continuationSize) :
    Parts image code thread
      (.stackOverflow Machine.continuationSize after.continuations.available)
  /-- A return has unwound its frame, and the newest id names another way to go on. -/
  | continuation {op : Op} {instruction : Instruction} {flow : Flow} {after : Machine} {id : UInt32}
    {rest : Stack} (found : code.ops[thread.position]? = some op)
    (decoded : op.decoded = .ok instruction)
    (returned : Machine.execute image op.offset instruction thread.machine = .ok flow after)
    (back : flow = .toEngine ∨ ∃ address, flow = .toCaller address)
    (newest : Stack.pop UInt32 after.continuations = .ok id rest) :
    Parts image code thread (.malformedFrame op.offset (.continuation id))

/-- A round whose instruction has succeeded in both runs. -/
structure Ran (image : Image) (code : Code) (machine : Machine) (thread : Thread) (op : Op)
    (instruction : Instruction) (flow : Flow) (left right : Machine) : Prop where
  found : code.ops[thread.position]? = some op
  settled : op.Settled image code.ops
  offset : op.offset = machine.cursor
  decoded : op.decoded = .ok instruction
  sequential : Machine.execute image machine.cursor instruction machine = .ok flow left
  threaded : Machine.execute image op.offset instruction thread.machine = .ok flow right
  similar : Machine.Similar Eq Machine.SameTrace left right

/-- An instruction comes to the same on machines that differ in cursors and continuation stacks. -/
theorem execute_alike (image : Image) (offset : Nat) (instruction : Instruction) :
    Action.Respects Fault.NoneWaived (Machine.Similar Eq Machine.SameTrace)
      (Machine.execute image offset instruction) (Machine.execute image offset instruction) :=
  Machine.execute_respects .eq (fun _ _ record same => congrArg (Option.map (record :: ·)) same)
    image offset instruction

/-- In a round that runs which agree are both in, they end with one fault, or their instruction
succeeds. -/
theorem Agrees.round (agrees : Agrees code machine thread) (faithful : code.Faithful image) :
    (∃ fault left right, Sequential.step image machine = .done (.error fault) left ∧
      step image code thread = .done (.error fault) right ∧ After left right) ∨
    ∃ op instruction flow left right,
      Ran image code machine thread op instruction flow left right := by
  obtain ⟨op, found, offset⟩ := stands_iff.mp agrees.position
  have settled := faithful.settled thread.position op found
  have decode : Instruction.decode image machine.cursor = op.decoded := by
    rw [settled.decoded, offset]
  cases decoded : op.decoded with
  | error fault =>
    rw [decoded] at decode
    exact .inl ⟨fault, machine, thread, Sequential.step_of_undecodable decode,
      step_of_undecodable found decoded, agrees.state⟩
  | ok instruction =>
    rw [decoded] at decode
    have alike := execute_alike image machine.cursor instruction
    cases sequential : Machine.execute image machine.cursor instruction machine with
    | error fault left =>
      obtain ⟨right, threaded, similar⟩ := alike.of_error agrees.state sequential
      rw [← offset] at threaded
      exact .inl ⟨fault, left, _, Sequential.step_of_failed decode sequential,
        step_of_error found decoded (dispatch_of_failed threaded), similar⟩
    | ok flow left =>
      obtain ⟨right, threaded, similar⟩ := alike.of_ok agrees.state sequential
      rw [← offset] at threaded
      exact .inr ⟨op, instruction, flow, left, right, found, settled, offset, decoded, sequential,
        threaded, similar⟩

/-- Where the instruction of a threaded run succeeds, so does that of a sequential run that it agrees
with. -/
theorem Agrees.sequential_succeeds (agrees : Agrees code machine thread)
    (faithful : code.Faithful image) (found : code.ops[thread.position]? = some op)
    (decoded : op.decoded = .ok instruction) {after : Machine}
    (succeeded : Machine.execute image op.offset instruction thread.machine = .ok flow after)
    {final : Machine} : Sequential.step image machine ≠ .done (.error fault) final := by
  intro failed
  obtain ⟨op', found', offset⟩ := stands_iff.mp agrees.position
  obtain rfl : op' = op := Option.some.inj (found'.symm.trans found)
  have decode : Instruction.decode image machine.cursor = .ok instruction := by
    rw [← offset, ← (faithful.settled thread.position op' found).decoded, decoded]
  rw [offset] at succeeded
  cases sequential : Machine.execute image machine.cursor instruction machine with
  | error fault left =>
    obtain ⟨right, threaded, -⟩ :=
      (execute_alike image machine.cursor instruction).of_error agrees.state sequential
    rw [succeeded] at threaded
    cases threaded
  | ok flow left =>
    rw [Sequential.step_of_done decode sequential] at failed
    cases flow <;> cases failed

/-- A threaded run that parts does not end with its sequential run. -/
theorem Parts.sequential_succeeds (parts : Parts image code thread fault)
    (agrees : Agrees code machine thread) (faithful : code.Faithful image) {fault' : Fault}
    {final : Machine} : Sequential.step image machine ≠ .done (.error fault') final := by
  cases parts with
  | overflow found decoded called full =>
    exact agrees.sequential_succeeds faithful found decoded called
  | continuation found decoded returned back newest =>
    exact agrees.sequential_succeeds faithful found decoded returned

namespace Ran

theorem decode (ran : Ran image code machine thread op instruction flow left right) :
    Instruction.decode image machine.cursor = .ok instruction := by
  rw [← ran.offset, ← ran.settled.decoded, ran.decoded]

theorem step_eq (ran : Ran image code machine thread op instruction flow left right) :
    Sequential.step image machine = Sequential.follow instruction.length flow left :=
  Sequential.step_of_done ran.decode ran.sequential

theorem dispatch_eq (ran : Ran image code machine thread op instruction flow left right) :
    dispatch image code op instruction thread.machine = successor code op flow right :=
  dispatch_of_done ran.threaded

theorem cursor (ran : Ran image code machine thread op instruction flow left right) :
    left.cursor = op.offset := by
  rw [ran.offset]
  exact congrArg Machine.Surroundings.cursor (Machine.surroundings_of_done ran.sequential)

theorem continuations (ran : Ran image code machine thread op instruction flow left right) :
    right.continuations = thread.machine.continuations :=
  congrArg Machine.Surroundings.continuations (Machine.surroundings_of_done ran.threaded)

theorem agrees (ran : Ran image code machine thread op instruction flow left right)
    {cursor position : Nat} (stands : Stands code.ops cursor position) (continuations : Stack) :
    Agrees code { left with cursor } ⟨position, { right with continuations }⟩ :=
  ⟨similar_atCursor (similar_withContinuations ran.similar continuations) cursor, stands⟩

variable {P : Machine → Thread → Prop}

/-- Both runs go on. -/
theorem goes_on (ran : Ran image code machine thread op instruction flow left right)
    {cursor position : Nat} {continuations : Stack}
    (follows : Sequential.follow instruction.length flow left = .running { left with cursor })
    (leads : successor code op flow right = .ok (some position) { right with continuations })
    (next : P { left with cursor } ⟨position, { right with continuations }⟩) :
    Progress.Related P After (Sequential.step image machine) (step image code thread) := by
  rw [ran.step_eq, follows, step_of_some ran.found ran.decoded (ran.dispatch_eq.trans leads)]
  exact .running next

/-- Both runs end with the accumulator. -/
theorem ends (ran : Ran image code machine thread op instruction flow left right)
    {continuations : Stack}
    (follows : Sequential.follow instruction.length flow left =
      .done (.ok left.registers.accumulator) left)
    (last : successor code op flow right = .ok none { right with continuations }) :
    Progress.Related P After (Sequential.step image machine) (step image code thread) := by
  rw [ran.step_eq, follows, step_of_none ran.found ran.decoded (ran.dispatch_eq.trans last)]
  rw [ran.similar.registers]
  exact .done (similar_withContinuations ran.similar continuations)

end Ran

/-! ## The start of a run -/

theorem run_eq {prepared entered : Machine}
    (rooted : Machine.onContinuations (Stack.push rootId) prepared = .ok () entered) (fuel : Nat) :
    run image code fuel prepared = (iterate (step image code) fuel ⟨0, entered⟩).map
      fun outcome => ⟨outcome.result, outcome.state.machine⟩ := by
  rw [run, rooted]

/-- A threaded run of a prepared machine starts in agreement with the sequential one. There is room
for the engine's id, and nothing else is on the continuation stack. -/
theorem enters {argument : UInt32} {prepared : Machine} {stackSize : Nat}
    (size : machine.continuations.capacity = Machine.continuationCapacity stackSize)
    (ready : Machine.prepare image argument machine = .ok () prepared) :
    ∃ entered, Machine.onContinuations (Stack.push rootId) prepared = .ok () entered ∧
      Agrees (Code.ofImage image) prepared ⟨0, entered⟩ ∧
      Stack.Holds [rootId] entered.continuations ∧
      entered.continuations.capacity = Machine.continuationCapacity stackSize := by
  obtain ⟨-, rfl⟩ := Machine.prepare_eq_ok ready
  have room : Machine.continuationSize ≤ machine.continuations.reset.available := by
    show _ ≤ machine.continuations.capacity
    rw [size, Machine.continuationCapacity]
    exact Nat.le_mul_of_pos_left _ (Nat.succ_pos _)
  have pushed := Stack.push_of_room rootId room
  refine ⟨_, onContinuations_of_ok pushed, ⟨?_, (faithful_ofImage image).entry⟩, ?_, ?_⟩
  · exact similar_withContinuations (similar_refl _) _
  · exact (Stack.Holds.reset _).push pushed
  · rw [Stack.capacity_append]
    exact size

end Threaded

end Tandem

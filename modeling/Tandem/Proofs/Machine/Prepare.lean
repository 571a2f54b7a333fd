import Tandem.Proofs.Machine.Similar
import Tandem.Proofs.Stack.Unwinding

/-!
# The start of a run

Preparing a machine comes down to what it pushes on an empty operand stack (`Machine.prepare_eq`):
the argument and the engine's own frame, twenty bytes in all. Everything else that a run can look at
is set, so apart from the trace nothing of the earlier state is left but the sizes and directions of
the stacks; a machine that cannot be prepared keeps its frame and its cursor.
-/

namespace Tandem

namespace Stack

variable {waived : Fault → Prop} {stack after : Stack} {argument : UInt32}

/-- Push what the engine enters an image with. -/
def enter (argument : UInt32) : Stack.Action Nat := do
  push argument
  Frame.push 0 Frame.noCaller

/-- The stack with the argument and the engine's frame on it. -/
def entered (stack : Stack) (argument : UInt32) : Stack :=
  Frame.pushed (stack.append (Scalar.encode argument)) 0 Frame.noCaller

@[simp] theorem top_entered (stack : Stack) (argument : UInt32) :
    (stack.entered argument).top = stack.top + 20 := by
  simp [entered, Frame.headerSize]

@[simp] theorem capacity_entered (stack : Stack) (argument : UInt32) :
    (stack.entered argument).capacity = stack.capacity := by
  simp [entered]

theorem enter_eq_ok {frame : Nat} (done : enter argument stack = .ok frame after) :
    20 ≤ stack.available ∧ frame = stack.top + 20 ∧ after = stack.entered argument := by
  obtain ⟨_, middle, pushed, framed⟩ := Action.bind_eq_ok.mp done
  obtain ⟨room, rfl⟩ := push_eq_ok pushed
  obtain ⟨room', rfl, rfl⟩ := Frame.push_eq_ok framed
  rw [Scalar.width_uint32] at room
  rw [Frame.headerSize, available, capacity_append, top_append, Scalar.length_encode,
    Scalar.width_uint32] at room'
  refine ⟨?_, ?_, rfl⟩
  · rw [available] at room ⊢
    omega
  · rw [top_append, Scalar.length_encode, Scalar.width_uint32, Frame.headerSize]

theorem enter_of_room (room : 20 ≤ stack.available) :
    enter argument stack = .ok (stack.top + 20) (stack.entered argument) := by
  unfold available at room
  rw [enter, Action.bind_of_ok (push_of_room argument _), Frame.push_of_room, entered, top_append,
    Scalar.length_encode, Scalar.width_uint32, Frame.headerSize]
  · rw [Frame.headerSize, available, capacity_append, top_append, Scalar.length_encode,
      Scalar.width_uint32]
    omega
  · rw [Scalar.width_uint32, available]
    omega

theorem Simulation.enter {R : Stack → Stack → Prop} (simulation : Simulation waived R)
    (argument : UInt32) : Action.Respects waived R (Stack.enter argument) (Stack.enter argument) :=
  .bind (simulation.push argument) fun _ => simulation.framePush 0 Frame.noCaller

end Stack

namespace Machine

variable {image : Image} {argument : UInt32} {machine prepared : Machine}

/-- A machine at the entry of an image, on whose empty stack `frame` bytes were pushed. -/
def atEntry (machine : Machine) (image : Image) (frame : Nat) (stack : Stack) : Machine :=
  { machine.reset with
    stack
    frame
    cursor := image.entry
    stats := { maxDepth := stack.top } }

theorem prepare_eq (image : Image) (argument : UInt32) (machine : Machine) :
    prepare image argument machine =
      match Stack.enter argument machine.stack.reset with
      | .ok frame stack => .ok () (machine.atEntry image frame stack)
      | .error fault stack => .error fault { machine.reset with stack } := by
  have reset : machine.reset.stack = machine.stack.reset := rfl
  rw [prepare, Action.modify_bind, Stack.enter]
  cases pushed : Stack.push argument machine.stack.reset with
  | error fault stack =>
    rw [Action.bind_of_error pushed, Action.bind_of_error (by rw [onStack, reset, pushed])]
  | ok value stack =>
    rw [Action.bind_of_ok pushed, Action.bind_of_ok (by rw [onStack, reset, pushed])]
    cases framed : Frame.push 0 Frame.noCaller stack with
    | error fault stack => rw [Action.bind_of_error (by rw [onStack, framed])]
    | ok frame stack =>
      rw [Action.bind_of_ok (by rw [onStack, framed])]
      rfl

/-- What a machine that was prepared looks like. -/
theorem prepare_eq_ok (done : prepare image argument machine = .ok () prepared) :
    20 ≤ machine.stack.capacity ∧
      prepared = machine.atEntry image 20 (machine.stack.reset.entered argument) := by
  rw [prepare_eq] at done
  cases pushed : Stack.enter argument machine.stack.reset with
  | error fault stack =>
    rw [pushed] at done
    cases done
  | ok frame stack =>
    rw [pushed] at done
    cases done
    obtain ⟨room, rfl, rfl⟩ := Stack.enter_eq_ok pushed
    exact ⟨room, rfl⟩

/-- A stack of twenty bytes is enough for the preparation. -/
theorem prepare_of_room (room : 20 ≤ machine.stack.capacity) :
    prepare image argument machine =
      .ok () (machine.atEntry image 20 (machine.stack.reset.entered argument)) := by
  have room' : 20 ≤ machine.stack.reset.available := room
  rw [prepare_eq, Stack.enter_of_room room']
  rfl

@[simp] theorem stackCapacity_ofStackSize (stackSize : Nat) (growth : Growth) :
    (ofStackSize stackSize growth).stack.capacity = stackSize :=
  Stack.capacity_ofCapacity stackSize growth

@[simp] theorem continuationsCapacity_ofStackSize (stackSize : Nat) (growth : Growth) :
    (ofStackSize stackSize growth).continuations.capacity = continuationCapacity stackSize :=
  Stack.capacity_ofCapacity (continuationCapacity stackSize) growth

theorem prepare_ofStackSize (image : Image) (argument : UInt32) (growth : Growth) {stackSize : Nat}
    (room : 20 ≤ stackSize) :
    ∃ prepared, prepare image argument (ofStackSize stackSize growth) = .ok () prepared :=
  ⟨_, prepare_of_room (by rwa [stackCapacity_ofStackSize])⟩

/-- A machine that cannot be prepared stays in its frame and at its cursor. -/
theorem prepare_eq_error {fault : Fault} (failed : prepare image argument machine = .error fault prepared) :
    machine.stack.capacity < 20 ∧ ∃ stack, prepared = { machine.reset with stack } := by
  rcases Nat.lt_or_ge machine.stack.capacity 20 with full | room
  · refine ⟨full, ?_⟩
    rw [prepare_eq] at failed
    cases pushed : Stack.enter argument machine.stack.reset with
    | error fault stack =>
      rw [pushed] at failed
      cases failed
      exact ⟨stack, rfl⟩
    | ok frame stack =>
      rw [pushed] at failed
      cases failed
  · rw [prepare_of_room room] at failed
    cases failed

end Machine

end Tandem

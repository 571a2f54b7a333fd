import Tandem.Proofs.Machine.Accounts
import Tandem.Proofs.Machine.Failed
import Tandem.Proofs.Machine.Prepare
import Tandem.Proofs.Machine.Sequential
import Tandem.Proofs.Stack.Bounds
import Tandem.Threaded.Dispatch

/-!
# The bounds of a machine

Whatever a machine does, and whatever it was that failed before, its cursors stay inside the stacks
(`Machine.InBounds`). The frame pointer may stand above the top of the operand stack, after a return
that failed over its header for one, but never by more than a header. That is enough for the slots:
every slot that is found lies wholly below the top (`Frame.slotPosition_inUse`), so the only way in
which the access to a slot can fail is that there is no such slot (`Machine.InBounds.readSlot`,
`Machine.InBounds.writeSlot`, `Machine.InBounds.modifySlot`).
-/

namespace Tandem

/-- A slot that is found is in use, if the frame pointer is at most a header above the top. -/
theorem Frame.slotPosition_inUse {pointer top position : Nat} {slot : Slot}
    (near : pointer ≤ top + headerSize)
    (found : Frame.slotPosition pointer top slot = some position) : position + 4 ≤ top := by
  rw [slotPosition_eq_some_iff] at found
  rw [headerSize] at near
  omega

namespace Machine

variable {stackSize : Nat} {image : Image} {offset : Nat} {instruction : Instruction}
  {machine after : Machine} {fault : Fault}

/-- An operand stack with its top, and a frame pointer where it may be. -/
structure Placed (stackSize : Nat) (stack : Stack) (pointer : Nat) : Prop where
  bounded : Stack.Bounded stackSize stack
  frame : pointer ≤ stackSize
  frame_le : pointer ≤ stack.top + Frame.headerSize

/-- A machine whose cursors are inside its stacks. -/
structure InBounds (stackSize : Nat) (machine : Machine) : Prop where
  placed : Placed stackSize machine.stack machine.frame
  continuations : Stack.Bounded (continuationCapacity stackSize) machine.continuations
  depth : machine.stats.maxDepth ≤ stackSize

theorem inBounds_ofStackSize (stackSize : Nat) (growth : Growth) :
    InBounds stackSize (ofStackSize stackSize growth) where
  placed := ⟨Stack.bounded_ofCapacity stackSize growth, Nat.zero_le _, Nat.zero_le _⟩
  continuations := Stack.bounded_ofCapacity _ growth
  depth := Nat.zero_le _

/-! ## Instructions -/

variable {stack : Stack} {pointer : Nat}

theorem Placed.append (placed : Placed stackSize stack pointer) {bytes : List UInt8}
    (room : bytes.length ≤ stack.available) : Placed stackSize (stack.append bytes) pointer where
  bounded := placed.bounded.append room
  frame := placed.frame
  frame_le := by
    have := placed.frame_le
    rw [Stack.top_append]
    omega

/-- Dropping bytes keeps a header's distance if the frame has them, or if they are part of its
header. -/
theorem Placed.drop (placed : Placed stackSize stack pointer) {count : Nat}
    (reach : pointer + count ≤ stack.top + Frame.headerSize) :
    Placed stackSize (stack.drop count) pointer where
  bounded := placed.bounded.drop count
  frame := placed.frame
  frame_le := by
    rw [Stack.top_drop]
    omega

/-- Dropping locals only. -/
theorem Placed.dropLocals (placed : Placed stackSize stack pointer) {count : Nat}
    (locals : count ≤ stack.top - pointer) : Placed stackSize (stack.drop count) pointer := by
  have := placed.frame_le
  exact placed.drop (by rw [Frame.headerSize] at *; omega)

/-- An instruction that neither calls nor returns leaves the frame pointer where it may be. -/
theorem Placed.reworks (placed : Placed stackSize stack pointer) {stack' : Stack}
    (reworks : Reworks instruction pointer stack stack') : Placed stackSize stack' pointer := by
  cases reworks with
  | kept => exact placed
  | grown bytes room => exact placed.append room
  | dropped count locals => exact placed.dropLocals locals
  | written slot position value writes found inUse =>
    exact ⟨placed.bounded.store _ _, placed.frame, by rw [Stack.top_store]; exact placed.frame_le⟩

/-- A return goes back to a frame pointer that it has found to be below the top. -/
theorem Placed.unwound (placed : Placed stackSize machine.stack machine.frame) {count : Nat}
    {unwound : Frame.Unwound} (returns : Unwound image machine after count unwound) :
    Placed stackSize after.stack after.frame := by
  have locals := returns.unwinds.locals
  have fits := returns.unwinds.header.fits
  have below := returns.unwinds.pointer_le
  have inUse := placed.bounded.top
  rw [returns.stack, returns.frame]
  refine ⟨placed.bounded.drop _, by omega, ?_⟩
  rw [Stack.top_drop]
  omega

theorem placed_of_completes {flow : Flow} (placed : Placed stackSize machine.stack machine.frame)
    (completes : Completes image offset instruction machine after flow) :
    Placed stackSize after.stack after.frame := by
  cases completes with
  | next through frame stack =>
    rw [frame]
    exact placed.reworks stack
  | branch jumps leads frame stack =>
    rw [frame, stack]
    exact placed
  | call calls leads room frame stack =>
    have inUse := placed.bounded.top
    have capacity := placed.bounded.capacity
    rw [Stack.available, capacity] at room
    rw [frame, stack]
    refine ⟨⟨by rw [Frame.capacity_pushed, capacity], ?_⟩, by omega, ?_⟩
    · rw [Frame.top_pushed]
      omega
    · rw [Frame.top_pushed]
      omega
  | toCaller returns inner => exact placed.unwound returns
  | toEngine returns outermost => exact placed.unwound returns
  | halt frame stack =>
    rw [frame, stack]
    exact placed

/-- A return that fails over a header has taken no more than that header off the stack. -/
theorem Placed.breaks (placed : Placed stackSize stack pointer) {count imageSize : Nat}
    {stack' : Stack} (breaks : Frame.Breaks stack pointer count imageSize offset fault stack') :
    Placed stackSize stack' pointer := by
  have near := placed.frame_le
  cases breaks with
  | pastFrame past => exact placed
  | locals enough left => exact placed.dropLocals enough
  | noAddress locals short => exact placed.drop (by omega)
  | noPointer locals address short =>
    exact placed.drop (by rw [Frame.headerSize]; omega)
  | savedPointer locals header above => exact placed.drop (by omega)
  | returnAddress locals header below inner outside => exact placed.drop (by omega)

theorem placed_of_fails (placed : Placed stackSize machine.stack machine.frame)
    (fails : Fails image offset instruction machine fault after) :
    Placed stackSize after.stack after.frame := by
  cases fails with
  | halfHeader calls half short =>
    exact placed.append (by rwa [Scalar.length_encode, Scalar.width_uint64])
  | unwinding returns breaks =>
    rw [frame_readied]
    exact placed.breaks breaks
  | _ => exact placed

/-- What is done to the operand stack and the frame keeps a machine in bounds as long as they
are. -/
theorem InBounds.of_placed (bounds : InBounds stackSize machine)
    (placed : Placed stackSize after.stack after.frame)
    (continuations : after.continuations = machine.continuations)
    (depth : after.stats.maxDepth ≤ stackSize) : InBounds stackSize after :=
  ⟨placed, by rw [continuations]; exact bounds.continuations, depth⟩

/-- An instruction moves no cursor out of bounds, whether it succeeds or fails. -/
theorem execute_inBounds (image : Image) (offset : Nat) (instruction : Instruction) :
    Action.Preserves (InBounds stackSize) (execute image offset instruction) := by
  intro machine bounds
  have counted := stats_execute image offset instruction machine
  cases ran : execute image offset instruction machine with
  | ok flow after =>
    rw [ran] at counted
    have placed := placed_of_completes bounds.placed (execute_completes ran)
    rw [Action.final_of_ok ran]
    refine bounds.of_placed placed
      (congrArg Surroundings.continuations (surroundings_of_done ran)) ?_
    rw [counted]
    exact Nat.max_le.mpr ⟨bounds.depth, placed.bounded.top⟩
  | error fault after =>
    rw [ran] at counted
    dsimp only at counted
    have ready : Placed stackSize machine.countInstruction.stack machine.countInstruction.frame :=
      bounds.placed
    have placed := placed_of_fails ready (execute_fails ran)
    rw [Action.final_of_error ran]
    refine bounds.of_placed placed
      (congrArg Surroundings.continuations (surroundings_of_failed ran)) ?_
    rw [counted]
    exact bounds.depth

/-! ## Preparations -/

/-- Pushing what a run starts with fails with a stack that holds less than twenty bytes. The
argument is on it by then if there is room for it. -/
theorem enter_inBounds {argument : UInt32} {stack after : Stack}
    (bounded : Stack.Bounded stackSize stack)
    (failed : Stack.enter argument stack = .error fault after) :
    Stack.Bounded stackSize after ∧ (4 ≤ stack.available → 4 ≤ after.top) := by
  rcases Action.bind_eq_error.mp failed with unpushed | ⟨_, middle, pushed, unframed⟩
  · obtain ⟨short, -, rfl⟩ := Stack.push_eq_error unpushed
    rw [Scalar.width_uint32] at short
    exact ⟨bounded, fun room => absurd room (by omega)⟩
  · obtain ⟨room, rfl⟩ := Stack.push_eq_ok pushed
    have begun : Stack.Bounded stackSize (stack.append (Scalar.encode argument)) :=
      bounded.append (by rwa [Scalar.length_encode])
    have held : 4 ≤ (stack.append (Scalar.encode argument)).top := by
      rw [Stack.top_append, Scalar.length_encode, Scalar.width_uint32]
      omega
    rcases Frame.push_eq_error unframed with ⟨-, -, rfl⟩ | ⟨half, -, -, rfl⟩
    · exact ⟨begun, fun _ => held⟩
    · refine ⟨begun.append (by rwa [Scalar.length_encode, Scalar.width_uint64]), fun _ => ?_⟩
      rw [Stack.top_append]
      omega

theorem bounded_entered {argument : UInt32} (room : 20 ≤ stack.capacity) :
    Stack.Bounded stack.capacity (stack.reset.entered argument) := by
  refine ⟨Stack.capacity_entered _ _, ?_⟩
  rw [Stack.top_entered]
  exact room

/-- A frame at the top. -/
theorem Placed.atTop {frame : Nat} (bounded : Stack.Bounded stackSize stack)
    (top : stack.top = frame) : Placed stackSize stack frame :=
  ⟨bounded, top ▸ bounded.top, top ▸ Nat.le_add_right _ _⟩

theorem placed_of_prepared {argument : UInt32}
    (ready : prepare image argument machine = .ok () after) :
    Placed machine.stack.capacity after.stack after.frame := by
  obtain ⟨room, rfl⟩ := prepare_eq_ok ready
  exact .atTop (bounded_entered room) (Stack.top_entered _ _)

/-- A machine is in bounds at the entry of an image if its operand stack has its top just past a
frame that fits. -/
theorem atEntry_inBounds {frame : Nat} (bounded : Stack.Bounded stackSize stack)
    (top : stack.top = frame)
    (continuations : machine.continuations.capacity = continuationCapacity stackSize) :
    InBounds stackSize (machine.atEntry image frame stack) where
  placed := .atTop bounded top
  continuations := ⟨continuations, Nat.zero_le _⟩
  depth := bounded.top

/-- A machine that was prepared is in bounds, wherever its cursors were before. -/
theorem inBounds_of_prepared {argument : UInt32} (stack : machine.stack.capacity = stackSize)
    (continuations : machine.continuations.capacity = continuationCapacity stackSize)
    (ready : prepare image argument machine = .ok () after) : InBounds stackSize after := by
  obtain ⟨room, rfl⟩ := prepare_eq_ok ready
  have bounded : Stack.Bounded machine.stack.capacity (machine.stack.reset.entered argument) :=
    bounded_entered room
  rw [stack] at bounded
  exact atEntry_inBounds bounded (Stack.top_entered _ _) continuations

/-- Preparing a machine for a run, or failing to, keeps it in bounds. A stack that is too small for
the preparation is too small for a frame pointer that is out of place. -/
theorem prepare_inBounds (image : Image) (argument : UInt32) :
    Action.Preserves (InBounds stackSize) (prepare image argument) := by
  intro machine bounds
  have capacity := bounds.placed.bounded.capacity
  cases ran : prepare image argument machine with
  | ok _ prepared =>
    rw [Action.final_of_ok ran]
    exact inBounds_of_prepared capacity bounds.continuations.capacity ran
  | error fault refused =>
    rw [Action.final_of_error ran]
    obtain ⟨small, -⟩ := prepare_eq_error ran
    rw [prepare_eq] at ran
    cases entered : Stack.enter argument machine.stack.reset with
    | ok frame stack =>
      rw [entered] at ran
      cases ran
    | error fault' stack =>
      rw [entered] at ran
      cases ran
      obtain ⟨bounded, held⟩ := enter_inBounds bounds.placed.bounded.reset entered
      have frame := bounds.placed.frame
      have room : machine.stack.reset.available = stackSize := by
        rw [Stack.available, show machine.stack.reset.capacity = machine.stack.capacity from rfl,
          capacity]
        rfl
      refine ⟨⟨bounded, frame, ?_⟩, bounds.continuations.reset, Nat.zero_le _⟩
      show machine.frame ≤ stack.top + Frame.headerSize
      rw [Frame.headerSize]
      omega

/-! ## Continuations -/

/-- An operation on the continuation stack that keeps it in bounds keeps the machine in bounds. -/
theorem onContinuations_inBounds {α : Type} {action : Stack.Action α}
    (bounded : Action.Preserves (Stack.Bounded (continuationCapacity stackSize)) action) :
    Action.Preserves (InBounds stackSize) (onContinuations action) := by
  intro machine bounds
  cases acted : action machine.continuations with
  | ok value stack =>
    rw [Action.final, onContinuations, acted]
    exact { bounds with continuations := bounded.of_ok bounds.continuations acted }
  | error fault stack =>
    rw [Action.final, onContinuations, acted]
    exact { bounds with continuations := bounded.of_error bounds.continuations acted }

/-! ## Slots -/

namespace InBounds

theorem slot_inUse (bounds : InBounds stackSize machine) {slot : Slot} {position : Nat}
    (found : Frame.slotPosition machine.frame machine.stack.top slot = some position) :
    position + 4 ≤ machine.stack.top :=
  Frame.slotPosition_inUse bounds.placed.frame_le found

/-- Reading a slot fails only if there is no such slot. -/
theorem readSlot (bounds : InBounds stackSize machine) {slot : Slot}
    (failed : Machine.readSlot offset slot machine = .error fault after) :
    Frame.slotPosition machine.frame machine.stack.top slot = none ∧
      fault = .invalidSlot offset slot ∧ after = machine := by
  rcases Action.bind_eq_error.mp failed with unplaced | ⟨position, _, placed, unread⟩
  · exact slotPosition_eq_error unplaced
  · obtain ⟨found, rfl⟩ := slotPosition_eq_ok placed
    have := bounds.slot_inUse found
    have := (readWord_eq_error unread).1
    omega

/-- Writing a slot fails only if there is no such slot. -/
theorem writeSlot (bounds : InBounds stackSize machine) {slot : Slot} {value : UInt32}
    (failed : Machine.writeSlot offset slot value machine = .error fault after) :
    Frame.slotPosition machine.frame machine.stack.top slot = none ∧
      fault = .invalidSlot offset slot ∧ after = machine := by
  rcases Action.bind_eq_error.mp failed with unplaced | ⟨position, _, placed, unwritten⟩
  · exact slotPosition_eq_error unplaced
  · obtain ⟨found, rfl⟩ := slotPosition_eq_ok placed
    have := bounds.slot_inUse found
    have := (writeWord_eq_error unwritten).1
    omega

/-- Replacing the value of a slot fails only if there is no such slot. -/
theorem modifySlot (bounds : InBounds stackSize machine) {slot : Slot} {change : UInt32 → UInt32}
    (failed : Machine.modifySlot offset slot change machine = .error fault after) :
    Frame.slotPosition machine.frame machine.stack.top slot = none ∧
      fault = .invalidSlot offset slot ∧ after = machine := by
  rcases Action.bind_eq_error.mp failed with unplaced | ⟨position, _, placed, rest⟩
  · exact slotPosition_eq_error unplaced
  obtain ⟨found, rfl⟩ := slotPosition_eq_ok placed
  have := bounds.slot_inUse found
  rcases Action.bind_eq_error.mp rest with unread | ⟨value, _, read, unwritten⟩
  · have := (readWord_eq_error unread).1
    omega
  · obtain ⟨-, rfl⟩ := readWord_eq_ok read
    have := (writeWord_eq_error unwritten).1
    omega

end InBounds

end Machine

/-! ## Dispatch -/

namespace Sequential

variable {stackSize : Nat} {machine : Machine}

theorem follow_inBounds (bounds : Machine.InBounds stackSize machine) (length : Nat) (flow : Flow) :
    Machine.InBounds stackSize (follow length flow machine).state := by
  cases flow <;> exact { bounds with }

end Sequential

/-- A round of sequential dispatch keeps the machine in bounds, whatever it comes to. -/
theorem Machine.InBounds.step {stackSize : Nat} {machine : Machine}
    (bounds : Machine.InBounds stackSize machine) (image : Image) :
    Machine.InBounds stackSize (Sequential.step image machine).state := by
  cases decoded : Instruction.decode image machine.cursor with
  | error fault =>
    rw [Sequential.step_of_undecodable decoded]
    exact bounds
  | ok instruction =>
    have kept : Action.Preserves (Machine.InBounds stackSize)
        (Machine.execute image machine.cursor instruction) := Machine.execute_inBounds _ _ _
    cases ran : Machine.execute image machine.cursor instruction machine with
    | error fault after =>
      rw [Sequential.step_of_failed decoded ran]
      exact kept.of_error bounds ran
    | ok flow after =>
      rw [Sequential.step_of_done decoded ran]
      exact Sequential.follow_inBounds (kept.of_ok bounds ran) _ _

end Tandem

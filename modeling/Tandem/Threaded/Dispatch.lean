import Tandem.Machine.Execute
import Tandem.Machine.Progress
import Tandem.Threaded.Code

/-!
# Threaded dispatch

The loop that runs threaded code. A call pushes its continuation id, and a return goes on where the
id that it pops says, if that is where the frame returns to. The engine's id lies at the bottom:
popping it ends the run. The cursor of the machine is left alone.
-/

namespace Tandem.Threaded

/-- A machine at an operation of threaded code. -/
structure Thread where
  /-- The index of the operation to run next. -/
  position : Nat
  machine : Machine

/-- Go along a link. A missing one means that the image has nothing at `offset`. -/
def follow (link : Option Nat) (offset : Nat) : Machine.Action Nat :=
  match link with
  | some index => return index
  | none => throw (.endOfImage offset)

/-- Where `flow` leads from `op`: the index of an operation, or none at the end of the run. -/
def successor (code : Code) (op : Op) (flow : Flow) : Machine.Action (Option Nat) :=
  match flow with
  | .next => return some (← follow op.next op.nextOffset)
  | .branch target => return some (← follow op.taken target)
  | .call target => do
    let index ← follow op.taken target
    Machine.onContinuations (Stack.push op.continuation)
    return some index
  | .toCaller address => do
    let id ← Machine.onContinuations (Stack.pop UInt32)
    match code.resume? id with
    | some resume =>
      if resume.returnOffset = address then return some resume.op
      else throw (.malformedFrame op.offset (.continuation id))
    | none => throw (.malformedFrame op.offset (.continuation id))
  | .toEngine => do
    let id ← Machine.onContinuations (Stack.pop UInt32)
    if id = rootId then return none
    else throw (.malformedFrame op.offset (.continuation id))
  | .halt => return none

/-- Run one operation and find the next one. -/
def dispatch (image : Image) (code : Code) (op : Op) (instruction : Instruction) :
    Machine.Action (Option Nat) := do
  let flow ← Machine.execute image op.offset instruction
  successor code op flow

/-- Run the operation that a thread is at. -/
def step (image : Image) (code : Code) (thread : Thread) : Progress Thread :=
  match code.ops[thread.position]? with
  | none => .done (.error (.endOfImage thread.position)) thread
  | some op =>
    match op.decoded with
    | .error fault => .done (.error fault) thread
    | .ok instruction =>
      match dispatch image code op instruction thread.machine with
      | .error fault machine => .done (.error fault) { thread with machine }
      | .ok (some position) machine => .running { position, machine }
      | .ok none machine => .done (.ok machine.registers.accumulator) { thread with machine }

/-- Run threaded code on a machine, from the entry on. -/
def run (image : Image) (code : Code) (fuel : Nat) (machine : Machine) :
    Option (Outcome Machine) :=
  match Machine.onContinuations (Stack.push rootId) machine with
  | .error fault machine => some ⟨.error fault, machine⟩
  | .ok () machine =>
    (iterate (step image code) fuel { position := 0, machine }).map fun outcome =>
      ⟨outcome.result, outcome.state.machine⟩

end Tandem.Threaded

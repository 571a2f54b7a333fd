import Tandem.Machine.Trace
import Tandem.Stack.Frame

/-!
# Machine state

The state that a run changes: the operand stack with its call frames, the continuation stack of
threaded dispatch, the registers, the cursors and the counters. The image is not part of it, since
nothing that runs can change the image.
-/

namespace Tandem

/-- The accumulator and the flag that the last compare wrote. -/
structure Registers where
  accumulator : UInt32 := 0
  flag : Bool := false
  deriving Repr, DecidableEq, Inhabited

/-- Counters of one run. -/
structure Stats where
  instructions : Nat := 0
  /-- Calls executed; the engine's entry into the image is none. -/
  calls : Nat := 0
  /-- Returns to a caller inside the image; the final return to the engine is none. -/
  returns : Nat := 0
  /-- The deepest use of the operand stack, in bytes. -/
  maxDepth : Nat := 0
  deriving Repr, DecidableEq, Inhabited

/-- The state of a machine. -/
structure Machine where
  stack : Stack
  /-- The continuation ids of the outstanding calls of a threaded run. -/
  continuations : Stack
  registers : Registers := {}
  /-- The offset of the instruction that sequential dispatch is at. -/
  cursor : Nat := 0
  /-- The position just past the header of the current frame. -/
  frame : Nat := 0
  /-- A compare was executed, and the branch that uses its flag was not yet. -/
  fused : Bool := false
  stats : Stats := {}
  /-- The records so far, the newest first, if they are kept. -/
  trace : Option (List Record) := none
  deriving Repr, DecidableEq

/-- An operation on a machine that can fail. -/
abbrev Machine.Action (α : Type) : Type := Tandem.Action Machine α

namespace Machine

/-- The bytes that a continuation id takes on the continuation stack. -/
def continuationSize : Nat := 4

/-- The capacity of the continuation stack: one id for each frame header that the operand stack can
hold, and the engine's own id. -/
def continuationCapacity (stackSize : Nat) : Nat :=
  (stackSize / Frame.headerSize + 1) * continuationSize

/-- A fresh machine whose operand stack holds `stackSize` bytes. -/
def ofStackSize (stackSize : Nat) (growth : Growth) : Machine :=
  { stack := Stack.ofCapacity stackSize growth
    continuations := Stack.ofCapacity (continuationCapacity stackSize) growth }

/-- An operation on the operand stack. -/
def onStack {α : Type} (action : Stack.Action α) : Action α := fun machine =>
  match action machine.stack with
  | .ok value stack => .ok value { machine with stack }
  | .error fault stack => .error fault { machine with stack }

/-- An operation on the continuation stack. -/
def onContinuations {α : Type} (action : Stack.Action α) : Action α := fun machine =>
  match action machine.continuations with
  | .ok value continuations => .ok value { machine with continuations }
  | .error fault continuations => .error fault { machine with continuations }

/-- The state before a run: empty stacks, cleared registers and counters. The trace is kept. -/
def reset (machine : Machine) : Machine :=
  { machine with
    stack := machine.stack.reset
    continuations := machine.continuations.reset
    registers := {}
    fused := false
    stats := {} }

/-- Get ready to run `image`: reset the machine, push the argument and the engine's frame, and
point the cursor at the entry. -/
def prepare (image : Image) (argument : UInt32) : Action Unit := do
  modify reset
  onStack (Stack.push argument)
  let frame ← onStack (Frame.push 0 Frame.noCaller)
  modify fun machine =>
    { machine with
      frame
      cursor := image.entry
      stats := { machine.stats with maxDepth := machine.stack.top } }

end Machine

end Tandem

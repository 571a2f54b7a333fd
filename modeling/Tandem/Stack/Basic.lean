import Tandem.Action
import Tandem.Bytes.Scalar

/-!
# Byte stacks

A stack of bytes with a fixed capacity. Positions are depths: the number of bytes between the base
and the start of a value, counted in the order of pushing. The growth direction says where the byte
of a depth is kept in the buffer, and only `byte`, `setByte` and what is built from them look at
it; a value reads the same at any position in either direction.

Operations that can fail are actions on the stack. A failing operation of this module leaves the
stack as it was.
-/

namespace Tandem

/-- Which way the cells of a buffer are filled. -/
inductive Growth where
  /-- From the first cell up. -/
  | upward
  /-- From the last cell down. -/
  | downward
  deriving Repr, DecidableEq, Inhabited

namespace Growth

/-- The name of a growth direction. -/
def name : Growth → String
  | .upward => "Upward"
  | .downward => "Downward"

/-- The cell, in a buffer of `capacity` cells, of the byte at `position`. -/
def cell : Growth → (capacity position : Nat) → Nat
  | .upward, _, position => position
  | .downward, capacity, position => capacity - 1 - position

end Growth

/-- A fixed-capacity stack of bytes. The first `top` positions are in use. -/
structure Stack where
  buffer : Array UInt8
  growth : Growth
  top : Nat := 0
  deriving Repr, DecidableEq

/-- An operation on a stack that can fail. -/
abbrev Stack.Action (α : Type) : Type := Tandem.Action Stack α

namespace Stack

/-- An empty stack of zeroed cells. -/
def ofCapacity (capacity : Nat) (growth : Growth) : Stack :=
  { buffer := Array.replicate capacity 0, growth }

/-- The most bytes that a stack can hold. -/
def capacity (stack : Stack) : Nat := stack.buffer.size

/-- The bytes that can still be pushed. -/
def available (stack : Stack) : Nat := stack.capacity - stack.top

/-- Nothing is on the stack. -/
def isEmpty (stack : Stack) : Bool := stack.top == 0

/-- Pushing `count` more bytes would run past the capacity. -/
def isOverflow (stack : Stack) (count : Nat) : Bool := stack.available < count

/-- Removing `count` bytes would run below the base. -/
def isUnderflow (stack : Stack) (count : Nat) : Bool := stack.top < count

/-- The stack with nothing on it. Its cells keep what they held. -/
def reset (stack : Stack) : Stack := { stack with top := 0 }

/-! ## Cells -/

/-- The byte at `position`. -/
def byte (stack : Stack) (position : Nat) : UInt8 :=
  stack.buffer.getD (stack.growth.cell stack.capacity position) 0

/-- The stack with another byte at `position`. -/
def setByte (stack : Stack) (position : Nat) (value : UInt8) : Stack :=
  let cell := stack.growth.cell stack.capacity position
  { stack with buffer := stack.buffer.setIfInBounds cell value }

/-- The `count` bytes from `position` on. -/
def load (stack : Stack) (position count : Nat) : List UInt8 :=
  (List.range' position count).map stack.byte

/-- The stack with other bytes from `position` on. -/
def store (stack : Stack) (position : Nat) : List UInt8 → Stack
  | [] => stack
  | value :: rest => (stack.setByte position value).store (position + 1) rest

/-- The bytes in use, from the base to the top. -/
def contents (stack : Stack) : List UInt8 := stack.load 0 stack.top

/-- The stack with other bytes from the top on, all of them in use. The cells have to be free. -/
def append (stack : Stack) (bytes : List UInt8) : Stack :=
  let top := stack.top
  { stack.store top bytes with top := top + bytes.length }

/-- The stack without its last `count` bytes. -/
def drop (stack : Stack) (count : Nat) : Stack := { stack with top := stack.top - count }

/-! ## Operations -/

/-- Push a value. -/
def push {α : Type} [Scalar α] (value : α) : Action Unit := fun stack =>
  if stack.isOverflow (Scalar.width α) then
    .error (.stackOverflow (Scalar.width α) stack.available) stack
  else .ok () (stack.append (Scalar.encode value))

/-- Pop a value. -/
def pop (α : Type) [Scalar α] : Action α := fun stack =>
  if stack.isUnderflow (Scalar.width α) then
    .error (.stackUnderflow (Scalar.width α) stack.top) stack
  else
    let value := Scalar.decode α (stack.load (stack.top - Scalar.width α) (Scalar.width α))
    .ok value (stack.drop (Scalar.width α))

/-- Grow by `count` zeroed bytes. -/
def reserve (count : Nat) : Action Unit := fun stack =>
  if stack.isOverflow count then .error (.stackOverflow count stack.available) stack
  else .ok () (stack.append (List.replicate count 0))

/-- Release `count` bytes without reading them. -/
def release (count : Nat) : Action Unit := fun stack =>
  if stack.isUnderflow count then .error (.stackUnderflow count stack.top) stack
  else .ok () (stack.drop count)

/-- A value of `count` bytes at `position` lies wholly in use. -/
def checkInUse (stack : Stack) (position count : Nat) : Except Fault Unit :=
  if position + count ≤ stack.top then .ok ()
  else .error (.stackUnderflow count (stack.top - position))

/-- The word at `position`, which has to lie below the top. -/
def readWord (stack : Stack) (position : Nat) : Except Fault UInt32 := do
  stack.checkInUse position (Scalar.width UInt32)
  return Scalar.decode UInt32 (stack.load position (Scalar.width UInt32))

/-- Overwrite the word at `position`, which has to lie below the top. -/
def writeWord (position : Nat) (value : UInt32) : Action Unit := fun stack =>
  match stack.checkInUse position (Scalar.width UInt32) with
  | .error fault => .error fault stack
  | .ok () => .ok () (stack.store position (Scalar.encode value))

end Stack

end Tandem

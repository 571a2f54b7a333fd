import Tandem.Instruction.Basic
import Tandem.Stack.Basic

/-!
# Call frames

A call frame on the operand stack is a header of two 64-bit words, the caller's frame pointer and
the return address, followed by the locals. The frame pointer is the position just past the header:

    ... | arg 1 | arg 0 | saved pointer | return address | var 0 | var 1 | ...
                                                          ^ frame pointer

Positions are depths of the stack. Local `i` stands four times `i` bytes above the frame pointer;
the arguments stand below the header, the last one pushed first.
-/

namespace Tandem.Frame

/-- The bytes of a frame header. -/
def headerSize : Nat := 16

/-- The bytes of a slot. -/
def slotSize : Nat := 4

/-- The return address of the frame that the engine pushes before it enters the image. -/
def noCaller : UInt64 := 0xFFFFFFFFFFFFFFFF

/-- The position of a slot of the frame at `pointer`, on a stack with the given top. A local has to
lie below the top, and an argument at or above the base. -/
def slotPosition (pointer top : Nat) (slot : Slot) : Option Nat :=
  match slot.toInt with
  | .ofNat index =>
    let position := pointer + slotSize * index
    if position + slotSize ≤ top then some position else none
  | .negSucc index =>
    let below := headerSize + slotSize * (index + 1)
    if below ≤ pointer then some (pointer - below) else none

/-- Push a frame header; the result is the new frame pointer. If only the first of its two words
has room, that word stays on the stack. -/
def push (pointer : Nat) (returnAddress : UInt64) : Stack.Action Nat := do
  Stack.push pointer.toUInt64
  Stack.push returnAddress
  return (← get).top

/-- What a return found in the frame header. -/
structure Unwound where
  pointer : Nat
  returnAddress : UInt64
  deriving Repr, DecidableEq

/-- Release `count` bytes of locals and pop the header of the frame at `pointer`.

The size of the image bounds the return address, and `offset` is where the return stands. What was
released or popped before a check fails stays off the stack. -/
def pop (pointer count imageSize offset : Nat) : Stack.Action Unwound := do
  let locals := (← get).top - pointer
  Action.ensure (count ≤ locals) (.malformedFrame offset (.releasePastFrame count locals))
  Stack.release count
  let top := (← get).top
  Action.ensure (top = pointer) (.malformedFrame offset (.localsRemaining (top - pointer)))
  let returnAddress ← Stack.pop UInt64
  let saved ← Stack.pop UInt64
  let base := (← get).top
  Action.ensure (saved.toNat ≤ base) (.malformedFrame offset (.savedFramePointer saved))
  Action.ensure (returnAddress = noCaller ∨ returnAddress.toNat < imageSize)
    (.malformedFrame offset (.returnAddress returnAddress))
  return ⟨saved.toNat, returnAddress⟩

end Tandem.Frame

import Tandem.Instruction.Basic

/-!
# Threaded code

The form of an image that threaded dispatch runs: a table of decoded operations, each with the
table indices of its successors, so that control moves through links and never looks up an offset.
Operation 0 stands at the entry. Bytes that do not decode are kept as operations that hold the
fault, so that an image fails at the same instruction, and in the same way, as under sequential
dispatch.

Every call has a continuation id, and the resume table says where a return to that call goes on.
Ids count from one; zero is the id of the engine itself.
-/

namespace Tandem.Threaded

/-- The continuation id of the engine. -/
def rootId : UInt32 := 0

/-- One operation of threaded code. -/
structure Op where
  /-- Where the operation stands in the image. -/
  offset : Nat
  decoded : Except Fault Instruction
  /-- The index of the operation just past this one, if control can fall through to it. -/
  next : Option Nat := none
  /-- The index of the operation at the target of a jump or a call. -/
  taken : Option Nat := none
  /-- The id that a call pushes; the engine's id for every other operation. -/
  continuation : UInt32 := rootId

/-- Where a return goes on. -/
structure Resume where
  /-- The return address of the call. -/
  returnOffset : Nat
  /-- The index of the operation at that offset. -/
  op : Nat
  deriving Repr, DecidableEq

/-- The threaded form of an image. -/
structure Code where
  ops : Array Op
  /-- Indexed by continuation id minus one. -/
  resumes : Array Resume

namespace Op

/-- The bytes of the instruction of an operation, zero for a fault. -/
def length (op : Op) : Nat :=
  match op.decoded with
  | .ok instruction => instruction.length
  | .error _ => 0

/-- The offset just past an operation. -/
def nextOffset (op : Op) : Nat := op.offset + op.length

/-- Where a return to this operation goes on, if it is a call. -/
def resume? (op : Op) : Option Resume :=
  match op.decoded, op.next with
  | .ok (.call _ _), some next => some { returnOffset := op.nextOffset, op := next }
  | _, _ => none

end Op

/-- The entry of the resume table that a continuation id names. -/
def Code.resume? (code : Code) (id : UInt32) : Option Resume :=
  match id.toNat with
  | 0 => none
  | index + 1 => code.resumes[index]?

end Tandem.Threaded

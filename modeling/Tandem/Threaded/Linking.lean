import Tandem.Instruction.Decoding
import Tandem.Threaded.Code

/-!
# Linking an image

How the threaded form of an image is made. Everything that control can reach from the entry is put
into one table. An offset gets its place in the table when it is first seen; operations are then
decoded in the order of their places, and each sees its fall-through successor before its target.
When every operation is decoded, the calls are numbered in table order.

Only decoded operations have successors, at most two each, and there is at most one for each byte
of the image: a table has at most `2 * size + 1` operations, which bounds the number of rounds.
-/

namespace Tandem.Threaded

/-- An operation that has its place in the table and is not decoded yet. -/
def Op.pending (offset : Nat) : Op := { offset, decoded := .error (.endOfImage offset) }

/-- The index of the operation at `offset`, and the table with a place for it at its end if there
was none. -/
def place (offset : Nat) (ops : Array Op) : Nat × Array Op :=
  match ops.findIdx? (·.offset == offset) with
  | some index => (index, ops)
  | none => (ops.size, ops.push (Op.pending offset))

/-- The link to the operation at an offset that control can reach. -/
def link (offset? : Option Nat) (ops : Array Op) : Option Nat × Array Op :=
  match offset? with
  | none => (none, ops)
  | some offset =>
    let (index, ops) := place offset ops
    (some index, ops)

/-- The offset just past an instruction at `offset`, if control can fall through to it. -/
def fallThrough? (offset : Nat) (instruction : Instruction) : Option Nat :=
  if instruction.fallsThrough then some (offset + instruction.length) else none

/-- The offset that an instruction at `offset` jumps to or calls. -/
def destination? (offset : Nat) (instruction : Instruction) : Option Nat :=
  instruction.target?.bind fun target => (target.resolve (offset + instruction.length)).toOption

/-- Decode the operation at `index` and link it to its successors. -/
def decodeOp (image : Image) (index : Nat) (ops : Array Op) : Array Op :=
  match ops[index]? with
  | none => ops
  | some op =>
    match Instruction.decode image op.offset with
    | .error fault => ops.setIfInBounds index { op with decoded := .error fault }
    | .ok instruction =>
      let (next, ops) := link (fallThrough? op.offset instruction) ops
      let (taken, ops) := link (destination? op.offset instruction) ops
      ops.setIfInBounds index { op with decoded := .ok instruction, next, taken }

/-- Decode the operations from `index` on, the ones that this adds to the table included. -/
def decodeFrom (image : Image) : (rounds index : Nat) → Array Op → Array Op
  | 0, _, ops => ops
  | rounds + 1, index, ops =>
    if index < ops.size then decodeFrom image rounds (index + 1) (decodeOp image index ops)
    else ops

/-- Give the calls among `ops` their continuation ids, after `count` calls that have theirs. -/
def numberCalls : (count : Nat) → List Op → List Op
  | _, [] => []
  | count, op :: rest =>
    match op.resume? with
    | some _ => { op with continuation := (count + 1).toUInt32 } :: numberCalls (count + 1) rest
    | none => op :: numberCalls count rest

/-- The operations of an image, without continuation ids. -/
def decodedOps (image : Image) : Array Op :=
  decodeFrom image (2 * image.size + 1) 0 #[Op.pending image.entry]

/-- The threaded form of an image. -/
def Code.ofImage (image : Image) : Code :=
  let ops := decodedOps image
  { ops := (numberCalls 0 ops.toList).toArray
    resumes := ops.filterMap Op.resume? }

end Tandem.Threaded

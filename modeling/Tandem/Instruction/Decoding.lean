import Tandem.Instruction.Basic

/-!
# The decoding of instructions

Reading an instruction out of an image. Operands are read in their order, so a decode that runs
past the image fails at the first field that does not lie wholly inside it.
-/

namespace Tandem.Instruction

/-- The instruction of an opcode whose operands start at `offset`. -/
def read (image : Image) (offset : Nat) : Opcode → Except Fault Instruction
  | .push => return .push (← image.read Int8 offset)
  | .pushWord => return .pushWord (← image.read Int32 offset)
  | .pushWide => return .pushWide (← image.read Int64 offset)
  | .pushZero cell => return .pushZero cell
  | .pop cell => return .pop cell
  | .reserve => return .reserve (← image.read UInt8 offset)
  | .reserveWord => return .reserveWord
  | .release => return .release (← image.read UInt8 offset)
  | .load => return .load (← image.read Int8 offset) (← image.read UInt32 (offset + 1))
  | .loadAcc => return .loadAcc (← image.read UInt32 offset)
  | .fetch => return .fetch (← image.read Int8 offset)
  | .save => return .save (← image.read Int8 offset)
  | .move => return .move (← image.read Int8 offset) (← image.read Int8 (offset + 1))
  | .step operation => return .step operation (← image.read Int8 offset)
  | .update operation =>
    return .update operation (← image.read Int8 offset) (← image.read Int8 (offset + 1))
  | .updateBy operation =>
    return .updateBy operation (← image.read Int8 offset) (← image.read UInt32 (offset + 1))
  | .accumulate operation => return .accumulate operation (← image.read Int8 offset)
  | .accumulateBy operation => return .accumulateBy operation (← image.read UInt32 offset)
  | .compare reading =>
    return .compare reading (← image.read Int8 offset) (← image.read Int8 (offset + 1))
  | .compareWith reading =>
    return .compareWith reading (← image.read Int8 offset) (← image.read UInt32 (offset + 1))
  | .jump condition width => return .jump condition width (← Target.read image width offset)
  | .call width => return .call width (← Target.read image width offset)
  | .ret => return .ret
  | .retShort => return .retShort (← image.read UInt8 offset)
  | .retLong => return .retLong (← image.read UInt16 offset)
  | .retWith => return .retWith (← image.read UInt32 offset)
  | .retLongWith =>
    return .retLongWith (← image.read UInt16 offset) (← image.read UInt32 (offset + 2))
  | .nop => return .nop
  | .skip => return .skip (← image.read UInt8 offset)
  | .exit => return .exit

/-- The instruction at `offset`. -/
def decode (image : Image) (offset : Nat) : Except Fault Instruction := do
  let byte ← image.read UInt8 offset
  match Opcode.ofByte? byte with
  | some opcode => read image (offset + 1) opcode
  | none => throw (.illegalOpcode byte offset)

end Tandem.Instruction

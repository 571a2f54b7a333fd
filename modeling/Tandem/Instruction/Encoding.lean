import Tandem.Instruction.Basic

/-!
# The encoding of instructions

An instruction is written as its opcode byte followed by its operands, each in little-endian order.
The bytes that a skip passes over are not part of its encoding: they can hold anything.
-/

namespace Tandem.Instruction

/-- The bytes of each operand, in their order. -/
def operands : Instruction → List (List UInt8)
  | .push source => [Scalar.encode source]
  | .pushWord value => [Scalar.encode value]
  | .pushWide value => [Scalar.encode value]
  | .pushZero _ => []
  | .pop _ => []
  | .reserve count => [Scalar.encode count]
  | .reserveWord => []
  | .release count => [Scalar.encode count]
  | .load destination value => [Scalar.encode destination, Scalar.encode value]
  | .loadAcc value => [Scalar.encode value]
  | .fetch source => [Scalar.encode source]
  | .save destination => [Scalar.encode destination]
  | .move destination source => [Scalar.encode destination, Scalar.encode source]
  | .step _ destination => [Scalar.encode destination]
  | .update _ destination source => [Scalar.encode destination, Scalar.encode source]
  | .updateBy _ destination value => [Scalar.encode destination, Scalar.encode value]
  | .accumulate _ source => [Scalar.encode source]
  | .accumulateBy _ value => [Scalar.encode value]
  | .compare _ left right => [Scalar.encode left, Scalar.encode right]
  | .compareWith _ left right => [Scalar.encode left, Scalar.encode right]
  | .jump _ width target => [target.encode width]
  | .call width target => [target.encode width]
  | .ret => []
  | .retShort count => [Scalar.encode count]
  | .retLong count => [Scalar.encode count]
  | .retWith value => [Scalar.encode value]
  | .retLongWith count value => [Scalar.encode count, Scalar.encode value]
  | .nop => []
  | .skip count => [Scalar.encode count]
  | .exit => []

/-- The bytes of an instruction. -/
def encode (instruction : Instruction) : List UInt8 :=
  instruction.opcode.toByte :: instruction.operands.flatten

/-- An instruction can be written: its target, if it has one, has the kind and range of its
width. -/
def Encodable : Instruction → Prop
  | .jump _ width target => target.Encodable width
  | .call width target => target.Encodable width
  | _ => True

/-- The bytes of a program, one instruction after the other. -/
def assemble (program : List Instruction) : Array UInt8 := (program.flatMap encode).toArray

/-- Operands have the widths that the opcode says. -/
theorem map_length_operands {instruction : Instruction} (encodable : instruction.Encodable) :
    instruction.operands.map List.length = instruction.opcode.operandWidths := by
  cases instruction with
  | jump condition width target =>
    cases width <;> cases target <;>
      simp_all [Encodable, Target.Encodable, operands, Target.encode, opcode,
        Opcode.operandWidths, Width.operandSize] <;> rfl
  | call width target =>
    cases width <;> cases target <;>
      simp_all [Encodable, Target.Encodable, operands, Target.encode, opcode,
        Opcode.operandWidths, Width.operandSize] <;> rfl
  | _ => rfl

end Tandem.Instruction

import Tandem.Instruction.Condition
import Tandem.Instruction.Target

/-!
# Opcodes

The first byte of an instruction says what it does and which operands follow. `Opcode` is that
byte's meaning: one constructor for each row of the table, with the size, the operation or the
condition that neighbouring rows differ in. `ofByte?` and `toByte` are the table read in its two
directions.
-/

namespace Tandem

/-- The size of a value on the operand stack. -/
inductive Cell where
  /-- Four bytes. -/
  | word
  /-- Eight bytes. -/
  | wide
  deriving Repr, DecidableEq, Inhabited

/-- The bytes of a cell. -/
def Cell.size : Cell → Nat
  | .word => 4
  | .wide => 8

/-- The operations of the arithmetic instructions. Both wrap around at the width of a word. -/
inductive Arithmetic where
  | add
  | sub
  deriving Repr, DecidableEq, Inhabited

/-- The result of an operation on two words. -/
def Arithmetic.apply : Arithmetic → (left right : UInt32) → UInt32
  | .add, left, right => left + right
  | .sub, left, right => left - right

/-- The meaning of the first byte of an instruction. -/
inductive Opcode where
  /-- Push the value of a slot. -/
  | push
  /-- Push a 32-bit immediate. -/
  | pushWord
  /-- Push a 64-bit immediate. -/
  | pushWide
  /-- Push zero. -/
  | pushZero (cell : Cell)
  /-- Discard a local value. -/
  | pop (cell : Cell)
  /-- Make room for zeroed local bytes. -/
  | reserve
  /-- Make room for one zeroed word. -/
  | reserveWord
  /-- Release local bytes. -/
  | release
  /-- Set a slot to an immediate. -/
  | load
  /-- Set the accumulator to an immediate. -/
  | loadAcc
  /-- Set the accumulator to a slot. -/
  | fetch
  /-- Set a slot to the accumulator. -/
  | save
  /-- Set a slot to another slot. -/
  | move
  /-- Step a slot by one. -/
  | step (operation : Arithmetic)
  /-- Combine a slot with another slot. -/
  | update (operation : Arithmetic)
  /-- Combine a slot with an immediate. -/
  | updateBy (operation : Arithmetic)
  /-- Combine the accumulator with a slot. -/
  | accumulate (operation : Arithmetic)
  /-- Combine the accumulator with an immediate. -/
  | accumulateBy (operation : Arithmetic)
  /-- Compare two slots. -/
  | compare (reading : Signedness)
  /-- Compare a slot with an immediate. -/
  | compareWith (reading : Signedness)
  | jump (condition : Condition) (width : Width)
  | call (width : Width)
  | ret
  /-- Release up to 255 local bytes and return. -/
  | retShort
  /-- Release local bytes and return. -/
  | retLong
  /-- Set the accumulator and return. -/
  | retWith
  /-- Set the accumulator, release local bytes and return. -/
  | retLongWith
  | nop
  /-- Pass over the bytes that follow. -/
  | skip
  | exit
  deriving Repr, DecidableEq, Inhabited

namespace Opcode

/-- The first and the last byte that stand for a jump. -/
def jumpFirst : UInt8 := 0x40

@[inherit_doc jumpFirst] def jumpLast : UInt8 := 0x63

/-- The byte of a jump: conditions in steps of four, widths in steps of one. -/
def jumpByte (condition : Condition) (width : Width) : UInt8 :=
  jumpFirst + 4 * condition.code + width.code

/-- The condition and the width that a byte stands for, if it stands for a jump. -/
def jump? (byte : UInt8) : Option (Condition × Width) :=
  if jumpFirst ≤ byte ∧ byte ≤ jumpLast then do
    let condition ← Condition.ofCode? ((byte - jumpFirst) / 4)
    let width ← Width.ofCode? ((byte - jumpFirst) % 4)
    return (condition, width)
  else none

/-- The byte of an opcode. -/
def toByte : Opcode → UInt8
  | .push => 0x01
  | .pushWord => 0x02
  | .pushWide => 0x03
  | .pushZero .word => 0x04
  | .pushZero .wide => 0x05
  | .pop .word => 0x06
  | .pop .wide => 0x07
  | .reserve => 0x08
  | .reserveWord => 0x09
  | .release => 0x0A
  | .load => 0x10
  | .loadAcc => 0x11
  | .fetch => 0x12
  | .save => 0x13
  | .move => 0x14
  | .step .add => 0x20
  | .step .sub => 0x21
  | .update .add => 0x22
  | .updateBy .add => 0x23
  | .accumulate .add => 0x24
  | .accumulateBy .add => 0x25
  | .update .sub => 0x26
  | .updateBy .sub => 0x27
  | .accumulate .sub => 0x28
  | .accumulateBy .sub => 0x29
  | .compare .signed => 0x30
  | .compare .unsigned => 0x31
  | .compareWith .signed => 0x32
  | .compareWith .unsigned => 0x33
  | .jump condition width => jumpByte condition width
  | .call .near => 0x70
  | .call .short => 0x71
  | .call .long => 0x72
  | .call .absolute => 0x73
  | .ret => 0x78
  | .retShort => 0x79
  | .retLong => 0x7A
  | .retWith => 0x7B
  | .retLongWith => 0x7C
  | .nop => 0x90
  | .skip => 0x91
  | .exit => 0xFF

/-- The opcode of a byte, if it has one. -/
def ofByte? : UInt8 → Option Opcode
  | 0x01 => some .push
  | 0x02 => some .pushWord
  | 0x03 => some .pushWide
  | 0x04 => some (.pushZero .word)
  | 0x05 => some (.pushZero .wide)
  | 0x06 => some (.pop .word)
  | 0x07 => some (.pop .wide)
  | 0x08 => some .reserve
  | 0x09 => some .reserveWord
  | 0x0A => some .release
  | 0x10 => some .load
  | 0x11 => some .loadAcc
  | 0x12 => some .fetch
  | 0x13 => some .save
  | 0x14 => some .move
  | 0x20 => some (.step .add)
  | 0x21 => some (.step .sub)
  | 0x22 => some (.update .add)
  | 0x23 => some (.updateBy .add)
  | 0x24 => some (.accumulate .add)
  | 0x25 => some (.accumulateBy .add)
  | 0x26 => some (.update .sub)
  | 0x27 => some (.updateBy .sub)
  | 0x28 => some (.accumulate .sub)
  | 0x29 => some (.accumulateBy .sub)
  | 0x30 => some (.compare .signed)
  | 0x31 => some (.compare .unsigned)
  | 0x32 => some (.compareWith .signed)
  | 0x33 => some (.compareWith .unsigned)
  | 0x70 => some (.call .near)
  | 0x71 => some (.call .short)
  | 0x72 => some (.call .long)
  | 0x73 => some (.call .absolute)
  | 0x78 => some .ret
  | 0x79 => some .retShort
  | 0x7A => some .retLong
  | 0x7B => some .retWith
  | 0x7C => some .retLongWith
  | 0x90 => some .nop
  | 0x91 => some .skip
  | 0xFF => some .exit
  | byte => (jump? byte).map fun (condition, width) => .jump condition width

/-- Every opcode is found again at its byte. -/
@[simp] theorem ofByte?_toByte (opcode : Opcode) : ofByte? opcode.toByte = some opcode := by
  cases opcode with
  | pushZero cell => cases cell <;> rfl
  | pop cell => cases cell <;> rfl
  | step operation => cases operation <;> rfl
  | update operation => cases operation <;> rfl
  | updateBy operation => cases operation <;> rfl
  | accumulate operation => cases operation <;> rfl
  | accumulateBy operation => cases operation <;> rfl
  | compare reading => cases reading <;> rfl
  | compareWith reading => cases reading <;> rfl
  | jump condition width => cases condition <;> cases width <;> rfl
  | call width => cases width <;> rfl
  | _ => rfl

/-- The widths of the operands that follow an opcode, in their order. -/
def operandWidths : Opcode → List Nat
  | .push => [1]
  | .pushWord => [4]
  | .pushWide => [8]
  | .pushZero _ => []
  | .pop _ => []
  | .reserve => [1]
  | .reserveWord => []
  | .release => [1]
  | .load => [1, 4]
  | .loadAcc => [4]
  | .fetch => [1]
  | .save => [1]
  | .move => [1, 1]
  | .step _ => [1]
  | .update _ => [1, 1]
  | .updateBy _ => [1, 4]
  | .accumulate _ => [1]
  | .accumulateBy _ => [4]
  | .compare _ => [1, 1]
  | .compareWith _ => [1, 4]
  | .jump _ width => [width.operandSize]
  | .call width => [width.operandSize]
  | .ret => []
  | .retShort => [1]
  | .retLong => [2]
  | .retWith => [4]
  | .retLongWith => [2, 4]
  | .nop => []
  | .skip => [1]
  | .exit => []

/-- The bytes of an opcode and its operands. -/
def size (opcode : Opcode) : Nat := opcode.operandWidths.foldl (· + ·) 1

theorem size_pos (opcode : Opcode) : 0 < opcode.size := by
  cases opcode with
  | jump condition width => cases width <;> exact Nat.succ_pos _
  | call width => cases width <;> exact Nat.succ_pos _
  | _ => exact Nat.succ_pos _

/-- The name of an opcode in listings. -/
def mnemonic : Opcode → String
  | .push => "push"
  | .pushWord => "push_i32"
  | .pushWide => "push_i64"
  | .pushZero .word => "push_i32_0"
  | .pushZero .wide => "push_i64_0"
  | .pop .word => "pop_i32"
  | .pop .wide => "pop_i64"
  | .reserve => "add_sp"
  | .reserveWord => "add_sp_4"
  | .release => "sub_sp"
  | .load => "load"
  | .loadAcc => "load_eax"
  | .fetch => "move_to_eax"
  | .save => "copy_to_eax"
  | .move => "move"
  | .step .add => "inc"
  | .step .sub => "dec"
  | .update .add => "add"
  | .updateBy .add => "add_imm"
  | .accumulate .add => "add_eax"
  | .accumulateBy .add => "add_eax_imm"
  | .update .sub => "sub"
  | .updateBy .sub => "sub_imm"
  | .accumulate .sub => "sub_eax"
  | .accumulateBy .sub => "sub_eax_imm"
  | .compare .signed => "cmp_i32"
  | .compare .unsigned => "cmp_u32"
  | .compareWith .signed => "cmp_imm_i32"
  | .compareWith .unsigned => "cmp_imm_u32"
  | .jump condition width => "j" ++ condition.letters ++ width.suffix
  | .call width => "call" ++ width.suffix
  | .ret => "ret"
  | .retShort => "ret_n_sm"
  | .retLong => "ret_n"
  | .retWith => "ret_eax"
  | .retLongWith => "ret_eax_n"
  | .nop => "nop"
  | .skip => "nop_n"
  | .exit => "exit"

end Opcode

end Tandem

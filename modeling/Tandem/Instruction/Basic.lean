import Tandem.Instruction.Opcode

/-!
# Instructions

One instruction of the machine with its operands. What an instruction is called, how many bytes it
takes and where control can go after it are read off it here, without running it.
-/

namespace Tandem

/-- The index of a four-byte slot of a frame: locals from zero upward, arguments from minus one
downward. -/
abbrev Slot := Int8

/-- An instruction with its operands. -/
inductive Instruction where
  | push (source : Slot)
  | pushWord (value : Int32)
  | pushWide (value : Int64)
  | pushZero (cell : Cell)
  | pop (cell : Cell)
  | reserve (count : UInt8)
  | reserveWord
  | release (count : UInt8)
  | load (destination : Slot) (value : UInt32)
  | loadAcc (value : UInt32)
  | fetch (source : Slot)
  | save (destination : Slot)
  | move (destination source : Slot)
  | step (operation : Arithmetic) (destination : Slot)
  | update (operation : Arithmetic) (destination source : Slot)
  | updateBy (operation : Arithmetic) (destination : Slot) (value : UInt32)
  | accumulate (operation : Arithmetic) (source : Slot)
  | accumulateBy (operation : Arithmetic) (value : UInt32)
  | compare (reading : Signedness) (left right : Slot)
  | compareWith (reading : Signedness) (left : Slot) (right : UInt32)
  | jump (condition : Condition) (width : Width) (target : Target)
  | call (width : Width) (target : Target)
  | ret
  | retShort (count : UInt8)
  | retLong (count : UInt16)
  | retWith (value : UInt32)
  | retLongWith (count : UInt16) (value : UInt32)
  | nop
  | skip (count : UInt8)
  | exit
  deriving Repr, DecidableEq, Inhabited

namespace Instruction

/-- The opcode that an instruction starts with. -/
def opcode : Instruction → Opcode
  | .push _ => .push
  | .pushWord _ => .pushWord
  | .pushWide _ => .pushWide
  | .pushZero cell => .pushZero cell
  | .pop cell => .pop cell
  | .reserve _ => .reserve
  | .reserveWord => .reserveWord
  | .release _ => .release
  | .load _ _ => .load
  | .loadAcc _ => .loadAcc
  | .fetch _ => .fetch
  | .save _ => .save
  | .move _ _ => .move
  | .step operation _ => .step operation
  | .update operation _ _ => .update operation
  | .updateBy operation _ _ => .updateBy operation
  | .accumulate operation _ => .accumulate operation
  | .accumulateBy operation _ => .accumulateBy operation
  | .compare reading _ _ => .compare reading
  | .compareWith reading _ _ => .compareWith reading
  | .jump condition width _ => .jump condition width
  | .call width _ => .call width
  | .ret => .ret
  | .retShort _ => .retShort
  | .retLong _ => .retLong
  | .retWith _ => .retWith
  | .retLongWith _ _ => .retLongWith
  | .nop => .nop
  | .skip _ => .skip
  | .exit => .exit

/-- The name of an instruction in listings. -/
def mnemonic (instruction : Instruction) : String := instruction.opcode.mnemonic

/-- The bytes that an instruction passes over beyond its operands. -/
def skipped : Instruction → Nat
  | .skip count => count.toNat
  | _ => 0

/-- The bytes from the start of an instruction to the one after it. -/
def length (instruction : Instruction) : Nat := instruction.opcode.size + instruction.skipped

/-- The target of a jump or a call. -/
def target? : Instruction → Option Target
  | .jump _ _ target => some target
  | .call _ target => some target
  | _ => none

/-- Whether control can go on just past the instruction. A call goes on there when it returns. -/
def fallsThrough : Instruction → Bool
  | .jump .always _ _ => false
  | .ret => false
  | .retShort _ => false
  | .retLong _ => false
  | .retWith _ => false
  | .retLongWith _ _ => false
  | .exit => false
  | _ => true

/-- Whether the instruction is a call. -/
def isCall : Instruction → Bool
  | .call _ _ => true
  | _ => false

theorem length_pos (instruction : Instruction) : 0 < instruction.length := by
  have := instruction.opcode.size_pos
  simp only [length]
  omega

end Instruction

end Tandem

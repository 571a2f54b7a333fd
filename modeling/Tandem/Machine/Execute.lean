import Tandem.Instruction.Printer
import Tandem.Machine.Basic

/-!
# The effect of one instruction

`execute` runs one instruction on a machine and says where control goes next. It is told where the
instruction stands, and never how it was found: both dispatch strategies share it.

An instruction counts as soon as it starts. The depth mark and the trace record are set only once
it has succeeded; an instruction that fails keeps the part of its effect that came before.
-/

namespace Tandem

/-- Where control goes after an instruction. -/
inductive Flow where
  /-- Just past the instruction. -/
  | next
  | branch (target : Nat)
  | call (target : Nat)
  /-- Back into the image. -/
  | toCaller (address : Nat)
  /-- Out of the image: the engine's own frame was popped. -/
  | toEngine
  | halt
  deriving Repr, DecidableEq

namespace Machine

/-! ## Slots -/

/-- The position of a slot of the current frame. -/
def slotPosition (offset : Nat) (slot : Slot) : Action Nat := fun machine =>
  match Frame.slotPosition machine.frame machine.stack.top slot with
  | some position => .ok position machine
  | none => .error (.invalidSlot offset slot) machine

/-- The word of the operand stack at `position`. -/
def readWord (position : Nat) : Action UInt32 := fun machine =>
  match machine.stack.readWord position with
  | .ok value => .ok value machine
  | .error fault => .error fault machine

/-- The value of a slot. -/
def readSlot (offset : Nat) (slot : Slot) : Action UInt32 := do
  readWord (← slotPosition offset slot)

/-- Set a slot. -/
def writeSlot (offset : Nat) (slot : Slot) (value : UInt32) : Action Unit := do
  let position ← slotPosition offset slot
  onStack (Stack.writeWord position value)

/-- Replace the value of a slot by a function of it. -/
def modifySlot (offset : Nat) (slot : Slot) (change : UInt32 → UInt32) : Action Unit := do
  let position ← slotPosition offset slot
  let value ← readWord position
  onStack (Stack.writeWord position (change value))

/-- Releasing `count` bytes must not reach into the frame header. -/
def checkLocals (count : Nat) : Action Unit := do
  let machine ← get
  let locals := machine.stack.top - machine.frame
  Action.ensure (count ≤ locals) (.stackUnderflow count locals)

/-! ## Registers -/

/-- Replace the accumulator by a function of it. -/
def modifyAccumulator (change : UInt32 → UInt32) : Action Unit :=
  modify fun machine =>
    { machine with
      registers := { machine.registers with accumulator := change machine.registers.accumulator } }

/-- Set the accumulator. -/
def setAccumulator (value : UInt32) : Action Unit := modifyAccumulator fun _ => value

/-! ## Control -/

/-- Evaluate the condition of the branch that starts at `next` on the operands of a compare, and
arm that branch. -/
def fuse (image : Image) (next : Nat) (left right : Int) : Action Unit := do
  let byte ← ofExcept (image.read UInt8 next)
  match Opcode.jump? byte with
  | none => throw (.illegalOpcode byte next)
  | some (condition, _) =>
    modify fun machine =>
      { machine with
        registers := { machine.registers with flag := condition.holds left right }
        fused := true }

/-- Where a target leads, seen from just past the instruction at `offset`. -/
def resolve (offset next : Nat) (target : Target) : Action Nat :=
  match target.resolve next with
  | .ok destination => return destination
  | .error landing => throw (.invalidTarget offset landing)

/-- Whether a jump is taken. A conditional jump is legal only just after a compare. -/
def isTaken (offset : Nat) (condition : Condition) (width : Width) : Action Bool := fun machine =>
  if condition = .always then .ok true machine
  else if machine.fused then .ok machine.registers.flag machine
  else .error (.illegalOpcode (Opcode.jumpByte condition width) offset) machine

/-- Jump, or go on past a conditional jump that is not taken. Either way the compare is used up. -/
def jump (offset next : Nat) (condition : Condition) (width : Width) (target : Target) :
    Action Flow := do
  let taken ← isTaken offset condition width
  modify fun machine => { machine with fused := false }
  if taken then return .branch (← resolve offset next target)
  else return .next

/-- The machine with one more call on its account. -/
def countCall (machine : Machine) : Machine :=
  { machine with stats := { machine.stats with calls := machine.stats.calls + 1 } }

/-- The machine with one more return to a caller on its account. -/
def countReturn (machine : Machine) : Machine :=
  { machine with stats := { machine.stats with returns := machine.stats.returns + 1 } }

/-- Call: push a frame that returns just past the call. -/
def call (offset next : Nat) (target : Target) : Action Flow := do
  let destination ← resolve offset next target
  let caller := (← get).frame
  let frame ← onStack (Frame.push caller next.toUInt64)
  modify fun machine => { machine with frame }
  modify countCall
  return .call destination

/-- Return: release `count` bytes of locals and unwind the current frame. -/
def ret (image : Image) (offset count : Nat) : Action Flow := do
  let callee := (← get).frame
  let unwound ← onStack (Frame.pop callee count image.size offset)
  modify fun machine => { machine with frame := unwound.pointer }
  if unwound.returnAddress = Frame.noCaller then return .toEngine
  else
    modify countReturn
    return .toCaller unwound.returnAddress.toNat

/-! ## Instructions -/

/-- The effect of `instruction`, which stands at `offset`, without its accounts. -/
def effect (image : Image) (offset : Nat) (instruction : Instruction) : Action Flow :=
  let next := offset + instruction.length
  match instruction with
  | .push source => do
    let value ← readSlot offset source
    onStack (Stack.push value)
    return .next
  | .pushWord value => do
    onStack (Stack.push value)
    return .next
  | .pushWide value => do
    onStack (Stack.push value)
    return .next
  | .pushZero .word => do
    onStack (Stack.push (0 : UInt32))
    return .next
  | .pushZero .wide => do
    onStack (Stack.push (0 : UInt64))
    return .next
  | .pop cell => do
    checkLocals cell.size
    onStack (Stack.release cell.size)
    return .next
  | .reserve count => do
    onStack (Stack.reserve count.toNat)
    return .next
  | .reserveWord => do
    onStack (Stack.reserve 4)
    return .next
  | .release count => do
    checkLocals count.toNat
    onStack (Stack.release count.toNat)
    return .next
  | .load destination value => do
    writeSlot offset destination value
    return .next
  | .loadAcc value => do
    setAccumulator value
    return .next
  | .fetch source => do
    let value ← readSlot offset source
    setAccumulator value
    return .next
  | .save destination => do
    let accumulator := (← get).registers.accumulator
    writeSlot offset destination accumulator
    return .next
  | .move destination source => do
    let value ← readSlot offset source
    writeSlot offset destination value
    return .next
  | .step operation destination => do
    modifySlot offset destination fun value => operation.apply value 1
    return .next
  | .update operation destination source => do
    let right ← readSlot offset source
    modifySlot offset destination fun left => operation.apply left right
    return .next
  | .updateBy operation destination right => do
    modifySlot offset destination fun left => operation.apply left right
    return .next
  | .accumulate operation source => do
    let right ← readSlot offset source
    modifyAccumulator fun left => operation.apply left right
    return .next
  | .accumulateBy operation right => do
    modifyAccumulator fun left => operation.apply left right
    return .next
  | .compare reading left right => do
    let leftValue ← readSlot offset left
    let rightValue ← readSlot offset right
    fuse image next (reading.read leftValue) (reading.read rightValue)
    return .next
  | .compareWith reading left right => do
    let leftValue ← readSlot offset left
    fuse image next (reading.read leftValue) (reading.read right)
    return .next
  | .jump condition width target => jump offset next condition width target
  | .call _ target => call offset next target
  | .ret => ret image offset 0
  | .retShort count => ret image offset count.toNat
  | .retLong count => ret image offset count.toNat
  | .retWith value => do
    setAccumulator value
    ret image offset 0
  | .retLongWith count value => do
    setAccumulator value
    ret image offset count.toNat
  | .nop => return .next
  | .skip _ => return .next
  | .exit => return .halt

/-- The machine with one more instruction on its account. -/
def countInstruction (machine : Machine) : Machine :=
  { machine with stats := { machine.stats with instructions := machine.stats.instructions + 1 } }

/-- The record of `instruction` at `offset` after its effect. -/
def record (machine : Machine) (offset : Nat) (instruction : Instruction) : Record :=
  { offset
    mnemonic := instruction.mnemonic
    operands := instruction.operandText
    accumulator := machine.registers.accumulator
    flag := machine.registers.flag }

/-- The machine with the depth mark and the trace brought up to date after `instruction`. -/
def settle (offset : Nat) (instruction : Instruction) (machine : Machine) : Machine :=
  { machine with
    stats := { machine.stats with maxDepth := max machine.stats.maxDepth machine.stack.top }
    trace := machine.trace.map (machine.record offset instruction :: ·) }

/-- Run `instruction`, which stands at `offset`. -/
def execute (image : Image) (offset : Nat) (instruction : Instruction) : Action Flow := do
  modify countInstruction
  let flow ← effect image offset instruction
  modify (settle offset instruction)
  return flow

end Machine

end Tandem

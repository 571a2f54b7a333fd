import Tandem.Instruction.Encoding
import Tandem.Proofs.Machine.Latch
import Tandem.Proofs.Machine.Prepare
import Tandem.Proofs.Machine.Sequential
import Tandem.Proofs.Stack.Capacity
import Tandem.Proofs.Stack.Reference

/-!
# What a failed instruction leaves

A machine can be looked at, and used again, after an instruction on it has failed. `Machine.Remains`
says what it finds there: the instruction has counted, it has made no record, and apart from that
there is nothing to see of most instructions. A jump may have used up its compare, a call may have
pushed one half of its header, and a return does not put back what it has taken off the stack. It
does not matter what state the machine was in, nor whether the instruction stands in the image.
-/

namespace Tandem.Machine

variable {image : Image} {offset : Nat} {instruction : Instruction} {machine after : Machine}
  {fault : Fault}

/-- What an instruction that failed has made of a machine. -/
structure Remains (offset : Nat) (instruction : Instruction) (fault : Fault)
    (before after : Machine) : Prop where
  /-- The instruction has counted, and no other counter was touched. -/
  stats : after.stats =
    { before.stats with instructions := before.stats.instructions + 1 }
  /-- There is no record of it. -/
  trace : after.trace = before.trace
  /-- An instruction that does not move control has changed nothing else at all. -/
  other : instruction.isJump = false → instruction.isCall = false → instruction.released? = none →
    after = before.countInstruction
  /-- A jump has used up its compare if it failed over its target. -/
  jump : instruction.isJump = true →
    (∃ landing, fault = .invalidTarget offset landing ∧
      after = { before.countInstruction with fused := false }) ∨
    ∃ opcode, fault = .illegalOpcode opcode offset ∧ after = before.countInstruction
  /-- A call has changed nothing but the stack, and nothing of what was on the stack. -/
  call : instruction.isCall = true →
    after = { before.countInstruction with stack := after.stack } ∧
      after.stack.load 0 before.stack.top = before.stack.contents
  /-- It has pushed the frame pointer of its caller if that is what there was room for. -/
  halfHeader : instruction.isCall = true → fault.IsOverflow → 8 ≤ before.stack.available →
    before.stack.available < 16 →
      after.stack = before.stack.append (Scalar.encode before.frame.toUInt64)
  /-- In any other case it has pushed nothing. -/
  noHeader : instruction.isCall = true →
    ¬ (fault.IsOverflow ∧ 8 ≤ before.stack.available ∧ before.stack.available < 16) →
      after.stack = before.stack
  /-- A return has set the accumulator if it is one of those that do, and has taken bytes off the
  stack: at most the locals that it releases and a header. -/
  ret : ∀ count, instruction.released? = some count →
    ∃ lowered ≤ count + Frame.headerSize,
      after = { before.countInstruction.readied instruction with
        stack := before.stack.drop lowered }

/-! ## Kinds of instructions -/

theorem remains_of_other (noJump : instruction.isJump = false) (noCall : instruction.isCall = false)
    (noReturn : instruction.released? = none)
    (failed : execute image offset instruction machine = .error fault after) :
    after = machine.countInstruction := by
  cases execute_fails failed with
  | jump jumps astray =>
    rw [jumps] at noJump
    cases noJump
  | halfHeader calls half short =>
    rw [calls] at noCall
    cases noCall
  | unwinding returns breaks =>
    rw [returns] at noReturn
    cases noReturn
  | _ => rfl

theorem remains_of_jump (jumps : instruction.isJump = true)
    (failed : execute image offset instruction machine = .error fault after) :
    (∃ landing, fault = .invalidTarget offset landing ∧
      after = { machine.countInstruction with fused := false }) ∨
    ∃ opcode, fault = .illegalOpcode opcode offset ∧ after = machine.countInstruction := by
  cases instruction with
  | jump condition width target =>
    rcases jump_eq_error (effect_of_failed failed) with
      ⟨-, -, illegal, same⟩ | ⟨landing, -, invalid, disarmed⟩
    · exact .inr ⟨_, illegal, same⟩
    · exact .inl ⟨landing, invalid, disarmed⟩
  | _ => cases jumps

/-- A call that failed has pushed nothing, or it has overflowed with one half of its header on the
stack. -/
theorem remains_of_call (calls : instruction.isCall = true)
    (failed : execute image offset instruction machine = .error fault after) :
    (¬ (fault.IsOverflow ∧ 8 ≤ machine.stack.available ∧ machine.stack.available < 16) ∧
      after = machine.countInstruction) ∨
    (8 ≤ machine.stack.available ∧ machine.stack.available < 16 ∧ fault.IsOverflow ∧
      after = { machine.countInstruction with
        stack := machine.stack.append (Scalar.encode machine.frame.toUInt64) }) := by
  cases instruction with
  | call width target =>
    rcases call_eq_error (effect_of_failed failed) with
      ⟨landing, -, invalid, same⟩ | ⟨short, -, same⟩ | ⟨half, short, overflow, pushed⟩
    · refine .inl ⟨?_, same⟩
      rintro ⟨⟨requested, available, overflow⟩, -⟩
      cases invalid.symm.trans overflow
    · refine .inl ⟨?_, same⟩
      rintro ⟨-, half, -⟩
      exact Nat.not_le.mpr short half
    · exact .inr ⟨half, short, ⟨_, _, overflow⟩, pushed⟩
  | _ => cases calls

/-- What lies below the top stays there when one half of a header is pushed. -/
theorem load_halfHeader {stack : Stack} (word : UInt64) (room : 8 ≤ stack.available) :
    (stack.append (Scalar.encode word)).load 0 stack.top = stack.contents := by
  rw [Stack.available] at room
  refine Stack.load_append_of_below ?_ (Nat.le_of_eq (Nat.zero_add _))
  rw [Scalar.length_encode, Scalar.width_uint64]
  omega

theorem remains_of_return {count : Nat} (returns : instruction.released? = some count)
    (failed : execute image offset instruction machine = .error fault after) :
    ∃ lowered ≤ count + Frame.headerSize,
      after = { machine.countInstruction.readied instruction with
        stack := machine.stack.drop lowered } := by
  have failed := effect_of_failed failed
  rw [effect_of_released image offset machine.countInstruction returns] at failed
  obtain ⟨stack, refused, rfl⟩ := pop_of_ret failed
  rw [stack_readied] at refused
  cases Frame.pop_breaks refused with
  | pastFrame past => exact ⟨0, Nat.zero_le _, rfl⟩
  | locals enough left => exact ⟨count, Nat.le_add_right _ _, rfl⟩
  | noAddress locals short => exact ⟨count, Nat.le_add_right _ _, rfl⟩
  | noPointer locals address short =>
    exact ⟨count + 8, Nat.add_le_add_left (by decide) count, rfl⟩
  | savedPointer locals header above => exact ⟨count + Frame.headerSize, Nat.le_refl _, rfl⟩
  | returnAddress locals header below inner outside =>
    exact ⟨count + Frame.headerSize, Nat.le_refl _, rfl⟩

/-! ## All instructions -/

/-- Whatever the state of a machine is, an instruction that fails on it leaves what
`Machine.Remains` says. -/
theorem remains_of_failed (failed : execute image offset instruction machine = .error fault after) :
    Remains offset instruction fault machine after where
  stats := by
    have counted := stats_execute image offset instruction machine
    rw [failed] at counted
    exact counted
  trace := congrArg Surroundings.trace (surroundings_of_failed failed)
  other noJump noCall noReturn := remains_of_other noJump noCall noReturn failed
  jump jumps := remains_of_jump jumps failed
  call calls := by
    rcases remains_of_call calls failed with ⟨-, same⟩ | ⟨half, -, -, pushed⟩
    · rw [same]
      exact ⟨rfl, rfl⟩
    · rw [pushed]
      exact ⟨rfl, load_halfHeader _ half⟩
  halfHeader calls overflow half short := by
    rcases remains_of_call calls failed with ⟨whole, -⟩ | ⟨-, -, -, pushed⟩
    · exact absurd ⟨overflow, half, short⟩ whole
    · rw [pushed]
  noHeader calls whole := by
    rcases remains_of_call calls failed with ⟨-, same⟩ | ⟨half, short, overflow, -⟩
    · rw [same]
      rfl
    · exact absurd ⟨overflow, half, short⟩ whole
  ret count returns := remains_of_return returns failed

/-- A call of the instruction behind it. -/
def calling : Image where
  bytes := Instruction.assemble [.call .near (.relative 0), .exit]
  entry := 0
  entry_lt := by decide

set_option maxRecDepth 2000 in
/-- With ten bytes to spare, the call pushes eight of the sixteen bytes of its header. -/
theorem remains_of_failed_halfway :
    ∃ prepared after, prepare calling 7 (ofStackSize 30 .downward) = .ok () prepared ∧
      execute calling 0 (.call .near (.relative 0)) prepared = .error (.stackOverflow 8 2) after ∧
      after.stack.top = 28 ∧
      Remains 0 (.call .near (.relative 0)) (.stackOverflow 8 2) prepared after := by
  have ready : prepare calling 7 (ofStackSize 30 .downward) = .ok () _ :=
    prepare_of_room (by decide)
  exact ⟨_, _, ready, rfl, rfl,
    remains_of_failed (show execute calling 0 (.call .near (.relative 0)) _ = _ from rfl)⟩

end Tandem.Machine

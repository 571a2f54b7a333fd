import Tandem.Proofs.Instruction.Inverse
import Tandem.Proofs.Machine.Accounts
import Tandem.Proofs.Machine.Failed

/-!
# The latch between a compare and its branch

A compare that succeeds has looked at the opcode behind it, which is that of a branch, and arms the
latch with what the condition of that branch says of its operands (`Machine.fuses_of_done`). A jump
uses the latch up (`Machine.fused_of_jump`), and no other instruction touches it
(`Machine.fused_of_other`). A conditional branch does as the flag says while the latch is armed, and
fails when it is not.
-/

namespace Tandem

namespace Instruction

/-- Whether the instruction is a compare. -/
def isCompare : Instruction → Bool
  | .compare _ _ _ => true
  | .compareWith _ _ _ => true
  | _ => false

/-- Whether the instruction is a jump, conditional or not. -/
def isJump : Instruction → Bool
  | .jump _ _ _ => true
  | _ => false

end Instruction

namespace Machine

/-- The numbers that the compare at `offset` reads on a machine. -/
inductive Compares (machine : Machine) (offset : Nat) : Instruction → (left right : Int) → Prop
  | slots {reading : Signedness} {left right : Slot} {leftWord rightWord : UInt32}
    (leftRead : readSlot offset left machine = .ok leftWord machine)
    (rightRead : readSlot offset right machine = .ok rightWord machine) :
    Compares machine offset (.compare reading left right)
      (reading.read leftWord) (reading.read rightWord)
  | immediate {reading : Signedness} {left : Slot} {leftWord right : UInt32}
    (leftRead : readSlot offset left machine = .ok leftWord machine) :
    Compares machine offset (.compareWith reading left right)
      (reading.read leftWord) (reading.read right)

/-- The flag of a machine says of two numbers what the branch at `next` asks of them. -/
def Decides (image : Image) (next : Nat) (left right : Int) (flag : Bool) : Prop :=
  ∃ condition width, image.read UInt8 next = .ok (Opcode.jumpByte condition width) ∧
    flag = condition.holds left right

variable {image : Image} {offset : Nat} {machine after : Machine} {instruction : Instruction}
  {flow : Flow} {condition : Condition} {width : Width} {target : Target}

/-! ## Compares -/

theorem readSlot_of_countInstruction {slot : Slot} {value : UInt32}
    (done : readSlot offset slot machine.countInstruction = .ok value after) :
    readSlot offset slot machine = .ok value machine := by
  obtain ⟨position, _, placed, read⟩ := Action.bind_eq_ok.mp done
  obtain ⟨found, same⟩ := slotPosition_eq_ok placed
  rw [same] at read
  obtain ⟨word, -⟩ := readWord_eq_ok read
  have placed' : slotPosition offset slot machine = .ok position machine :=
    slotPosition_of_some found
  have read' : readWord position machine = .ok value machine := by
    rw [readWord, show machine.stack.readWord position = .ok value from word]
  rw [readSlot, Action.bind_of_ok placed', read']

theorem fuse_decides {next : Nat} {left right : Int}
    (done : fuse image next left right machine = .ok () after) :
    after.fused = true ∧ Decides image next left right after.registers.flag := by
  obtain ⟨byte, _, peeked, armed⟩ := Action.bind_eq_ok.mp done
  rw [Action.ofExcept_apply] at peeked
  cases read : image.read UInt8 next with
  | error fault =>
    rw [read] at peeked
    cases peeked
  | ok found =>
    rw [read] at peeked
    cases peeked
    cases known : Opcode.jump? byte with
    | none =>
      rw [known] at armed
      cases armed
    | some branch =>
      obtain ⟨condition, width⟩ := branch
      rw [known] at armed
      cases armed
      exact ⟨rfl, condition, width, by rw [read, Opcode.jumpByte_of_jump? known], rfl⟩

/-- A compare that succeeds goes on at the branch behind it, with the latch armed for that branch. -/
theorem fuses_of_done (compares : instruction.isCompare = true)
    (done : execute image offset instruction machine = .ok flow after) :
    flow = .next ∧ after.fused = true ∧ ∃ left right, Compares machine offset instruction left right ∧
      Decides image (offset + instruction.length) left right after.registers.flag := by
  obtain ⟨middle, ran, rfl⟩ := execute_eq_ok_iff.mp done
  cases instruction with
  | compare reading left right =>
    simp only [effect, Action.bind_eq_ok] at ran
    obtain ⟨leftWord, _, readLeft, rightWord, _, readRight, _, _, armed, result⟩ := ran
    obtain rfl := readSlot_eq_ok readLeft
    obtain rfl := readSlot_eq_ok readRight
    cases result
    obtain ⟨fused, decides⟩ := fuse_decides armed
    exact ⟨rfl, fused, _, _, .slots (readSlot_of_countInstruction readLeft)
      (readSlot_of_countInstruction readRight), decides⟩
  | compareWith reading left right =>
    simp only [effect, Action.bind_eq_ok] at ran
    obtain ⟨leftWord, _, readLeft, _, _, armed, result⟩ := ran
    obtain rfl := readSlot_eq_ok readLeft
    cases result
    obtain ⟨fused, decides⟩ := fuse_decides armed
    exact ⟨rfl, fused, _, _, .immediate (readSlot_of_countInstruction readLeft), decides⟩
  | _ => cases compares

/-! ## Other instructions -/

theorem apart_fused : Apart Machine.fused := ⟨fun _ _ => rfl, fun _ _ => rfl⟩

theorem call_keeps_fused (offset next : Nat) (target : Target) :
    Action.Keeps Machine.fused (call offset next target) :=
  .bind (resolve_keeps offset next target) fun _ => .bind .get fun _ =>
    .bind (onStack_keeps apart_fused _) fun _ => .bind (.modify fun _ => rfl) fun _ =>
      .bind (.modify fun _ => rfl) fun _ => .pure _

theorem ret_keeps_fused (image : Image) (offset count : Nat) :
    Action.Keeps Machine.fused (ret image offset count) := by
  refine .bind .get fun _ => .bind (onStack_keeps apart_fused _) fun unwound =>
    .bind (.modify fun _ => rfl) fun _ => ?_
  by_cases outermost : unwound.returnAddress = Frame.noCaller
  · rw [if_pos outermost]
    exact .pure _
  · rw [if_neg outermost]
    exact .bind (.modify fun _ => rfl) fun _ => .pure _

theorem effect_keeps_fused (noCompare : instruction.isCompare = false)
    (noJump : instruction.isJump = false) :
    Action.Keeps Machine.fused (effect image offset instruction) := by
  cases instruction with
  | push source =>
    exact .bind (readSlot_keeps _ _) fun _ => .bind (onStack_keeps apart_fused _) fun _ => .pure _
  | pushWord value => exact .bind (onStack_keeps apart_fused _) fun _ => .pure _
  | pushWide value => exact .bind (onStack_keeps apart_fused _) fun _ => .pure _
  | pushZero cell =>
    cases cell with
    | word => exact .bind (onStack_keeps apart_fused _) fun _ => .pure _
    | wide => exact .bind (onStack_keeps apart_fused _) fun _ => .pure _
  | pop cell =>
    exact .bind (checkLocals_keeps _) fun _ => .bind (onStack_keeps apart_fused _) fun _ => .pure _
  | reserve count => exact .bind (onStack_keeps apart_fused _) fun _ => .pure _
  | reserveWord => exact .bind (onStack_keeps apart_fused _) fun _ => .pure _
  | release count =>
    exact .bind (checkLocals_keeps _) fun _ => .bind (onStack_keeps apart_fused _) fun _ => .pure _
  | load destination value => exact .bind (writeSlot_keeps apart_fused _ _ _) fun _ => .pure _
  | loadAcc value => exact .bind (modifyAccumulator_keeps apart_fused _) fun _ => .pure _
  | fetch source =>
    exact .bind (readSlot_keeps _ _) fun _ =>
      .bind (modifyAccumulator_keeps apart_fused _) fun _ => .pure _
  | save destination =>
    exact .bind .get fun _ => .bind (writeSlot_keeps apart_fused _ _ _) fun _ => .pure _
  | move destination source =>
    exact .bind (readSlot_keeps _ _) fun _ =>
      .bind (writeSlot_keeps apart_fused _ _ _) fun _ => .pure _
  | step operation destination =>
    exact .bind (modifySlot_keeps apart_fused _ _ _) fun _ => .pure _
  | update operation destination source =>
    exact .bind (readSlot_keeps _ _) fun _ =>
      .bind (modifySlot_keeps apart_fused _ _ _) fun _ => .pure _
  | updateBy operation destination right =>
    exact .bind (modifySlot_keeps apart_fused _ _ _) fun _ => .pure _
  | accumulate operation source =>
    exact .bind (readSlot_keeps _ _) fun _ =>
      .bind (modifyAccumulator_keeps apart_fused _) fun _ => .pure _
  | accumulateBy operation right =>
    exact .bind (modifyAccumulator_keeps apart_fused _) fun _ => .pure _
  | compare reading left right => cases noCompare
  | compareWith reading left right => cases noCompare
  | jump condition width target => cases noJump
  | call width target => exact call_keeps_fused _ _ _
  | ret => exact ret_keeps_fused _ _ _
  | retShort count => exact ret_keeps_fused _ _ _
  | retLong count => exact ret_keeps_fused _ _ _
  | retWith value =>
    exact .bind (modifyAccumulator_keeps apart_fused _) fun _ => ret_keeps_fused _ _ _
  | retLongWith count value =>
    exact .bind (modifyAccumulator_keeps apart_fused _) fun _ => ret_keeps_fused _ _ _
  | nop => exact .pure _
  | skip count => exact .pure _
  | exit => exact .pure _

theorem fused_of_other (noCompare : instruction.isCompare = false)
    (noJump : instruction.isJump = false)
    (done : execute image offset instruction machine = .ok flow after) :
    after.fused = machine.fused := by
  have keeps : Action.Keeps Machine.fused (execute image offset instruction) :=
    .bind (.modify fun _ => rfl) fun _ =>
      .bind (effect_keeps_fused noCompare noJump) fun _ => .bind (.modify fun _ => rfl) fun _ =>
        .pure _
  have kept := keeps machine
  rw [done] at kept
  exact kept

/-! ## Jumps -/

/-- What a jump that succeeds has come to: it was taken, if it is conditional, as the armed flag
says. -/
theorem jump_of_done
    (done : execute image offset (.jump condition width target) machine = .ok flow after) :
    after.fused = false ∧ ∃ taken,
      (condition ≠ .always → machine.fused = true ∧ taken = machine.registers.flag) ∧
      if taken then ∃ destination,
        target.resolve (offset + (Instruction.jump condition width target).length) =
          .ok destination ∧ flow = .branch destination
      else flow = .next := by
  obtain ⟨middle, ran, rfl⟩ := execute_eq_ok_iff.mp done
  simp only [effect, jump, Action.modify_bind, Action.bind_eq_ok] at ran
  obtain ⟨taken, _, tested, ran⟩ := ran
  obtain ⟨-, rfl⟩ := isTaken_eq_ok tested
  have conditional : condition ≠ .always →
      machine.fused = true ∧ taken = machine.registers.flag := by
    intro conditional
    rw [isTaken, if_neg conditional] at tested
    split at tested
    · rename_i armed
      cases tested
      exact ⟨armed, rfl⟩
    · cases tested
  cases taken with
  | true =>
    obtain ⟨destination, _, resolved, result⟩ := Action.bind_eq_ok.mp ran
    obtain ⟨leads, rfl⟩ := resolve_eq_ok resolved
    cases result
    exact ⟨rfl, true, conditional, destination, leads, rfl⟩
  | false =>
    cases ran
    exact ⟨rfl, false, conditional, rfl⟩

/-- A conditional branch fails while the latch is not armed. -/
theorem execute_of_unarmed (conditional : condition ≠ .always) (unarmed : machine.fused = false) :
    execute image offset (.jump condition width target) machine =
      .error (.illegalOpcode (Opcode.jumpByte condition width) offset) machine.countInstruction := by
  have tested : isTaken offset condition width machine.countInstruction =
      .error (.illegalOpcode (Opcode.jumpByte condition width) offset)
        machine.countInstruction := by
    rw [isTaken, if_neg conditional]
    exact if_neg (by simp [countInstruction, unarmed])
  rw [execute, Action.modify_bind]
  apply Action.bind_of_error
  exact Action.bind_of_error tested

end Machine

end Tandem

import Tandem.Machine.Execute
import Tandem.Proofs.Stack.Unwinding

/-!
# Completed instructions

What an instruction that succeeded did, read backwards from its success (`Machine.effect_completes`):
which flow it came to and why, what it did to the operand stack and where the current frame is now.
Only calls and returns move the frame, and only the instructions with a destination slot write below
the top.
-/

namespace Tandem

/-- The slot that an instruction overwrites. -/
def Instruction.writtenSlot? : Instruction → Option Slot
  | .load destination _ => some destination
  | .save destination => some destination
  | .move destination _ => some destination
  | .step _ destination => some destination
  | .update _ destination _ => some destination
  | .updateBy _ destination _ => some destination
  | _ => none

namespace Machine

variable {image : Image} {offset next : Nat} {machine after : Machine}

/-! ## Parts of instructions -/

theorem onStack_of_ok {α : Type} {action : Stack.Action α} {value : α} {stack : Stack}
    (done : action machine.stack = .ok value stack) :
    onStack action machine = .ok value { machine with stack } := by
  rw [onStack, done]

theorem onStack_eq_ok {α : Type} {action : Stack.Action α} {value : α}
    (done : onStack action machine = .ok value after) :
    ∃ stack, action machine.stack = .ok value stack ∧ after = { machine with stack } := by
  unfold onStack at done
  cases acted : action machine.stack with
  | ok value stack =>
    rw [acted] at done
    cases done
    exact ⟨stack, rfl, rfl⟩
  | error fault stack =>
    rw [acted] at done
    cases done

theorem slotPosition_of_some {slot : Slot} {position : Nat}
    (found : Frame.slotPosition machine.frame machine.stack.top slot = some position) :
    slotPosition offset slot machine = .ok position machine := by
  rw [slotPosition, found]

theorem slotPosition_of_none {slot : Slot}
    (missing : Frame.slotPosition machine.frame machine.stack.top slot = none) :
    slotPosition offset slot machine = .error (.invalidSlot offset slot) machine := by
  rw [slotPosition, missing]

theorem slotPosition_eq_ok {slot : Slot} {position : Nat}
    (done : slotPosition offset slot machine = .ok position after) :
    Frame.slotPosition machine.frame machine.stack.top slot = some position ∧ after = machine := by
  cases found : Frame.slotPosition machine.frame machine.stack.top slot with
  | some place =>
    rw [slotPosition_of_some found] at done
    cases done
    exact ⟨rfl, rfl⟩
  | none =>
    rw [slotPosition_of_none found] at done
    cases done

theorem readWord_eq_ok {position : Nat} {value : UInt32}
    (done : readWord position machine = .ok value after) :
    machine.stack.readWord position = .ok value ∧ after = machine := by
  unfold readWord at done
  cases found : machine.stack.readWord position with
  | ok word =>
    rw [found] at done
    cases done
    exact ⟨rfl, rfl⟩
  | error fault =>
    rw [found] at done
    cases done

theorem readSlot_eq_ok {slot : Slot} {value : UInt32}
    (done : readSlot offset slot machine = .ok value after) : after = machine := by
  obtain ⟨position, _, placed, read⟩ := Action.bind_eq_ok.mp done
  obtain ⟨-, rfl⟩ := slotPosition_eq_ok placed
  exact (readWord_eq_ok read).2

theorem resolve_eq_ok {target : Target} {destination : Nat}
    (done : resolve offset next target machine = .ok destination after) :
    target.resolve next = .ok destination ∧ after = machine := by
  unfold resolve at done
  cases leads : target.resolve next with
  | ok place =>
    rw [leads] at done
    cases done
    exact ⟨rfl, rfl⟩
  | error landing =>
    rw [leads] at done
    cases done

theorem isTaken_eq_ok {condition : Condition} {width : Width} {taken : Bool}
    (done : isTaken offset condition width machine = .ok taken after) :
    (condition = .always → taken = true) ∧ after = machine := by
  unfold isTaken at done
  by_cases always : condition = .always
  · rw [if_pos always] at done
    cases done
    exact ⟨fun _ => rfl, rfl⟩
  · rw [if_neg always] at done
    split at done
    · cases done
      exact ⟨fun equal => absurd equal always, rfl⟩
    · cases done

theorem checkLocals_eq_ok {count : Nat} (done : checkLocals count machine = .ok () after) :
    count ≤ machine.stack.top - machine.frame ∧ after = machine := by
  obtain ⟨enough, rfl⟩ := Action.ensure_eq_ok done
  exact ⟨enough, rfl⟩

theorem modifyAccumulator_eq_ok {change : UInt32 → UInt32}
    (done : modifyAccumulator change machine = .ok () after) :
    after.frame = machine.frame ∧ after.stack = machine.stack := by
  cases done
  exact ⟨rfl, rfl⟩

theorem fuse_eq_ok {left right : Int} (done : fuse image next left right machine = .ok () after) :
    after.frame = machine.frame ∧ after.stack = machine.stack := by
  obtain ⟨byte, middle, peeked, armed⟩ := Action.bind_eq_ok.mp done
  rw [Action.ofExcept_apply] at peeked
  split at peeked
  · cases peeked
    cases known : Opcode.jump? byte with
    | none =>
      rw [known] at armed
      cases armed
    | some branch =>
      rw [known] at armed
      cases armed
      exact ⟨rfl, rfl⟩
  · cases peeked

/-! ## Instructions -/

/-- The stacks that an instruction which neither calls nor returns can make of `stack`, run in the
frame at `frame`. -/
inductive Reworks (instruction : Instruction) (frame : Nat) (stack : Stack) : Stack → Prop
  | kept : Reworks instruction frame stack stack
  | grown (bytes : List UInt8) (room : bytes.length ≤ stack.available) :
    Reworks instruction frame stack (stack.append bytes)
  | dropped (count : Nat) (locals : count ≤ stack.top - frame) :
    Reworks instruction frame stack (stack.drop count)
  | written (slot : Slot) (position : Nat) (value : UInt32)
    (writes : instruction.writtenSlot? = some slot)
    (found : Frame.slotPosition frame stack.top slot = some position)
    (inUse : position + 4 ≤ stack.top) :
    Reworks instruction frame stack (stack.store position (Scalar.encode value))

/-- What a return that succeeded did to the frames. -/
structure Unwound (image : Image) (machine after : Machine) (count : Nat)
    (unwound : Frame.Unwound) : Prop where
  unwinds : Frame.Unwinds machine.stack machine.frame count image.size unwound
  frame : after.frame = unwound.pointer
  stack : after.stack = machine.stack.drop (count + Frame.headerSize)

/-- Everything that an instruction at `offset` can come to if it succeeds, as far as control, the
operand stack and the frame are concerned. -/
inductive Completes (image : Image) (offset : Nat) (instruction : Instruction)
    (machine after : Machine) : Flow → Prop
  | next (through : instruction.fallsThrough = true) (frame : after.frame = machine.frame)
    (stack : Reworks instruction machine.frame machine.stack after.stack) :
    Completes image offset instruction machine after .next
  | branch {target : Target} {destination : Nat} (jumps : instruction.target? = some target)
    (leads : target.resolve (offset + instruction.length) = .ok destination)
    (frame : after.frame = machine.frame) (stack : after.stack = machine.stack) :
    Completes image offset instruction machine after (.branch destination)
  | call {width : Width} {target : Target} {destination : Nat} (calls : instruction = .call width target)
    (leads : target.resolve (offset + instruction.length) = .ok destination)
    (room : Frame.headerSize ≤ machine.stack.available)
    (frame : after.frame = machine.stack.top + Frame.headerSize)
    (stack : after.stack =
      Frame.pushed machine.stack machine.frame (offset + instruction.length).toUInt64) :
    Completes image offset instruction machine after (.call destination)
  | toCaller {count : Nat} {unwound : Frame.Unwound} (returns : Unwound image machine after count unwound)
    (inner : unwound.returnAddress ≠ Frame.noCaller) :
    Completes image offset instruction machine after (.toCaller unwound.returnAddress.toNat)
  | toEngine {count : Nat} {unwound : Frame.Unwound} (returns : Unwound image machine after count unwound)
    (outermost : unwound.returnAddress = Frame.noCaller) :
    Completes image offset instruction machine after .toEngine
  | halt (frame : after.frame = machine.frame) (stack : after.stack = machine.stack) :
    Completes image offset instruction machine after .halt

variable {instruction : Instruction} {flow : Flow}

theorem grow_reworks {bytes : List UInt8}
    (done : onStack (Stack.grow bytes) machine = .ok () after) :
    after.frame = machine.frame ∧ Reworks instruction machine.frame machine.stack after.stack := by
  obtain ⟨stack, grown, rfl⟩ := onStack_eq_ok done
  obtain ⟨room, rfl⟩ := Stack.grow_eq_ok grown
  exact ⟨rfl, .grown bytes room⟩

theorem push_reworks {α : Type} [Scalar α] {value : α}
    (done : onStack (Stack.push value) machine = .ok () after) :
    after.frame = machine.frame ∧ Reworks instruction machine.frame machine.stack after.stack := by
  rw [Stack.push_eq_grow] at done
  exact grow_reworks done

theorem reserve_reworks {count : Nat}
    (done : onStack (Stack.reserve count) machine = .ok () after) :
    after.frame = machine.frame ∧ Reworks instruction machine.frame machine.stack after.stack := by
  rw [Stack.reserve_eq_grow] at done
  exact grow_reworks done

theorem release_reworks {count : Nat} (locals : count ≤ machine.stack.top - machine.frame)
    (done : onStack (Stack.release count) machine = .ok () after) :
    after.frame = machine.frame ∧ Reworks instruction machine.frame machine.stack after.stack := by
  obtain ⟨stack, released, rfl⟩ := onStack_eq_ok done
  obtain ⟨-, rfl⟩ := Stack.release_eq_ok released
  exact ⟨rfl, .dropped count locals⟩

theorem writeWord_reworks {slot : Slot} {position : Nat} {value : UInt32}
    (writes : instruction.writtenSlot? = some slot)
    (found : Frame.slotPosition machine.frame machine.stack.top slot = some position)
    (done : onStack (Stack.writeWord position value) machine = .ok () after) :
    after.frame = machine.frame ∧ Reworks instruction machine.frame machine.stack after.stack := by
  obtain ⟨stack, wrote, rfl⟩ := onStack_eq_ok done
  rcases Nat.lt_or_ge machine.stack.top (position + 4) with outOfUse | inUse
  · rw [Stack.writeWord_of_outOfUse value outOfUse] at wrote
    cases wrote
  · rw [Stack.writeWord_of_inUse value inUse] at wrote
    cases wrote
    exact ⟨rfl, .written slot position value writes found inUse⟩

theorem writeSlot_reworks {slot : Slot} {value : UInt32}
    (writes : instruction.writtenSlot? = some slot)
    (done : writeSlot offset slot value machine = .ok () after) :
    after.frame = machine.frame ∧ Reworks instruction machine.frame machine.stack after.stack := by
  obtain ⟨position, _, placed, wrote⟩ := Action.bind_eq_ok.mp done
  obtain ⟨found, rfl⟩ := slotPosition_eq_ok placed
  exact writeWord_reworks writes found wrote

theorem modifySlot_reworks {slot : Slot} {change : UInt32 → UInt32}
    (writes : instruction.writtenSlot? = some slot)
    (done : modifySlot offset slot change machine = .ok () after) :
    after.frame = machine.frame ∧ Reworks instruction machine.frame machine.stack after.stack := by
  simp only [modifySlot, Action.bind_eq_ok] at done
  obtain ⟨position, _, placed, value, _, read, wrote⟩ := done
  obtain ⟨found, rfl⟩ := slotPosition_eq_ok placed
  obtain ⟨-, rfl⟩ := readWord_eq_ok read
  exact writeWord_reworks writes found wrote

/-- What is left of an instruction after its effect on the stack: it falls through. -/
theorem Completes.of_return {middle : Machine} (through : instruction.fallsThrough = true)
    (reworked : middle.frame = machine.frame ∧ Reworks instruction machine.frame machine.stack middle.stack)
    (done : (pure .next : Action Flow) middle = .ok flow after) :
    Completes image offset instruction machine after flow := by
  cases done
  exact .next through reworked.1 reworked.2

/-- The same after an effect that leaves the stack alone. -/
theorem Completes.of_quiet_return {middle : Machine} (through : instruction.fallsThrough = true)
    (quiet : middle.frame = machine.frame ∧ middle.stack = machine.stack)
    (done : (pure .next : Action Flow) middle = .ok flow after) :
    Completes image offset instruction machine after flow :=
  .of_return through ⟨quiet.1, quiet.2 ▸ .kept⟩ done

theorem call_completes {width : Width} {target : Target} (calls : instruction = .call width target)
    (done : call offset (offset + instruction.length) target machine = .ok flow after) :
    Completes image offset instruction machine after flow := by
  simp only [call, Action.bind_eq_ok, Action.get_bind] at done
  obtain ⟨destination, _, resolved, frame, _, pushed, _, _, moved, _, _, counted, result⟩ := done
  obtain ⟨leads, rfl⟩ := resolve_eq_ok resolved
  obtain ⟨stack, header, rfl⟩ := onStack_eq_ok pushed
  obtain ⟨room, atTop, stored⟩ := Frame.push_eq_ok header
  obtain rfl := Action.modify_eq_ok moved
  obtain rfl := Action.modify_eq_ok counted
  cases result
  exact .call calls leads room atTop stored

theorem ret_completes {count : Nat} {middle : Machine}
    (quiet : middle.frame = machine.frame ∧ middle.stack = machine.stack)
    (done : ret image offset count middle = .ok flow after) :
    Completes image offset instruction machine after flow := by
  simp only [ret, Action.bind_eq_ok, Action.get_bind] at done
  obtain ⟨unwound, _, popped, _, _, moved, result⟩ := done
  obtain ⟨stack, header, rfl⟩ := onStack_eq_ok popped
  obtain ⟨unwinds, rfl⟩ := Frame.pop_eq_ok header
  rw [quiet.1, quiet.2] at unwinds
  cases moved
  by_cases outermost : unwound.returnAddress = Frame.noCaller
  · rw [if_pos outermost] at result
    cases result
    exact .toEngine ⟨unwinds, rfl, by rw [← quiet.2]⟩ outermost
  · rw [if_neg outermost] at result
    obtain ⟨_, _, counted, result⟩ := Action.bind_eq_ok.mp result
    cases counted
    cases result
    exact .toCaller ⟨unwinds, rfl, by rw [← quiet.2]; rfl⟩ outermost

theorem jump_completes {condition : Condition} {width : Width} {target : Target}
    (jumps : instruction = .jump condition width target)
    (done : jump offset (offset + instruction.length) condition width target machine =
      .ok flow after) :
    Completes image offset instruction machine after flow := by
  simp only [jump, Action.bind_eq_ok] at done
  obtain ⟨taken, _, tested, _, _, disarmed, result⟩ := done
  obtain ⟨always, rfl⟩ := isTaken_eq_ok tested
  obtain rfl := Action.modify_eq_ok disarmed
  cases taken with
  | true =>
    obtain ⟨destination, _, resolved, result⟩ := Action.bind_eq_ok.mp result
    obtain ⟨leads, rfl⟩ := resolve_eq_ok resolved
    cases result
    exact .branch (by rw [jumps]; rfl) leads rfl rfl
  | false =>
    have conditional : condition ≠ .always := fun equal => by cases always equal
    have through : instruction.fallsThrough = true := by
      rw [jumps]
      cases condition <;> first | rfl | exact absurd rfl conditional
    rw [if_neg Bool.false_ne_true] at result
    refine .of_quiet_return through ?_ result
    exact ⟨rfl, rfl⟩

/-- Every successful instruction completes in one of the six ways. -/
theorem effect_completes (done : effect image offset instruction machine = .ok flow after) :
    Completes image offset instruction machine after flow := by
  cases instruction with
  | push source =>
    simp only [effect, Action.bind_eq_ok] at done
    obtain ⟨value, _, read, _, _, pushed, result⟩ := done
    obtain rfl := readSlot_eq_ok read
    exact .of_return rfl (push_reworks pushed) result
  | pushWord value =>
    obtain ⟨_, _, pushed, result⟩ := Action.bind_eq_ok.mp done
    exact .of_return rfl (push_reworks pushed) result
  | pushWide value =>
    obtain ⟨_, _, pushed, result⟩ := Action.bind_eq_ok.mp done
    exact .of_return rfl (push_reworks pushed) result
  | pushZero cell =>
    cases cell with
    | word =>
      obtain ⟨_, _, pushed, result⟩ := Action.bind_eq_ok.mp done
      exact .of_return rfl (push_reworks pushed) result
    | wide =>
      obtain ⟨_, _, pushed, result⟩ := Action.bind_eq_ok.mp done
      exact .of_return rfl (push_reworks pushed) result
  | pop cell =>
    simp only [effect, Action.bind_eq_ok] at done
    obtain ⟨_, _, checked, _, _, released, result⟩ := done
    obtain ⟨locals, rfl⟩ := checkLocals_eq_ok checked
    exact .of_return rfl (release_reworks locals released) result
  | reserve count =>
    obtain ⟨_, _, reserved, result⟩ := Action.bind_eq_ok.mp done
    exact .of_return rfl (reserve_reworks reserved) result
  | reserveWord =>
    obtain ⟨_, _, reserved, result⟩ := Action.bind_eq_ok.mp done
    exact .of_return rfl (reserve_reworks reserved) result
  | release count =>
    simp only [effect, Action.bind_eq_ok] at done
    obtain ⟨_, _, checked, _, _, released, result⟩ := done
    obtain ⟨locals, rfl⟩ := checkLocals_eq_ok checked
    exact .of_return rfl (release_reworks locals released) result
  | load destination value =>
    obtain ⟨_, _, wrote, result⟩ := Action.bind_eq_ok.mp done
    exact .of_return rfl (writeSlot_reworks rfl wrote) result
  | loadAcc value =>
    obtain ⟨_, _, changed, result⟩ := Action.bind_eq_ok.mp done
    exact .of_quiet_return rfl (modifyAccumulator_eq_ok changed) result
  | fetch source =>
    simp only [effect, Action.bind_eq_ok] at done
    obtain ⟨value, _, read, _, _, changed, result⟩ := done
    obtain rfl := readSlot_eq_ok read
    exact .of_quiet_return rfl (modifyAccumulator_eq_ok changed) result
  | save destination =>
    simp only [effect, Action.bind_eq_ok, Action.get_bind] at done
    obtain ⟨_, _, wrote, result⟩ := done
    exact .of_return rfl (writeSlot_reworks rfl wrote) result
  | move destination source =>
    simp only [effect, Action.bind_eq_ok] at done
    obtain ⟨value, _, read, _, _, wrote, result⟩ := done
    obtain rfl := readSlot_eq_ok read
    exact .of_return rfl (writeSlot_reworks rfl wrote) result
  | step operation destination =>
    obtain ⟨_, _, wrote, result⟩ := Action.bind_eq_ok.mp done
    exact .of_return rfl (modifySlot_reworks rfl wrote) result
  | update operation destination source =>
    simp only [effect, Action.bind_eq_ok] at done
    obtain ⟨value, _, read, _, _, wrote, result⟩ := done
    obtain rfl := readSlot_eq_ok read
    exact .of_return rfl (modifySlot_reworks rfl wrote) result
  | updateBy operation destination right =>
    obtain ⟨_, _, wrote, result⟩ := Action.bind_eq_ok.mp done
    exact .of_return rfl (modifySlot_reworks rfl wrote) result
  | accumulate operation source =>
    simp only [effect, Action.bind_eq_ok] at done
    obtain ⟨value, _, read, _, _, changed, result⟩ := done
    obtain rfl := readSlot_eq_ok read
    exact .of_quiet_return rfl (modifyAccumulator_eq_ok changed) result
  | accumulateBy operation right =>
    obtain ⟨_, _, changed, result⟩ := Action.bind_eq_ok.mp done
    exact .of_quiet_return rfl (modifyAccumulator_eq_ok changed) result
  | compare reading left right =>
    simp only [effect, Action.bind_eq_ok] at done
    obtain ⟨leftValue, _, readLeft, rightValue, _, readRight, _, _, fused, result⟩ := done
    obtain rfl := readSlot_eq_ok readLeft
    obtain rfl := readSlot_eq_ok readRight
    exact .of_quiet_return rfl (fuse_eq_ok fused) result
  | compareWith reading left right =>
    simp only [effect, Action.bind_eq_ok] at done
    obtain ⟨leftValue, _, readLeft, _, _, fused, result⟩ := done
    obtain rfl := readSlot_eq_ok readLeft
    exact .of_quiet_return rfl (fuse_eq_ok fused) result
  | jump condition width target => exact jump_completes rfl done
  | call width target => exact call_completes rfl done
  | ret => exact ret_completes ⟨rfl, rfl⟩ done
  | retShort count => exact ret_completes ⟨rfl, rfl⟩ done
  | retLong count => exact ret_completes ⟨rfl, rfl⟩ done
  | retWith value =>
    obtain ⟨_, _, changed, returned⟩ := Action.bind_eq_ok.mp done
    exact ret_completes (modifyAccumulator_eq_ok changed) returned
  | retLongWith count value =>
    obtain ⟨_, _, changed, returned⟩ := Action.bind_eq_ok.mp done
    exact ret_completes (modifyAccumulator_eq_ok changed) returned
  | nop => exact .of_quiet_return rfl ⟨rfl, rfl⟩ done
  | skip count => exact .of_quiet_return rfl ⟨rfl, rfl⟩ done
  | exit =>
    cases done
    exact .halt rfl rfl

/-- An instruction that is run succeeds as its effect does, between its accounts. -/
theorem execute_eq_ok_iff : execute image offset instruction machine = .ok flow after ↔
    ∃ middle, effect image offset instruction machine.countInstruction = .ok flow middle ∧
      settle offset instruction middle = after := by
  rw [execute, Action.modify_bind, Action.bind_eq_ok]
  constructor
  · rintro ⟨_, middle, ran, result⟩
    cases result
    exact ⟨middle, ran, rfl⟩
  · rintro ⟨middle, ran, rfl⟩
    exact ⟨_, middle, ran, rfl⟩

/-- An instruction that is run completes as its effect does: the accounts touch neither the stack
nor the frame. -/
theorem execute_completes (done : execute image offset instruction machine = .ok flow after) :
    Completes image offset instruction machine after flow := by
  obtain ⟨middle, ran, rfl⟩ := execute_eq_ok_iff.mp done
  cases effect_completes ran with
  | next through frame stack => exact .next through frame stack
  | branch jumps leads frame stack => exact .branch jumps leads frame stack
  | call calls leads room frame stack => exact .call calls leads room frame stack
  | toCaller returns inner => exact .toCaller ⟨returns.unwinds, returns.frame, returns.stack⟩ inner
  | toEngine returns outermost =>
    exact .toEngine ⟨returns.unwinds, returns.frame, returns.stack⟩ outermost
  | halt frame stack => exact .halt frame stack

end Machine

end Tandem

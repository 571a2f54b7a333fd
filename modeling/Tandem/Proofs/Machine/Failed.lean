import Tandem.Proofs.Machine.Returns

/-!
# Failed instructions

What an instruction that failed did, read backwards from its failure (`Machine.effect_fails`): the
fault, its cause, and the state that is left. Most instructions check before they change anything
and leave the machine as it was. A jump has used up its compare by the time its target is found to
lie nowhere, a call may have pushed the first word of its header, and a return keeps off the stack
what it has taken off it.
-/

namespace Tandem

/-- The bytes by which an instruction that succeeds makes the stack grow. -/
def Instruction.pushed : Instruction → Nat
  | .push _ => 4
  | .pushWord _ => 4
  | .pushWide _ => 8
  | .pushZero cell => cell.size
  | .reserve count => count.toNat
  | .reserveWord => 4
  | .call _ _ => Frame.headerSize
  | _ => 0

namespace Machine

variable {image : Image} {offset : Nat} {instruction : Instruction} {machine after : Machine}
  {fault : Fault}

/-! ## Parts of instructions -/

theorem onStack_eq_error {α : Type} {action : Stack.Action α}
    (failed : onStack action machine = .error fault after) :
    ∃ stack, action machine.stack = .error fault stack ∧ after = { machine with stack } := by
  unfold onStack at failed
  cases acted : action machine.stack with
  | ok value stack =>
    rw [acted] at failed
    cases failed
  | error fault' stack =>
    rw [acted] at failed
    cases failed
    exact ⟨stack, rfl, rfl⟩

theorem slotPosition_eq_error {slot : Slot}
    (failed : slotPosition offset slot machine = .error fault after) :
    Frame.slotPosition machine.frame machine.stack.top slot = none ∧
      fault = .invalidSlot offset slot ∧ after = machine := by
  cases found : Frame.slotPosition machine.frame machine.stack.top slot with
  | some place =>
    rw [slotPosition_of_some found] at failed
    cases failed
  | none =>
    rw [slotPosition_of_none found] at failed
    cases failed
    exact ⟨rfl, rfl, rfl⟩

theorem readWord_eq_error {position : Nat}
    (failed : readWord position machine = .error fault after) :
    machine.stack.top < position + 4 ∧
      fault = .stackUnderflow 4 (machine.stack.top - position) ∧ after = machine := by
  unfold readWord at failed
  rcases Nat.lt_or_ge machine.stack.top (position + 4) with outOfUse | inUse
  · rw [Stack.readWord_of_outOfUse outOfUse] at failed
    cases failed
    exact ⟨outOfUse, rfl, rfl⟩
  · rw [Stack.readWord_of_inUse inUse] at failed
    cases failed

theorem writeWord_eq_error {position : Nat} {value : UInt32}
    (failed : onStack (Stack.writeWord position value) machine = .error fault after) :
    machine.stack.top < position + 4 ∧
      fault = .stackUnderflow 4 (machine.stack.top - position) ∧ after = machine := by
  obtain ⟨stack, refused, rfl⟩ := onStack_eq_error failed
  rcases Nat.lt_or_ge machine.stack.top (position + 4) with outOfUse | inUse
  · rw [Stack.writeWord_of_outOfUse value outOfUse] at refused
    cases refused
    exact ⟨outOfUse, rfl, rfl⟩
  · rw [Stack.writeWord_of_inUse value inUse] at refused
    cases refused

theorem resolve_eq_error {next : Nat} {target : Target}
    (failed : resolve offset next target machine = .error fault after) :
    ∃ landing, target.resolve next = .error landing ∧ fault = .invalidTarget offset landing ∧
      after = machine := by
  unfold resolve at failed
  cases leads : target.resolve next with
  | ok place =>
    rw [leads] at failed
    cases failed
  | error landing =>
    rw [leads] at failed
    cases failed
    exact ⟨landing, rfl, rfl, rfl⟩

theorem isTaken_eq_error {condition : Condition} {width : Width}
    (failed : isTaken offset condition width machine = .error fault after) :
    condition ≠ .always ∧ machine.fused = false ∧
      fault = .illegalOpcode (Opcode.jumpByte condition width) offset ∧ after = machine := by
  unfold isTaken at failed
  by_cases always : condition = .always
  · rw [if_pos always] at failed
    cases failed
  · rw [if_neg always] at failed
    split at failed
    · cases failed
    · rename_i unarmed
      cases failed
      exact ⟨always, Bool.eq_false_iff.mpr unarmed, rfl, rfl⟩

/-- A jump fails if it stands alone and should not, or, its compare used up, over its target. -/
theorem jump_eq_error {next : Nat} {condition : Condition} {width : Width} {target : Target}
    (failed : jump offset next condition width target machine = .error fault after) :
    (condition ≠ .always ∧ machine.fused = false ∧
      fault = .illegalOpcode (Opcode.jumpByte condition width) offset ∧ after = machine) ∨
    ∃ landing, target.resolve next = .error landing ∧ fault = .invalidTarget offset landing ∧
      after = { machine with fused := false } := by
  rcases Action.bind_eq_error.mp failed with untested | ⟨taken, _, tested, rest⟩
  · exact .inl (isTaken_eq_error untested)
  obtain ⟨-, rfl⟩ := isTaken_eq_ok tested
  rw [Action.modify_bind] at rest
  cases taken with
  | true => exact .inr (resolve_eq_error (Action.error_of_bind_pure rest))
  | false => cases rest

/-- A call fails over its target, or over a header that has no room at all or only room for its
first word. -/
theorem call_eq_error {next : Nat} {target : Target}
    (failed : call offset next target machine = .error fault after) :
    (∃ landing, target.resolve next = .error landing ∧ fault = .invalidTarget offset landing ∧
      after = machine) ∨
    (machine.stack.available < 8 ∧ fault = .stackOverflow 8 machine.stack.available ∧
      after = machine) ∨
    (8 ≤ machine.stack.available ∧ machine.stack.available < Frame.headerSize ∧
      fault = .stackOverflow 8 (machine.stack.available - 8) ∧
      after = { machine with
        stack := machine.stack.append (Scalar.encode machine.frame.toUInt64) }) := by
  rcases Action.bind_eq_error.mp failed with unresolved | ⟨destination, _, resolved, rest⟩
  · exact .inl (resolve_eq_error unresolved)
  obtain ⟨-, rfl⟩ := resolve_eq_ok resolved
  rw [Action.get_bind] at rest
  rcases Action.bind_eq_error.mp rest with unpushed | ⟨_, _, -, never⟩
  · obtain ⟨stack, refused, rfl⟩ := onStack_eq_error unpushed
    rcases Frame.push_eq_error refused with ⟨short, rfl, rfl⟩ | ⟨half, short, rfl, rfl⟩
    · exact .inr (.inl ⟨short, rfl, rfl⟩)
    · exact .inr (.inr ⟨half, short, rfl, rfl⟩)
  · cases never

/-! ## Instructions -/

/-- Everything that an instruction at `offset` can come to if it fails: the fault and the machine
that is left, and why. -/
inductive Fails (image : Image) (offset : Nat) (instruction : Instruction) (machine : Machine) :
    Fault → Machine → Prop
  | slot (slot : Slot)
    (outside : Frame.slotPosition machine.frame machine.stack.top slot = none) :
    Fails image offset instruction machine (.invalidSlot offset slot) machine
  /-- A slot that lies in the frame and not wholly below the top. -/
  | word (slot : Slot) (position : Nat)
    (found : Frame.slotPosition machine.frame machine.stack.top slot = some position)
    (outOfUse : machine.stack.top < position + 4) :
    Fails image offset instruction machine
      (.stackUnderflow 4 (machine.stack.top - position)) machine
  | full (short : machine.stack.available < instruction.pushed) :
    Fails image offset instruction machine
      (.stackOverflow instruction.pushed machine.stack.available) machine
  | locals (count : Nat) (past : machine.stack.top - machine.frame < count) :
    Fails image offset instruction machine
      (.stackUnderflow count (machine.stack.top - machine.frame)) machine
  /-- A compare at the end of the image. -/
  | unpaired (fault : Fault)
    (unread : image.read UInt8 (offset + instruction.length) = .error fault) :
    Fails image offset instruction machine fault machine
  /-- A compare in front of something else than a branch. -/
  | mispaired (byte : UInt8) (read : image.read UInt8 (offset + instruction.length) = .ok byte)
    (other : Opcode.jump? byte = none) :
    Fails image offset instruction machine
      (.illegalOpcode byte (offset + instruction.length)) machine
  /-- A branch without a compare. -/
  | unarmed {condition : Condition} {width : Width} {target : Target}
    (jumps : instruction = .jump condition width target) (conditional : condition ≠ .always)
    (unarmed : machine.fused = false) :
    Fails image offset instruction machine
      (.illegalOpcode (Opcode.jumpByte condition width) offset) machine
  | jump {condition : Condition} {width : Width} {target : Target} {landing : Int}
    (jumps : instruction = .jump condition width target)
    (astray : target.resolve (offset + instruction.length) = .error landing) :
    Fails image offset instruction machine (.invalidTarget offset landing)
      { machine with fused := false }
  | call {width : Width} {target : Target} {landing : Int}
    (calls : instruction = .call width target)
    (astray : target.resolve (offset + instruction.length) = .error landing) :
    Fails image offset instruction machine (.invalidTarget offset landing) machine
  /-- A call with no room for the first word of its header. -/
  | header {width : Width} {target : Target} (calls : instruction = .call width target)
    (short : machine.stack.available < 8) :
    Fails image offset instruction machine (.stackOverflow 8 machine.stack.available) machine
  /-- A call with room for the first word of its header only. -/
  | halfHeader {width : Width} {target : Target} (calls : instruction = .call width target)
    (half : 8 ≤ machine.stack.available) (short : machine.stack.available < Frame.headerSize) :
    Fails image offset instruction machine (.stackOverflow 8 (machine.stack.available - 8))
      { machine with stack := machine.stack.append (Scalar.encode machine.frame.toUInt64) }
  | unwinding {count : Nat} {fault : Fault} {stack : Stack}
    (returns : instruction.released? = some count)
    (breaks : Frame.Breaks machine.stack machine.frame count image.size offset fault stack) :
    Fails image offset instruction machine fault { machine.readied instruction with stack }

theorem readSlot_fails {slot : Slot} (failed : readSlot offset slot machine = .error fault after) :
    Fails image offset instruction machine fault after := by
  rcases Action.bind_eq_error.mp failed with unplaced | ⟨position, _, placed, unread⟩
  · obtain ⟨outside, rfl, rfl⟩ := slotPosition_eq_error unplaced
    exact .slot slot outside
  · obtain ⟨found, rfl⟩ := slotPosition_eq_ok placed
    obtain ⟨outOfUse, rfl, rfl⟩ := readWord_eq_error unread
    exact .word slot position found outOfUse

theorem writeSlot_fails {slot : Slot} {value : UInt32}
    (failed : writeSlot offset slot value machine = .error fault after) :
    Fails image offset instruction machine fault after := by
  rcases Action.bind_eq_error.mp failed with unplaced | ⟨position, _, placed, unwritten⟩
  · obtain ⟨outside, rfl, rfl⟩ := slotPosition_eq_error unplaced
    exact .slot slot outside
  · obtain ⟨found, rfl⟩ := slotPosition_eq_ok placed
    obtain ⟨outOfUse, rfl, rfl⟩ := writeWord_eq_error unwritten
    exact .word slot position found outOfUse

theorem modifySlot_fails {slot : Slot} {change : UInt32 → UInt32}
    (failed : modifySlot offset slot change machine = .error fault after) :
    Fails image offset instruction machine fault after := by
  rcases Action.bind_eq_error.mp failed with unplaced | ⟨position, _, placed, rest⟩
  · obtain ⟨outside, rfl, rfl⟩ := slotPosition_eq_error unplaced
    exact .slot slot outside
  obtain ⟨found, rfl⟩ := slotPosition_eq_ok placed
  rcases Action.bind_eq_error.mp rest with unread | ⟨value, _, read, unwritten⟩
  · obtain ⟨outOfUse, rfl, rfl⟩ := readWord_eq_error unread
    exact .word slot position found outOfUse
  · obtain ⟨-, rfl⟩ := readWord_eq_ok read
    obtain ⟨outOfUse, rfl, rfl⟩ := writeWord_eq_error unwritten
    exact .word slot position found outOfUse

theorem grow_fails {bytes : List UInt8} (length : bytes.length = instruction.pushed)
    (failed : onStack (Stack.grow bytes) machine = .error fault after) :
    Fails image offset instruction machine fault after := by
  obtain ⟨stack, refused, rfl⟩ := onStack_eq_error failed
  obtain ⟨short, rfl, rfl⟩ := Stack.grow_eq_error refused
  rw [length] at short ⊢
  exact .full short

theorem push_fails {α : Type} [Scalar α] {value : α} (width : Scalar.width α = instruction.pushed)
    (failed : onStack (Stack.push value) machine = .error fault after) :
    Fails image offset instruction machine fault after := by
  rw [Stack.push_eq_grow] at failed
  exact grow_fails (by rw [Scalar.length_encode, width]) failed

theorem reserve_fails {count : Nat} (pushes : count = instruction.pushed)
    (failed : onStack (Stack.reserve count) machine = .error fault after) :
    Fails image offset instruction machine fault after := by
  rw [Stack.reserve_eq_grow] at failed
  exact grow_fails (by rw [List.length_replicate, pushes]) failed

theorem release_fails {count : Nat}
    (failed : (do checkLocals count; onStack (Stack.release count) : Action Unit) machine =
      .error fault after) :
    Fails image offset instruction machine fault after := by
  rcases Action.bind_eq_error.mp failed with unchecked | ⟨_, _, checked, refused⟩
  · obtain ⟨past, rfl, rfl⟩ := Action.ensure_eq_error unchecked
    exact .locals count (Nat.not_le.mp past)
  · -- There are as many bytes on the stack as there are locals, at least.
    obtain ⟨enough, rfl⟩ := checkLocals_eq_ok checked
    obtain ⟨stack, refused, -⟩ := onStack_eq_error refused
    have := Stack.release_eq_error refused
    omega

theorem fuse_fails {left right : Int}
    (failed : fuse image (offset + instruction.length) left right machine = .error fault after) :
    Fails image offset instruction machine fault after := by
  rcases Action.bind_eq_error.mp failed with unread | ⟨byte, _, read, unpaired⟩
  · rw [Action.ofExcept_apply] at unread
    split at unread
    · cases unread
    · cases unread
      exact .unpaired _ ‹_›
  · rw [Action.ofExcept_apply] at read
    split at read
    · cases read
      cases known : Opcode.jump? byte with
      | none =>
        rw [known] at unpaired
        cases unpaired
        exact .mispaired byte ‹_› known
      | some branch =>
        rw [known] at unpaired
        cases unpaired
    · cases read

theorem jump_fails {condition : Condition} {width : Width} {target : Target}
    (jumps : instruction = .jump condition width target)
    (failed : Machine.jump offset (offset + instruction.length) condition width target machine =
      .error fault after) :
    Fails image offset instruction machine fault after := by
  rcases jump_eq_error failed with
    ⟨conditional, unarmed, rfl, rfl⟩ | ⟨landing, astray, rfl, rfl⟩
  · exact .unarmed jumps conditional unarmed
  · exact .jump jumps astray

theorem call_fails {width : Width} {target : Target} (calls : instruction = .call width target)
    (failed : Machine.call offset (offset + instruction.length) target machine =
      .error fault after) :
    Fails image offset instruction machine fault after := by
  rcases call_eq_error failed with
    ⟨landing, astray, rfl, rfl⟩ | ⟨short, rfl, rfl⟩ | ⟨half, short, rfl, rfl⟩
  · exact .call calls astray
  · exact .header calls short
  · exact .halfHeader calls half short

theorem ret_fails {count : Nat} (returns : instruction.released? = some count)
    (failed : ret image offset count (machine.readied instruction) = .error fault after) :
    Fails image offset instruction machine fault after := by
  obtain ⟨stack, refused, rfl⟩ := pop_of_ret failed
  rw [stack_readied, frame_readied] at refused
  exact .unwinding returns (Frame.pop_breaks refused)

/-- Every failed instruction fails in one of these ways. -/
theorem effect_fails (failed : effect image offset instruction machine = .error fault after) :
    Fails image offset instruction machine fault after := by
  cases instruction with
  | push source =>
    rcases Action.bind_eq_error.mp failed with unread | ⟨value, _, read, rest⟩
    · exact readSlot_fails unread
    · obtain rfl := readSlot_eq_ok read
      exact push_fails rfl (Action.error_of_bind_pure rest)
  | pushWord value => exact push_fails rfl (Action.error_of_bind_pure failed)
  | pushWide value => exact push_fails rfl (Action.error_of_bind_pure failed)
  | pushZero cell =>
    cases cell with
    | word => exact push_fails rfl (Action.error_of_bind_pure failed)
    | wide => exact push_fails rfl (Action.error_of_bind_pure failed)
  | pop cell =>
    rw [effect, ← bind_assoc] at failed
    exact release_fails (Action.error_of_bind_pure failed)
  | reserve count => exact reserve_fails rfl (Action.error_of_bind_pure failed)
  | reserveWord => exact reserve_fails rfl (Action.error_of_bind_pure failed)
  | release count =>
    rw [effect, ← bind_assoc] at failed
    exact release_fails (Action.error_of_bind_pure failed)
  | load destination value => exact writeSlot_fails (Action.error_of_bind_pure failed)
  | loadAcc value => cases failed
  | fetch source =>
    rcases Action.bind_eq_error.mp failed with unread | ⟨value, _, -, never⟩
    · exact readSlot_fails unread
    · cases never
  | save destination =>
    rw [effect, Action.get_bind] at failed
    exact writeSlot_fails (Action.error_of_bind_pure failed)
  | move destination source =>
    rcases Action.bind_eq_error.mp failed with unread | ⟨value, _, read, rest⟩
    · exact readSlot_fails unread
    · obtain rfl := readSlot_eq_ok read
      exact writeSlot_fails (Action.error_of_bind_pure rest)
  | step operation destination => exact modifySlot_fails (Action.error_of_bind_pure failed)
  | update operation destination source =>
    rcases Action.bind_eq_error.mp failed with unread | ⟨value, _, read, rest⟩
    · exact readSlot_fails unread
    · obtain rfl := readSlot_eq_ok read
      exact modifySlot_fails (Action.error_of_bind_pure rest)
  | updateBy operation destination right =>
    exact modifySlot_fails (Action.error_of_bind_pure failed)
  | accumulate operation source =>
    rcases Action.bind_eq_error.mp failed with unread | ⟨value, _, -, never⟩
    · exact readSlot_fails unread
    · cases never
  | accumulateBy operation right => cases failed
  | compare reading left right =>
    rcases Action.bind_eq_error.mp failed with unread | ⟨leftValue, _, read, rest⟩
    · exact readSlot_fails unread
    obtain rfl := readSlot_eq_ok read
    rcases Action.bind_eq_error.mp rest with unread | ⟨rightValue, _, read', last⟩
    · exact readSlot_fails unread
    · obtain rfl := readSlot_eq_ok read'
      exact fuse_fails (Action.error_of_bind_pure last)
  | compareWith reading left right =>
    rcases Action.bind_eq_error.mp failed with unread | ⟨leftValue, _, read, rest⟩
    · exact readSlot_fails unread
    · obtain rfl := readSlot_eq_ok read
      exact fuse_fails (Action.error_of_bind_pure rest)
  | jump condition width target => exact jump_fails rfl failed
  | call width target => exact call_fails rfl failed
  | ret => exact ret_fails rfl failed
  | retShort count => exact ret_fails rfl failed
  | retLong count => exact ret_fails rfl failed
  | retWith value => exact ret_fails rfl failed
  | retLongWith count value => exact ret_fails rfl failed
  | nop => cases failed
  | skip count => cases failed
  | exit => cases failed

/-- An instruction that is run and fails has counted, and fails as its effect does. -/
theorem execute_fails (failed : execute image offset instruction machine = .error fault after) :
    Fails image offset instruction machine.countInstruction fault after :=
  effect_fails (effect_of_failed failed)

end Machine

end Tandem

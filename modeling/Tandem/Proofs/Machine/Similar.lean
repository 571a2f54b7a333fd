import Tandem.Machine.Execute
import Tandem.Proofs.Stack.Simulation

/-!
# Instructions on similar machines

Two machines whose operand stacks are related by a simulation, and whose registers, frame, latch and
counters are the same, stay so under every instruction, whether it succeeds or fails, and come to
the same flow or fault (`Machine.execute_respects`). The cursor, the continuation stack and the
trace are the surroundings of an instruction: its effect never reads nor changes them, so they may
be related in any way at all.
-/

namespace Tandem.Machine

variable {waived : Fault → Prop} {R : Stack → Stack → Prop} {α : Type}

/-- The parts of a machine that the effect of an instruction leaves alone. -/
structure Surroundings where
  cursor : Nat
  continuations : Stack
  trace : Option (List Record)

@[inherit_doc Surroundings] def surroundings (machine : Machine) : Surroundings :=
  ⟨machine.cursor, machine.continuations, machine.trace⟩

/-- Surroundings with one more record in the trace, if there is one. -/
def Surroundings.recorded (surroundings : Surroundings) (record : Record) : Surroundings :=
  { surroundings with trace := surroundings.trace.map (record :: ·) }

@[simp] theorem surroundings_settle (offset : Nat) (instruction : Instruction)
    (machine : Machine) :
    (settle offset instruction machine).surroundings =
      machine.surroundings.recorded (machine.record offset instruction) := rfl

/-- Two machines that an instruction cannot tell apart. -/
structure Similar (R : Stack → Stack → Prop) (C : Surroundings → Surroundings → Prop)
    (left right : Machine) : Prop where
  stack : R left.stack right.stack
  registers : left.registers = right.registers
  frame : left.frame = right.frame
  fused : left.fused = right.fused
  stats : left.stats = right.stats
  surroundings : C left.surroundings right.surroundings

variable {C : Surroundings → Surroundings → Prop}

/-! ## The parts of instructions -/

theorem onStack_respects {action : Stack.Action α} (kept : Action.Respects waived R action action) :
    Action.Respects waived (Similar R C) (onStack action) (onStack action) := by
  intro left right similar
  have done := kept left.stack right.stack similar.stack
  simp only [onStack]
  revert done
  generalize action left.stack = result
  generalize action right.stack = result'
  intro done
  cases done with
  | ok states =>
    exact .ok ⟨states, similar.registers, similar.frame, similar.fused, similar.stats,
      similar.surroundings⟩
  | error states =>
    exact .error ⟨states, similar.registers, similar.frame, similar.fused, similar.stats,
      similar.surroundings⟩
  | waived excuse => exact .waived excuse

theorem slotPosition_respects (simulation : Stack.Simulation waived R) (offset : Nat)
    (slot : Slot) :
    Action.Respects waived (Similar R C) (slotPosition offset slot) (slotPosition offset slot) := by
  intro left right similar
  simp only [slotPosition, similar.frame, simulation.top similar.stack]
  cases Frame.slotPosition right.frame right.stack.top slot with
  | some position => exact .ok similar
  | none => exact .error similar

theorem readWord_respects (simulation : Stack.Simulation waived R) (position : Nat) :
    Action.Respects waived (Similar R C) (readWord position) (readWord position) := by
  intro left right similar
  simp only [readWord, simulation.readWord similar.stack]
  cases right.stack.readWord position with
  | ok value => exact .ok similar
  | error fault => exact .error similar

theorem readSlot_respects (simulation : Stack.Simulation waived R) (offset : Nat) (slot : Slot) :
    Action.Respects waived (Similar R C) (readSlot offset slot) (readSlot offset slot) :=
  .bind (slotPosition_respects simulation offset slot) fun position =>
    readWord_respects simulation position

theorem writeSlot_respects (simulation : Stack.Simulation waived R) (offset : Nat) (slot : Slot)
    (value : UInt32) :
    Action.Respects waived (Similar R C) (writeSlot offset slot value)
      (writeSlot offset slot value) :=
  .bind (slotPosition_respects simulation offset slot) fun position =>
    onStack_respects (simulation.writeWord position value)

theorem modifySlot_respects (simulation : Stack.Simulation waived R) (offset : Nat) (slot : Slot)
    (change : UInt32 → UInt32) :
    Action.Respects waived (Similar R C) (modifySlot offset slot change)
      (modifySlot offset slot change) :=
  .bind (slotPosition_respects simulation offset slot) fun position =>
    .bind (readWord_respects simulation position) fun value =>
      onStack_respects (simulation.writeWord position (change value))

theorem checkLocals_respects (simulation : Stack.Simulation waived R) (count : Nat) :
    Action.Respects waived (Similar R C) (checkLocals count) (checkLocals count) := by
  refine .get fun left right similar => ?_
  rw [simulation.top similar.stack, similar.frame]
  exact Action.Respects.ensure Iff.rfl _ left right similar

theorem modifyAccumulator_respects (change : UInt32 → UInt32) :
    Action.Respects waived (Similar R C) (modifyAccumulator change) (modifyAccumulator change) :=
  .modify fun _ _ similar =>
    { similar with registers := by simp only [similar.registers] }

theorem fuse_respects (image : Image) (next : Nat) (first second : Int) :
    Action.Respects waived (Similar R C) (fuse image next first second)
      (fuse image next first second) := by
  refine .bind (.ofExcept _) fun byte => ?_
  cases Opcode.jump? byte with
  | none => exact .throw _
  | some branch =>
    exact .modify fun left right similar =>
      { similar with registers := by simp only [similar.registers], fused := rfl }

theorem resolve_respects (offset next : Nat) (target : Target) :
    Action.Respects waived (Similar R C) (resolve offset next target)
      (resolve offset next target) := by
  simp only [resolve]
  cases target.resolve next with
  | ok destination => exact .pure destination
  | error landing => exact .throw _

theorem isTaken_respects (offset : Nat) (condition : Condition) (width : Width) :
    Action.Respects waived (Similar R C) (isTaken offset condition width)
      (isTaken offset condition width) := by
  intro left right similar
  simp only [isTaken, similar.fused, similar.registers]
  by_cases always : condition = .always
  · rw [if_pos always, if_pos always]
    exact .ok similar
  · rw [if_neg always, if_neg always]
    cases right.fused with
    | true => exact .ok similar
    | false => exact .error similar

theorem jump_respects (offset next : Nat) (condition : Condition) (width : Width)
    (target : Target) :
    Action.Respects waived (Similar R C) (jump offset next condition width target)
      (jump offset next condition width target) := by
  refine .bind (isTaken_respects offset condition width) fun taken => .bind ?_ fun _ => ?_
  · exact .modify fun _ _ similar => { similar with fused := rfl }
  · cases taken with
    | true => exact .bind (resolve_respects offset next target) fun _ => .pure _
    | false => exact .pure _

theorem call_respects (simulation : Stack.Simulation waived R) (offset next : Nat)
    (target : Target) :
    Action.Respects waived (Similar R C) (call offset next target) (call offset next target) := by
  refine .bind (resolve_respects offset next target) fun destination =>
    .get fun left right similar => ?_
  rw [similar.frame]
  refine Action.Respects.bind (onStack_respects (simulation.framePush _ _)) (fun frame => ?_)
    left right similar
  refine .bind (.modify fun _ _ similar => { similar with frame := rfl }) fun _ => .bind ?_ fun _ =>
    .pure _
  exact .modify fun left right similar =>
    { similar with stats := by simp only [countCall, similar.stats] }

theorem ret_respects (simulation : Stack.Simulation waived R) (image : Image)
    (offset count : Nat) :
    Action.Respects waived (Similar R C) (ret image offset count) (ret image offset count) := by
  refine .get fun left right similar => ?_
  rw [similar.frame]
  refine Action.Respects.bind (onStack_respects (simulation.framePop _ _ _ _)) (fun unwound => ?_)
    left right similar
  refine .bind (.modify fun _ _ similar => { similar with frame := rfl }) fun _ => ?_
  by_cases outermost : unwound.returnAddress = Frame.noCaller
  · rw [if_pos outermost]
    exact .pure _
  · rw [if_neg outermost]
    refine .bind (.modify fun left right similar => ?_) fun _ => .pure _
    exact { similar with stats := by simp only [countReturn, similar.stats] }

/-! ## Instructions -/

/-- The effect of an instruction is the same on similar machines. -/
theorem effect_respects (simulation : Stack.Simulation waived R) (image : Image) (offset : Nat)
    (instruction : Instruction) :
    Action.Respects waived (Similar R C) (effect image offset instruction)
      (effect image offset instruction) := by
  cases instruction with
  | push source =>
    exact .bind (readSlot_respects simulation offset source) fun value =>
      .bind (onStack_respects (simulation.push value)) fun _ => .pure _
  | pushWord value => exact .bind (onStack_respects (simulation.push value)) fun _ => .pure _
  | pushWide value => exact .bind (onStack_respects (simulation.push value)) fun _ => .pure _
  | pushZero cell =>
    cases cell with
    | word => exact .bind (onStack_respects (simulation.push 0)) fun _ => .pure _
    | wide => exact .bind (onStack_respects (simulation.push 0)) fun _ => .pure _
  | pop cell =>
    exact .bind (checkLocals_respects simulation cell.size) fun _ =>
      .bind (onStack_respects (simulation.release cell.size)) fun _ => .pure _
  | reserve count =>
    exact .bind (onStack_respects (simulation.reserve count.toNat)) fun _ => .pure _
  | reserveWord => exact .bind (onStack_respects (simulation.reserve 4)) fun _ => .pure _
  | release count =>
    exact .bind (checkLocals_respects simulation count.toNat) fun _ =>
      .bind (onStack_respects (simulation.release count.toNat)) fun _ => .pure _
  | load destination value =>
    exact .bind (writeSlot_respects simulation offset destination value) fun _ => .pure _
  | loadAcc value => exact .bind (modifyAccumulator_respects _) fun _ => .pure _
  | fetch source =>
    exact .bind (readSlot_respects simulation offset source) fun value =>
      .bind (modifyAccumulator_respects _) fun _ => .pure _
  | save destination =>
    refine .get fun left right similar => ?_
    rw [similar.registers]
    exact Action.Respects.bind (writeSlot_respects simulation offset destination _)
      (fun _ => .pure _) left right similar
  | move destination source =>
    exact .bind (readSlot_respects simulation offset source) fun value =>
      .bind (writeSlot_respects simulation offset destination value) fun _ => .pure _
  | step operation destination =>
    exact .bind (modifySlot_respects simulation offset destination _) fun _ => .pure _
  | update operation destination source =>
    exact .bind (readSlot_respects simulation offset source) fun right =>
      .bind (modifySlot_respects simulation offset destination _) fun _ => .pure _
  | updateBy operation destination right =>
    exact .bind (modifySlot_respects simulation offset destination _) fun _ => .pure _
  | accumulate operation source =>
    exact .bind (readSlot_respects simulation offset source) fun right =>
      .bind (modifyAccumulator_respects _) fun _ => .pure _
  | accumulateBy operation right => exact .bind (modifyAccumulator_respects _) fun _ => .pure _
  | compare reading first second =>
    exact .bind (readSlot_respects simulation offset first) fun firstValue =>
      .bind (readSlot_respects simulation offset second) fun secondValue =>
        .bind (fuse_respects image _ _ _) fun _ => .pure _
  | compareWith reading first second =>
    exact .bind (readSlot_respects simulation offset first) fun firstValue =>
      .bind (fuse_respects image _ _ _) fun _ => .pure _
  | jump condition width target => exact jump_respects offset _ condition width target
  | call width target => exact call_respects simulation offset _ target
  | ret => exact ret_respects simulation image offset 0
  | retShort count => exact ret_respects simulation image offset count.toNat
  | retLong count => exact ret_respects simulation image offset count.toNat
  | retWith value =>
    exact .bind (modifyAccumulator_respects _) fun _ => ret_respects simulation image offset 0
  | retLongWith count value =>
    exact .bind (modifyAccumulator_respects _) fun _ =>
      ret_respects simulation image offset count.toNat
  | nop => exact .pure _
  | skip count => exact .pure _
  | exit => exact .pure _

/-- An instruction comes to the same on similar machines, with the same record. -/
theorem execute_respects (simulation : Stack.Simulation waived R)
    (recorded : ∀ left right record, C left right → C (left.recorded record) (right.recorded record))
    (image : Image) (offset : Nat) (instruction : Instruction) :
    Action.Respects waived (Similar R C) (execute image offset instruction)
      (execute image offset instruction) := by
  refine .bind (.modify fun left right similar => ?_) fun _ =>
    .bind (effect_respects simulation image offset instruction) fun flow =>
      .bind (.modify fun left right similar => ?_) fun _ => .pure flow
  · exact { similar with stats := by simp only [countInstruction, similar.stats] }
  · have sameRecord : left.record offset instruction = right.record offset instruction := by
      simp only [record, similar.registers]
    exact
      { similar with
        stats := by simp only [settle, similar.stats, simulation.top similar.stack]
        surroundings := by
          rw [surroundings_settle, surroundings_settle, sameRecord]
          exact recorded _ _ _ similar.surroundings }

/-! ## What an instruction leaves alone -/

/-- The effect of an instruction leaves the surroundings alone, also where it fails. -/
theorem surroundings_effect (image : Image) (offset : Nat) (instruction : Instruction)
    (machine : Machine) :
    match effect image offset instruction machine with
    | .ok _ after => after.surroundings = machine.surroundings
    | .error _ after => after.surroundings = machine.surroundings := by
  have respects : Action.Respects Fault.NoneWaived
      (Similar Eq fun left _ => left = machine.surroundings) (effect image offset instruction)
      (effect image offset instruction) := effect_respects .eq image offset instruction
  have kept := respects machine machine ⟨rfl, rfl, rfl, rfl, rfl, rfl⟩
  revert kept
  generalize effect image offset instruction machine = result
  intro kept
  cases kept with
  | ok states => exact states.surroundings
  | error states => exact states.surroundings
  | waived excuse => exact excuse.elim

/-- A completed instruction adds its record to the trace, and a failed one adds nothing. Neither
moves the cursor or touches the continuation stack. -/
theorem surroundings_execute (image : Image) (offset : Nat) (instruction : Instruction)
    (machine : Machine) :
    match execute image offset instruction machine with
    | .ok _ after =>
      after.surroundings = machine.surroundings.recorded (after.record offset instruction)
    | .error _ after => after.surroundings = machine.surroundings := by
  have kept := surroundings_effect image offset instruction machine.countInstruction
  simp only [execute, Action.bind_apply, Action.modify_apply, Action.pure_apply]
  revert kept
  cases effect image offset instruction machine.countInstruction with
  | ok flow after =>
    intro kept
    exact congrArg (Surroundings.recorded · (after.record offset instruction)) kept
  | error fault after => exact id

end Tandem.Machine

import Tandem.Machine.Execute
import Tandem.Proofs.Respects

/-!
# The accounts of instructions

What an instruction does to the counters follows from the flow that it comes to
(`Machine.stats_execute`): a call counts one call, a return into the image one return, and nothing
else counts either. An instruction that fails has counted as an instruction only. Stacks, registers
and the image have no part in this, so the counters of a run tell how many calls are outstanding
(`Flow.balance`), whatever the image writes over its frames.
-/

namespace Tandem

/-- The counters after control went along `flow`. -/
def Flow.counted (flow : Flow) (stats : Stats) : Stats :=
  match flow with
  | .call _ => { stats with calls := stats.calls + 1 }
  | .toCaller _ => { stats with returns := stats.returns + 1 }
  | _ => stats

/-- The outstanding calls after control went along `flow`, the newest first, where `call` stands for
the call that was just made. -/
def Flow.outstanding {α : Type} (flow : Flow) (call : α) (calls : List α) : List α :=
  match flow with
  | .call _ => call :: calls
  | .toCaller _ => calls.tail
  | _ => calls

/-- The counters tell the number of outstanding calls as long as no return goes beyond them. -/
theorem Flow.balance {α : Type} {flow : Flow} {call : α} {calls : List α} {stats : Stats}
    (before : stats.calls = stats.returns + calls.length)
    (within : ∀ address, flow = .toCaller address → calls ≠ []) :
    (flow.counted stats).calls =
      (flow.counted stats).returns + (flow.outstanding call calls).length := by
  cases flow with
  | call target =>
    simp only [counted, outstanding, List.length_cons]
    omega
  | toCaller address =>
    have := List.length_pos_iff.mpr (within address rfl)
    simp only [counted, outstanding, List.length_tail]
    omega
  | next => exact before
  | branch target => exact before
  | toEngine => exact before
  | halt => exact before

/-! ## Actions that leave a part of the state alone -/

variable {σ α β γ : Type} {view : σ → γ}

/-- What `view` shows of the state is the same after the action, also where it fails. -/
def Action.Keeps (view : σ → γ) (action : Action σ α) : Prop :=
  ∀ state,
    match action state with
    | .ok _ after => view after = view state
    | .error _ after => view after = view state

namespace Action.Keeps

theorem pure (value : α) : Keeps view (pure value : Action σ α) := fun _ => rfl

theorem throw (fault : Fault) : Keeps view (throw fault : Action σ α) := fun _ => rfl

theorem get : Keeps view (get : Action σ σ) := fun _ => rfl

theorem modify {change : σ → σ} (same : ∀ state, view (change state) = view state) :
    Keeps view (modify change : Action σ Unit) := same

theorem ensure (condition : Prop) [Decidable condition] (fault : Fault) :
    Keeps view (ensure condition fault : Action σ Unit) := by
  intro state
  unfold Action.ensure
  by_cases holds : condition
  · rw [if_pos holds]
  · rw [if_neg holds]

theorem bind {first : Action σ α} {rest : α → Action σ β} (firstPart : Keeps view first)
    (secondPart : ∀ value, Keeps view (rest value)) : Keeps view (first >>= rest) := by
  intro state
  have begun := firstPart state
  rw [bind_apply]
  cases ran : first state with
  | error fault next =>
    rw [ran] at begun
    exact begun
  | ok value next =>
    rw [ran] at begun
    have ended := secondPart value next
    dsimp only at begun ⊢
    rw [begun] at ended
    exact ended

end Action.Keeps

namespace Machine

/-! ## Parts of instructions -/

/-- What `view` shows of a machine is apart from the operand stack and the accumulator. -/
structure Apart (view : Machine → γ) : Prop where
  stack : ∀ (machine : Machine) (stack : Stack), view { machine with stack } = view machine
  accumulator : ∀ (machine : Machine) (accumulator : UInt32),
    view { machine with registers := { machine.registers with accumulator } } = view machine

theorem apart_stats : Apart Machine.stats := ⟨fun _ _ => rfl, fun _ _ => rfl⟩

variable {view : Machine → γ}

theorem onStack_keeps (apart : Apart view) (action : Stack.Action α) :
    Action.Keeps view (onStack action) := by
  intro machine
  unfold onStack
  cases action machine.stack <;> exact apart.stack _ _

theorem slotPosition_keeps (offset : Nat) (slot : Slot) :
    Action.Keeps view (slotPosition offset slot) := by
  intro machine
  unfold slotPosition
  cases Frame.slotPosition machine.frame machine.stack.top slot <;> rfl

theorem readWord_keeps (position : Nat) : Action.Keeps view (readWord position) := by
  intro machine
  unfold readWord
  cases machine.stack.readWord position <;> rfl

theorem readSlot_keeps (offset : Nat) (slot : Slot) : Action.Keeps view (readSlot offset slot) :=
  .bind (slotPosition_keeps offset slot) readWord_keeps

theorem writeSlot_keeps (apart : Apart view) (offset : Nat) (slot : Slot) (value : UInt32) :
    Action.Keeps view (writeSlot offset slot value) :=
  .bind (slotPosition_keeps offset slot) fun _ => onStack_keeps apart _

theorem modifySlot_keeps (apart : Apart view) (offset : Nat) (slot : Slot)
    (change : UInt32 → UInt32) : Action.Keeps view (modifySlot offset slot change) :=
  .bind (slotPosition_keeps offset slot) fun position =>
    .bind (readWord_keeps position) fun _ => onStack_keeps apart _

theorem checkLocals_keeps (count : Nat) : Action.Keeps view (checkLocals count) :=
  .bind .get fun _ => .ensure _ _

theorem modifyAccumulator_keeps (apart : Apart view) (change : UInt32 → UInt32) :
    Action.Keeps view (modifyAccumulator change) :=
  .modify fun machine => apart.accumulator machine (change machine.registers.accumulator)

theorem fuse_keeps (same : ∀ (machine : Machine) (flag : Bool),
      view { machine with registers := { machine.registers with flag }, fused := true } =
        view machine) (image : Image) (next : Nat) (left right : Int) :
    Action.Keeps view (fuse image next left right) := by
  refine .bind ?_ fun byte => ?_
  · intro machine
    rw [Action.ofExcept_apply]
    cases image.read UInt8 next <;> rfl
  · cases Opcode.jump? byte with
    | none => exact .throw _
    | some branch => exact .modify fun machine => same machine _

theorem resolve_keeps (offset next : Nat) (target : Target) :
    Action.Keeps view (resolve offset next target) := by
  unfold resolve
  cases target.resolve next with
  | ok destination => exact .pure destination
  | error landing => exact .throw _

theorem isTaken_keeps (offset : Nat) (condition : Condition) (width : Width) :
    Action.Keeps view (isTaken offset condition width) := by
  intro machine
  unfold isTaken
  by_cases always : condition = .always
  · rw [if_pos always]
  · rw [if_neg always]
    cases machine.fused <;> rfl

/-- The counters are the same after the action. -/
abbrev KeepsStats (action : Action α) : Prop := Action.Keeps Machine.stats action

theorem onStack_keepsStats (action : Stack.Action α) : KeepsStats (onStack action) :=
  onStack_keeps apart_stats action

/-! ## Instructions -/

/-- The action accounts for the flow that it comes to, and for nothing if it fails. -/
def Accounted (action : Action Flow) : Prop :=
  ∀ machine,
    match action machine with
    | .ok flow after => after.stats = flow.counted machine.stats
    | .error _ after => after.stats = machine.stats

theorem Accounted.bind {first : Action α} {rest : α → Action Flow} (quiet : KeepsStats first)
    (accounted : ∀ value, Accounted (rest value)) : Accounted (first >>= rest) := by
  intro machine
  have begun := quiet machine
  rw [Action.bind_apply]
  cases ran : first machine with
  | error fault next =>
    rw [ran] at begun
    exact begun
  | ok value next =>
    rw [ran] at begun
    have ended := accounted value next
    dsimp only at begun ⊢
    rw [begun] at ended
    exact ended

/-- Falling through counts nothing. -/
theorem Accounted.next : Accounted (pure .next) := fun _ => rfl

theorem jump_accounted (offset next : Nat) (condition : Condition) (width : Width)
    (target : Target) : Accounted (jump offset next condition width target) := by
  refine .bind (isTaken_keeps offset condition width) fun taken =>
    .bind (.modify fun _ => rfl) fun _ => ?_
  cases taken with
  | true => exact .bind (resolve_keeps offset next target) fun destination _ => rfl
  | false => exact .next

theorem call_accounted (offset next : Nat) (target : Target) :
    Accounted (call offset next target) :=
  .bind (resolve_keeps offset next target) fun _ => .bind .get fun _ =>
    .bind (onStack_keepsStats _) fun _ => .bind (.modify fun _ => rfl) fun _ _ => rfl

theorem ret_accounted (image : Image) (offset count : Nat) : Accounted (ret image offset count) := by
  refine .bind .get fun _ => .bind (onStack_keepsStats _) fun unwound =>
    .bind (.modify fun _ => rfl) fun _ => ?_
  by_cases outermost : unwound.returnAddress = Frame.noCaller
  · rw [if_pos outermost]
    exact fun _ => rfl
  · rw [if_neg outermost]
    exact fun _ => rfl

theorem effect_accounted (image : Image) (offset : Nat) (instruction : Instruction) :
    Accounted (effect image offset instruction) := by
  cases instruction with
  | push source =>
    exact .bind (readSlot_keeps _ _) fun _ => .bind (onStack_keepsStats _) fun _ => .next
  | pushWord value => exact .bind (onStack_keepsStats _) fun _ => .next
  | pushWide value => exact .bind (onStack_keepsStats _) fun _ => .next
  | pushZero cell =>
    cases cell with
    | word => exact .bind (onStack_keepsStats _) fun _ => .next
    | wide => exact .bind (onStack_keepsStats _) fun _ => .next
  | pop cell =>
    exact .bind (checkLocals_keeps _) fun _ => .bind (onStack_keepsStats _) fun _ => .next
  | reserve count => exact .bind (onStack_keepsStats _) fun _ => .next
  | reserveWord => exact .bind (onStack_keepsStats _) fun _ => .next
  | release count =>
    exact .bind (checkLocals_keeps _) fun _ => .bind (onStack_keepsStats _) fun _ => .next
  | load destination value => exact .bind (writeSlot_keeps apart_stats _ _ _) fun _ => .next
  | loadAcc value => exact .bind (modifyAccumulator_keeps apart_stats _) fun _ => .next
  | fetch source =>
    exact .bind (readSlot_keeps _ _) fun _ =>
      .bind (modifyAccumulator_keeps apart_stats _) fun _ => .next
  | save destination =>
    exact .bind .get fun _ => .bind (writeSlot_keeps apart_stats _ _ _) fun _ => .next
  | move destination source =>
    exact .bind (readSlot_keeps _ _) fun _ =>
      .bind (writeSlot_keeps apart_stats _ _ _) fun _ => .next
  | step operation destination => exact .bind (modifySlot_keeps apart_stats _ _ _) fun _ => .next
  | update operation destination source =>
    exact .bind (readSlot_keeps _ _) fun _ =>
      .bind (modifySlot_keeps apart_stats _ _ _) fun _ => .next
  | updateBy operation destination right =>
    exact .bind (modifySlot_keeps apart_stats _ _ _) fun _ => .next
  | accumulate operation source =>
    exact .bind (readSlot_keeps _ _) fun _ =>
      .bind (modifyAccumulator_keeps apart_stats _) fun _ => .next
  | accumulateBy operation right => exact .bind (modifyAccumulator_keeps apart_stats _) fun _ => .next
  | compare reading left right =>
    exact .bind (readSlot_keeps _ _) fun _ => .bind (readSlot_keeps _ _) fun _ =>
      .bind (fuse_keeps (fun _ _ => rfl) _ _ _ _) fun _ => .next
  | compareWith reading left right =>
    exact .bind (readSlot_keeps _ _) fun _ =>
      .bind (fuse_keeps (fun _ _ => rfl) _ _ _ _) fun _ => .next
  | jump condition width target => exact jump_accounted _ _ _ _ _
  | call width target => exact call_accounted _ _ _
  | ret => exact ret_accounted _ _ _
  | retShort count => exact ret_accounted _ _ _
  | retLong count => exact ret_accounted _ _ _
  | retWith value => exact .bind (modifyAccumulator_keeps apart_stats _) fun _ => ret_accounted _ _ _
  | retLongWith count value =>
    exact .bind (modifyAccumulator_keeps apart_stats _) fun _ => ret_accounted _ _ _
  | nop => exact .next
  | skip count => exact .next
  | exit => exact fun _ => rfl

/-- An instruction counts itself, and once it has succeeded its flow and the depth that it has come
to. -/
theorem stats_execute (image : Image) (offset : Nat) (instruction : Instruction)
    (machine : Machine) :
    match execute image offset instruction machine with
    | .ok flow after =>
      after.stats =
        { flow.counted machine.countInstruction.stats with
          maxDepth := max machine.stats.maxDepth after.stack.top }
    | .error _ after => after.stats = machine.countInstruction.stats := by
  have counted := effect_accounted image offset instruction machine.countInstruction
  simp only [execute, Action.bind_apply, Action.modify_apply, Action.pure_apply]
  cases ran : effect image offset instruction machine.countInstruction with
  | error fault after =>
    rw [ran] at counted
    exact counted
  | ok flow after =>
    rw [ran] at counted
    dsimp only at counted ⊢
    rw [settle, counted]
    cases flow <;> rfl

variable {image : Image} {offset : Nat} {instruction : Instruction} {machine after : Machine}

/-- The calls and returns on the account of a machine after an instruction. -/
theorem balance_of_done {flow : Flow}
    (done : execute image offset instruction machine = .ok flow after) :
    after.stats.calls = (flow.counted machine.stats).calls ∧
      after.stats.returns = (flow.counted machine.stats).returns := by
  have counted := stats_execute image offset instruction machine
  rw [done] at counted
  dsimp only at counted
  rw [counted]
  cases flow <;> exact ⟨rfl, rfl⟩

end Machine

end Tandem

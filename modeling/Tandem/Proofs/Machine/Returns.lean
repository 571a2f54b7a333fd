import Tandem.Proofs.Machine.Completed

/-!
# Returns

The five forms of a return differ in how many bytes of locals they release and in whether they set
the accumulator. All of them unwind the current frame: a return that succeeds leads to a caller or
to the engine (`Machine.leaves_of_returned`), and a return that fails does so in the unwinding
(`Machine.pop_of_failed_return`).
-/

namespace Tandem

/-- The bytes of locals that a return releases; none for any other instruction. -/
def Instruction.released? : Instruction → Option Nat
  | .ret => some 0
  | .retShort count => some count.toNat
  | .retLong count => some count.toNat
  | .retWith _ => some 0
  | .retLongWith count _ => some count.toNat
  | _ => none

/-- Control leaves the current function. -/
def Flow.Leaves : Flow → Prop
  | .toCaller _ => True
  | .toEngine => True
  | _ => False

namespace Machine

variable {image : Image} {offset count : Nat} {instruction : Instruction} {machine after : Machine}

/-- The machine with another accumulator. -/
def accumulating (machine : Machine) (value : UInt32) : Machine :=
  { machine with registers := { machine.registers with accumulator := value } }

/-- The machine whose frame a return unwinds: two of the forms have set the accumulator by then. -/
def readied (machine : Machine) (instruction : Instruction) : Machine :=
  match instruction with
  | .retWith value => machine.accumulating value
  | .retLongWith _ value => machine.accumulating value
  | _ => machine

@[simp] theorem stack_readied (machine : Machine) (instruction : Instruction) :
    (machine.readied instruction).stack = machine.stack := by
  unfold readied
  split <;> rfl

@[simp] theorem frame_readied (machine : Machine) (instruction : Instruction) :
    (machine.readied instruction).frame = machine.frame := by
  unfold readied
  split <;> rfl

/-- A return comes down to the unwinding. -/
theorem effect_of_released (image : Image) (offset : Nat) (machine : Machine)
    (returns : instruction.released? = some count) :
    effect image offset instruction machine =
      ret image offset count (machine.readied instruction) := by
  cases instruction <;> cases returns <;> rfl

theorem leaves_of_ret {flow : Flow} (done : ret image offset count machine = .ok flow after) :
    flow.Leaves := by
  simp only [ret, Action.bind_eq_ok, Action.get_bind] at done
  obtain ⟨unwound, _, -, _, _, -, result⟩ := done
  by_cases outermost : unwound.returnAddress = Frame.noCaller
  · rw [if_pos outermost] at result
    cases result
    trivial
  · rw [if_neg outermost] at result
    obtain ⟨_, _, -, result⟩ := Action.bind_eq_ok.mp result
    cases result
    trivial

theorem leaves_of_returned {flow : Flow} (returns : instruction.released? = some count)
    (done : execute image offset instruction machine = .ok flow after) : flow.Leaves := by
  obtain ⟨middle, ran, rfl⟩ := execute_eq_ok_iff.mp done
  rw [effect_of_released image offset machine.countInstruction returns] at ran
  exact leaves_of_ret ran

/-- A return fails where its frame cannot be unwound, and keeps everything but the stack. -/
theorem pop_of_ret {fault : Fault} (failed : ret image offset count machine = .error fault after) :
    ∃ stack, Frame.pop machine.frame count image.size offset machine.stack = .error fault stack ∧
      after = { machine with stack } := by
  rw [ret, Action.get_bind] at failed
  rcases Action.bind_eq_error.mp failed with failed | ⟨unwound, popped, -, failed⟩
  · unfold onStack at failed
    cases unwound : Frame.pop machine.frame count image.size offset machine.stack with
    | error fault' stack =>
      rw [unwound] at failed
      cases failed
      exact ⟨stack, rfl, rfl⟩
    | ok value stack =>
      rw [unwound] at failed
      cases failed
  · -- Nothing fails after the unwinding.
    rw [Action.modify_bind] at failed
    by_cases outermost : unwound.returnAddress = Frame.noCaller
    · rw [if_pos outermost] at failed
      cases failed
    · rw [if_neg outermost] at failed
      cases failed

/-- An instruction fails over its effect only: its accounts do not fail. -/
theorem effect_of_failed {fault : Fault}
    (failed : execute image offset instruction machine = .error fault after) :
    effect image offset instruction machine.countInstruction = .error fault after := by
  rw [execute, Action.modify_bind] at failed
  rcases Action.bind_eq_error.mp failed with failed | ⟨_, _, -, never⟩
  · exact failed
  · cases never

theorem pop_of_failed_return {fault : Fault} (returns : instruction.released? = some count)
    (failed : execute image offset instruction machine = .error fault after) :
    ∃ stack, Frame.pop machine.frame count image.size offset machine.stack = .error fault stack := by
  have failed := effect_of_failed failed
  rw [effect_of_released image offset machine.countInstruction returns] at failed
  obtain ⟨stack, refused, -⟩ := pop_of_ret failed
  rw [stack_readied, frame_readied] at refused
  exact ⟨stack, refused⟩

end Machine

end Tandem

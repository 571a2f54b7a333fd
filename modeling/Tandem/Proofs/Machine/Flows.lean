import Tandem.Proofs.Machine.Accounts
import Tandem.Proofs.Machine.Returns

/-!
# Instructions and their flows

A call that succeeds comes to a call, a return leaves the current function, and every other
instruction stays in it (`Machine.stays_of_done`). So the calls and returns that a machine has on its
account can be told from the instructions that it has completed: each call is one of the calls
(`Machine.calls_of_done`), and each return is one of the returns unless it found the engine's mark in
the header of its frame (`Machine.returns_of_done`).
-/

namespace Tandem

/-- Whether the instruction is a return. -/
def Instruction.isReturn (instruction : Instruction) : Bool := instruction.released?.isSome

/-- Control stays in the current function, or the run halts there. -/
def Flow.Stays : Flow → Prop
  | .next => True
  | .branch _ => True
  | .halt => True
  | _ => False

/-- Whatever an action comes to, if it succeeds, satisfies `P`. -/
def Action.Gives {σ α : Type} (P : α → Prop) (action : Action σ α) : Prop :=
  ∀ state value after, action state = .ok value after → P value

namespace Action.Gives

variable {σ α β : Type} {P : β → Prop}

theorem pure {value : β} (holds : P value) : Gives P (pure value : Action σ β) := by
  intro state _ _ done
  cases done
  exact holds

theorem bind {first : Action σ α} {rest : α → Action σ β} (last : ∀ value, Gives P (rest value)) :
    Gives P (first >>= rest) := by
  intro state value after done
  obtain ⟨_, _, -, done⟩ := Action.bind_eq_ok.mp done
  exact last _ _ _ _ done

end Action.Gives

namespace Machine

variable {image : Image} {offset : Nat} {instruction : Instruction} {machine after : Machine}
  {flow : Flow}

theorem jump_stays (offset next : Nat) (condition : Condition) (width : Width) (target : Target) :
    Action.Gives Flow.Stays (jump offset next condition width target) := by
  refine .bind fun taken => .bind fun _ => ?_
  cases taken with
  | true => exact .bind fun _ => .pure trivial
  | false => exact .pure trivial

/-- An instruction that neither calls nor returns ends by falling through, or it is a jump or a
halt. -/
theorem effect_stays (image : Image) (offset : Nat) (noCall : instruction.isCall = false)
    (noReturn : instruction.isReturn = false) :
    Action.Gives Flow.Stays (effect image offset instruction) := by
  cases instruction with
  | jump condition width target => exact jump_stays _ _ _ _ _
  | call width target => cases noCall
  | ret => cases noReturn
  | retShort count => cases noReturn
  | retLong count => cases noReturn
  | retWith value => cases noReturn
  | retLongWith count value => cases noReturn
  | pushZero cell => cases cell <;> exact .bind fun _ => .pure trivial
  | _ => repeat first | exact .pure trivial | refine .bind fun _ => ?_

theorem stays_of_done (noCall : instruction.isCall = false) (noReturn : instruction.isReturn = false)
    (done : execute image offset instruction machine = .ok flow after) : flow.Stays := by
  obtain ⟨middle, ran, rfl⟩ := execute_eq_ok_iff.mp done
  exact effect_stays image offset noCall noReturn _ _ _ ran

theorem call_of_done (calls : instruction.isCall = true)
    (done : execute image offset instruction machine = .ok flow after) :
    ∃ destination, flow = .call destination := by
  obtain ⟨middle, ran, rfl⟩ := execute_eq_ok_iff.mp done
  have gives (offset next : Nat) (target : Target) :
      Action.Gives (fun flow => ∃ destination, flow = .call destination) (call offset next target) :=
    .bind fun destination => .bind fun _ => .bind fun _ => .bind fun _ => .bind fun _ =>
      .pure ⟨destination, rfl⟩
  cases instruction with
  | call width target => exact gives _ _ _ _ _ _ ran
  | _ => cases calls

theorem leaves_iff_isReturn (done : execute image offset instruction machine = .ok flow after) :
    flow.Leaves ↔ instruction.isReturn = true := by
  constructor
  · intro leaves
    cases returns : instruction.isReturn with
    | true => rfl
    | false =>
      cases calls : instruction.isCall with
      | true =>
        obtain ⟨destination, rfl⟩ := call_of_done calls done
        exact leaves.elim
      | false =>
        have stays := stays_of_done calls returns done
        cases flow <;> first | exact leaves.elim | exact stays.elim
  · intro returns
    obtain ⟨count, released⟩ := Option.isSome_iff_exists.mp returns
    exact leaves_of_returned released done

/-- The instruction is a return from a frame whose header holds the engine's mark. -/
def popsMark (machine : Machine) (instruction : Instruction) : Bool :=
  instruction.isReturn &&
    Scalar.decode UInt64 (machine.stack.load (machine.frame - 8) 8) == Frame.noCaller

theorem popsMark_iff_toEngine (done : execute image offset instruction machine = .ok flow after) :
    popsMark machine instruction = true ↔ flow = .toEngine := by
  have leaves := leaves_iff_isReturn done
  rw [popsMark, Bool.and_eq_true, beq_iff_eq, ← leaves]
  cases execute_completes done with
  | toCaller returns inner =>
    rw [returns.unwinds.header.returnAddress]
    simp [inner]
  | toEngine returns outermost =>
    rw [returns.unwinds.header.returnAddress]
    simp [outermost, Flow.Leaves]
  | _ => simp [Flow.Leaves]

/-! ## Counters -/

/-- A machine has counted a call exactly for a call. -/
theorem calls_of_done (done : execute image offset instruction machine = .ok flow after) :
    after.stats.calls = machine.stats.calls + instruction.isCall.toNat := by
  rw [(balance_of_done done).1]
  cases calls : instruction.isCall with
  | true =>
    obtain ⟨destination, rfl⟩ := call_of_done calls done
    rfl
  | false =>
    cases execute_completes done with
    | call isCall => rw [isCall] at calls; cases calls
    | _ => rfl

/-- A machine has counted a return exactly for a return that did not find the engine's mark. -/
theorem returns_of_done (done : execute image offset instruction machine = .ok flow after) :
    after.stats.returns + (popsMark machine instruction).toNat =
      machine.stats.returns + instruction.isReturn.toNat := by
  have leaves := leaves_iff_isReturn done
  have engine := popsMark_iff_toEngine done
  rw [(balance_of_done done).2]
  cases flow with
  | toCaller address =>
    rw [leaves.mp trivial, Bool.eq_false_iff.mpr fun pops => nomatch engine.mp pops]
    rfl
  | toEngine =>
    rw [leaves.mp trivial, engine.mpr rfl]
    rfl
  | _ =>
    rw [Bool.eq_false_iff.mpr leaves.mpr, Bool.eq_false_iff.mpr fun pops => nomatch engine.mp pops]
    rfl

end Machine

end Tandem

import Tandem.Proofs.Instruction.Extent
import Tandem.Proofs.Machine.Bounds
import Tandem.Proofs.Stack.Capacity
import Tandem.Proofs.Threaded.Twins

/-!
# Runs on stacks of different capacities

A machine with larger stacks does what a smaller one does, round by round, until the smaller one
overflows (`Sequential.run_within`, `Threaded.run_within`).

In a sequential run the depth mark tells in advance where that happens. An instruction pushes all of
its bytes at once or, as a call does, leaves them all on the stack if it succeeds, so the depth
after it is the greatest depth that it needed (`Machine.top_of_pushing`). A round in which the
smaller machine overflows therefore either fails on the larger one too, or takes its depth mark
beyond the capacity of the smaller one (`Sequential.deeper_of_overflow`).
-/

namespace Tandem

/-- The run ended because a push ran out of room. -/
def Outcome.Overflowed {σ : Type} (outcome : Outcome σ) : Prop :=
  ∃ fault, fault.IsOverflow ∧ outcome.result = .error fault

namespace Machine

variable {image : Image} {offset : Nat} {instruction : Instruction} {flow : Flow}
  {machine after small large : Machine} {fault : Fault} {argument : UInt32}

/-! ## Instructions that push -/

theorem top_of_grown {bytes : List UInt8}
    (done : onStack (Stack.grow bytes) machine = .ok () after) :
    after.stack.top = machine.stack.top + bytes.length := by
  obtain ⟨stack, grown, rfl⟩ := onStack_eq_ok done
  obtain ⟨-, rfl⟩ := Stack.grow_eq_ok grown
  exact Stack.top_append _ _

theorem top_of_pushed {α : Type} [Scalar α] {value : α}
    (done : onStack (Stack.push value) machine = .ok () after) :
    after.stack.top = machine.stack.top + Scalar.width α := by
  rw [Stack.push_eq_grow] at done
  rw [top_of_grown done, Scalar.length_encode]

theorem top_of_reserved {count : Nat}
    (done : onStack (Stack.reserve count) machine = .ok () after) :
    after.stack.top = machine.stack.top + count := by
  rw [Stack.reserve_eq_grow] at done
  rw [top_of_grown done, List.length_replicate]

/-- An instruction that pushes leaves on the stack all that it has pushed. -/
theorem top_of_pushing (pushes : 0 < instruction.pushed)
    (done : effect image offset instruction machine = .ok flow after) :
    after.stack.top = machine.stack.top + instruction.pushed := by
  cases instruction with
  | push source =>
    obtain ⟨value, _, read, rest⟩ := Action.bind_eq_ok.mp done
    obtain ⟨_, _, pushed, result⟩ := Action.bind_eq_ok.mp rest
    obtain rfl := readSlot_eq_ok read
    cases result
    exact top_of_pushed pushed
  | pushWord value =>
    obtain ⟨_, _, pushed, result⟩ := Action.bind_eq_ok.mp done
    cases result
    exact top_of_pushed pushed
  | pushWide value =>
    obtain ⟨_, _, pushed, result⟩ := Action.bind_eq_ok.mp done
    cases result
    exact top_of_pushed pushed
  | pushZero cell =>
    cases cell with
    | word =>
      obtain ⟨_, _, pushed, result⟩ := Action.bind_eq_ok.mp done
      cases result
      exact top_of_pushed pushed
    | wide =>
      obtain ⟨_, _, pushed, result⟩ := Action.bind_eq_ok.mp done
      cases result
      exact top_of_pushed pushed
  | reserve count =>
    obtain ⟨_, _, reserved, result⟩ := Action.bind_eq_ok.mp done
    cases result
    exact top_of_reserved reserved
  | reserveWord =>
    obtain ⟨_, _, reserved, result⟩ := Action.bind_eq_ok.mp done
    cases result
    exact top_of_reserved reserved
  | call width target =>
    simp only [effect, call, Action.bind_eq_ok, Action.get_bind] at done
    obtain ⟨destination, _, resolved, frame, _, pushed, _, _, moved, _, _, counted, result⟩ := done
    obtain ⟨-, rfl⟩ := resolve_eq_ok resolved
    obtain ⟨stack, header, rfl⟩ := onStack_eq_ok pushed
    obtain ⟨-, -, rfl⟩ := Frame.push_eq_ok header
    obtain rfl := Action.modify_eq_ok moved
    obtain rfl := Action.modify_eq_ok counted
    cases result
    exact Frame.top_pushed _ _ _
  | _ => exact absurd pushes (Nat.lt_irrefl 0)

theorem top_of_executed (pushes : 0 < instruction.pushed)
    (done : execute image offset instruction machine = .ok flow after) :
    after.stack.top = machine.stack.top + instruction.pushed := by
  rw [execute, Action.modify_bind] at done
  obtain ⟨_, _, ran, settled⟩ := Action.bind_eq_ok.mp done
  have grown := top_of_pushing pushes ran
  cases settled
  exact grown

/-- An instruction that overflows needed more room than there was. -/
theorem Fails.short (fails : Fails image offset instruction machine fault after)
    (overflow : fault.IsOverflow) : machine.stack.available < instruction.pushed := by
  obtain ⟨requested, available, rfl⟩ := overflow
  cases fails with
  | full short => exact short
  | unpaired _ unread => cases (Image.read_eq_error_iff.mp unread).2
  | header calls short =>
    rw [calls]
    exact Nat.lt_of_lt_of_le short (show 8 ≤ Frame.headerSize by decide)
  | halfHeader calls half short =>
    rw [calls]
    exact short
  | unwinding returns breaks => cases breaks

/-! ## Machines of different capacities -/

/-- The smaller machine is what the larger one is, except for the capacities of the stacks. -/
abbrev Within : Machine → Machine → Prop := Twins Stack.Within Stack.Within

/-- Preparing a machine can only fail by an overflow. -/
theorem overflow_of_prepare (refused : prepare image argument machine = .error fault after) :
    fault.IsOverflow := by
  rw [prepare_eq] at refused
  cases entered : Stack.enter argument machine.stack.reset with
  | ok frame stack =>
    rw [entered] at refused
    cases refused
  | error fault' stack =>
    rw [entered] at refused
    cases refused
    rcases Action.bind_eq_error.mp entered with unpushed | ⟨_, middle, -, unframed⟩
    · obtain ⟨-, rfl, -⟩ := Stack.push_eq_error unpushed
      exact ⟨_, _, rfl⟩
    · rcases Frame.push_eq_error unframed with ⟨-, rfl, -⟩ | ⟨-, -, rfl, -⟩
      · exact ⟨_, _, rfl⟩
      · exact ⟨_, _, rfl⟩

/-- At the entry of an image, everything but the stacks is set. -/
theorem atEntry_within {frame : Nat} {smallStack largeStack : Stack}
    (stack : Stack.Within smallStack largeStack)
    (continuations : small.continuations.capacity ≤ large.continuations.capacity)
    (trace : small.trace = large.trace) :
    Within (small.atEntry image frame smallStack) (large.atEntry image frame largeStack) where
  stack := stack
  registers := rfl
  frame := rfl
  fused := rfl
  stats := congrArg (fun top => Stats.mk 0 0 0 top) stack.top
  surroundings := ⟨rfl, Stack.Within.reset continuations, trace⟩

theorem continuationCapacity_mono {small large : Nat} (larger : small ≤ large) :
    continuationCapacity small ≤ continuationCapacity large :=
  Nat.mul_le_mul_right _ (Nat.succ_le_succ (Nat.div_le_div_right larger))

theorem depth_atEntry (machine : Machine) (image : Image) (frame : Nat) (stack : Stack) :
    (machine.atEntry image frame stack).stats.maxDepth = stack.top := rfl

/-- A run starts with the argument and the header of the engine's frame. -/
theorem depth_of_prepared (ready : prepare image argument machine = .ok () after) :
    after.stats.maxDepth = 20 := by
  obtain ⟨-, rfl⟩ := prepare_eq_ok ready
  rw [depth_atEntry]
  exact Stack.top_entered _ _

/-- Where the smaller machine can be prepared, so can the larger one. -/
theorem prepare_within (stack : small.stack.capacity ≤ large.stack.capacity)
    (continuations : small.continuations.capacity ≤ large.continuations.capacity)
    (trace : small.trace = large.trace) (ready : prepare image argument small = .ok () after) :
    ∃ prepared, prepare image argument large = .ok () prepared ∧ Within after prepared := by
  obtain ⟨room, rfl⟩ := prepare_eq_ok ready
  have within : Stack.Within (small.stack.reset.entered argument)
      (large.stack.reset.entered argument) := by
    have entered : Stack.enter argument small.stack.reset = .ok _ _ := Stack.enter_of_room room
    obtain ⟨_, entered', within⟩ :=
      (Stack.Within.simulation.enter argument).of_ok (Stack.Within.reset stack) entered
    obtain ⟨-, -, rfl⟩ := Stack.enter_eq_ok entered'
    exact within
  exact ⟨_, prepare_of_room (Nat.le_trans room stack), atEntry_within within continuations trace⟩

end Machine

/-! ## Sequential runs -/

namespace Sequential

variable {image : Image} {small large : Machine} {fault : Fault} {stackSize fuel : Nat}

/-- The depth mark is never taken back. -/
theorem depth_step (image : Image) (machine : Machine) :
    machine.stats.maxDepth ≤ (step image machine).state.stats.maxDepth := by
  cases decoded : Instruction.decode image machine.cursor with
  | error fault =>
    rw [step_of_undecodable decoded]
    exact Nat.le_refl _
  | ok instruction =>
    have counted := Machine.stats_execute image machine.cursor instruction machine
    cases ran : Machine.execute image machine.cursor instruction machine with
    | error fault after =>
      rw [ran] at counted
      dsimp only at counted
      rw [step_of_failed decoded ran]
      exact Nat.le_of_eq (congrArg Stats.maxDepth counted).symm
    | ok flow after =>
      rw [ran] at counted
      have deepest : machine.stats.maxDepth ≤ after.stats.maxDepth := by
        rw [counted]
        exact Nat.le_max_left _ _
      rw [step_of_done decoded ran]
      cases flow <;> exact deepest

/-- A round that overflows on the smaller machine fails on the larger one too, or goes deeper than
the smaller one could. -/
theorem deeper_of_overflow {final : Machine} (within : Machine.Within small large)
    (bounds : Machine.InBounds stackSize small)
    (overflows : step image small = .done (.error fault) final) (overflow : fault.IsOverflow) :
    (∃ fault final, step image large = .done (.error fault) final) ∨
      stackSize < (step image large).state.stats.maxDepth := by
  have sameCursor := within.cursor
  cases decoded : Instruction.decode image small.cursor with
  | error fault' =>
    rw [step_of_undecodable decoded] at overflows
    cases overflows
    obtain ⟨requested, available, rfl⟩ := overflow
    rcases Instruction.decode_eq_error decoded with ⟨byte, same⟩ | ⟨field, same⟩
    · cases same
    · cases same
  | ok instruction =>
    have decoded' : Instruction.decode image large.cursor = .ok instruction := sameCursor ▸ decoded
    cases ran : Machine.execute image small.cursor instruction small with
    | ok flow after =>
      rw [step_of_done decoded ran] at overflows
      cases flow <;> cases overflows
    | error fault' after =>
      rw [step_of_failed decoded ran] at overflows
      cases overflows
      have short := (Machine.execute_fails ran).short overflow
      cases ran' : Machine.execute image large.cursor instruction large with
      | error fault' after' => exact .inl ⟨_, _, step_of_failed decoded' ran'⟩
      | ok flow after' =>
        have deeper : stackSize < after'.stack.top := by
          have top := Machine.top_of_executed (by omega) ran'
          have sameTop := within.stack.top
          have room : small.countInstruction.stack.available = stackSize - small.stack.top := by
            rw [← bounds.placed.bounded.capacity]
            rfl
          omega
        have counted := Machine.stats_execute image large.cursor instruction large
        rw [ran'] at counted
        have deepest : stackSize < after'.stats.maxDepth := by
          rw [counted]
          exact Nat.lt_of_lt_of_le deeper (Nat.le_max_right _ _)
        rw [step_of_done decoded' ran']
        exact .inr (by cases flow <;> exact deepest)

/-- The round in which the smaller machine overflows. -/
structure Overflows (image : Image) (stackSize : Nat) (large small : Machine) : Prop where
  stops : ∃ fault final, fault.IsOverflow ∧ step image small = .done (.error fault) final
  deeper : (∃ fault final, step image large = .done (.error fault) final) ∨
    stackSize < (step image large).state.stats.maxDepth

/-- A machine and a smaller one of a certain capacity. -/
structure Sized (stackSize : Nat) (large small : Machine) : Prop where
  within : Machine.Within small large
  bounds : Machine.InBounds stackSize small

theorem lockstepUnless_within (image : Image) (stackSize : Nat) :
    LockstepUnless (step image) (step image) (Sized stackSize) (Sized stackSize)
      (Overflows image stackSize) := by
  rintro large small ⟨within, bounds⟩
  have kept := bounds.step image
  rcases step_twins Stack.Within.simulation image within with
    related | ⟨fault, final, overflow, stops⟩
  · refine .inl ?_
    generalize step image small = smallStep at related kept
    generalize step image large = largeStep at related
    cases related with
    | running within => exact .running ⟨within, kept⟩
    | done within => exact .done ⟨within, kept⟩
  · refine .inr ⟨⟨⟨fault, final, overflow, stops⟩, deeper_of_overflow within bounds stops overflow⟩,
      fun next goesOn => ?_⟩
    rw [stops] at goesOn
    cases goesOn

/-- A sequential run on a smaller machine comes to the same, or it overflows; then the depth mark of
the larger machine is beyond the smaller capacity in the end, unless its run fails. -/
theorem run_within (sized : Sized stackSize large small) (fuel : Nat) :
    Option.Rel (Outcome.Related (Sized stackSize)) (run image fuel large) (run image fuel small) ∨
      ∃ outcome, run image fuel small = some outcome ∧ outcome.Overflowed ∧
        ∀ other value, run image fuel large = some other → other.result = .ok value →
          stackSize < other.state.stats.maxDepth := by
  refine ((lockstepUnless_within image stackSize).iterate sized fuel).imp_right ?_
  rintro ⟨n, largeState, smallState, inside, largeReached, smallReached, -, overflows⟩
  obtain ⟨⟨fault, final, overflow, stops⟩, deeper⟩ := overflows
  refine ⟨⟨.error fault, final⟩, iterate_mono inside (iterate_of_done smallReached stops),
    ⟨fault, overflow, rfl⟩, fun other value ended halted => ?_⟩
  rcases deeper with ⟨fault', final', fails⟩ | deep
  · have failed := iterate_mono inside (iterate_of_done largeReached fails)
    cases (show some _ = some other from failed.symm.trans ended)
    cases halted
  · exact iterate_invariant_of_round (P := fun machine => stackSize < machine.stats.maxDepth)
      (fun machine before => Nat.lt_of_lt_of_le before (depth_step image machine)) largeReached
      ended deep

end Sequential

/-! ## Threaded runs -/

namespace Threaded

variable {image : Image} {code : Code} {small large : Machine}

/-- A thread and one at the same operation on a smaller machine. -/
abbrev Within (large small : Thread) : Prop := Twins Stack.Within Stack.Within small large

theorem lockstepUnless_within (image : Image) (code : Code) :
    LockstepUnless (step image code) (step image code) Within Within fun _ small =>
      ∃ fault final, fault.IsOverflow ∧ step image code small = .done (.error fault) final := by
  intro large small within
  rcases step_twins Stack.Within.simulation Stack.Within.simulation image code within with
    related | ⟨fault, final, overflow, stops⟩
  · exact .inl related.flip
  · refine .inr ⟨⟨fault, final, overflow, stops⟩, fun next goesOn => ?_⟩
    rw [stops] at goesOn
    cases goesOn

/-- A threaded run on a smaller machine comes to the same, or it overflows. -/
theorem run_within (within : Machine.Within small large) (fuel : Nat) :
    Option.Rel (Outcome.Related fun large small => Machine.Within small large)
        (run image code fuel large) (run image code fuel small) ∨
      ∃ outcome, run image code fuel small = some outcome ∧ outcome.Overflowed := by
  have rooted := onContinuations_twins (R := Stack.Within) (Stack.Within.simulation.push rootId)
    small large within
  rw [run, run]
  generalize Machine.onContinuations (Stack.push rootId) small = smallStart at rooted
  generalize Machine.onContinuations (Stack.push rootId) large = largeStart at rooted
  cases rooted with
  | error within => exact .inl (.some ⟨rfl, within⟩)
  | @waived fault refused _ overflow => exact .inr ⟨_, rfl, fault, overflow, rfl⟩
  | @ok _ smallEntered largeEntered within =>
    have start : Within ⟨0, largeEntered⟩ ⟨0, smallEntered⟩ := ⟨rfl, within⟩
    refine ((lockstepUnless_within image code).iterate start fuel).imp (fun ends => ?_) ?_
    · dsimp only
      generalize iterate (step image code) fuel ⟨0, largeEntered⟩ = largeEnd at ends
      generalize iterate (step image code) fuel ⟨0, smallEntered⟩ = smallEnd at ends
      cases ends with
      | none => exact .none
      | some outcomes => exact .some ⟨outcomes.result, outcomes.state.machine⟩
    · rintro ⟨n, _, smallState, inside, -, smallReached, -, fault, final, overflow, stops⟩
      have ended := iterate_mono inside (iterate_of_done smallReached stops)
      dsimp only
      rw [ended]
      exact ⟨_, rfl, fault, overflow, rfl⟩

end Threaded

end Tandem

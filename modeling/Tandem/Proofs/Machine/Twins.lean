import Tandem.Proofs.Machine.Prepare
import Tandem.Proofs.Machine.Sequential

/-!
# Twin machines

Machines that no run can tell apart: related operand stacks, related continuation stacks, and
everything else equal. Preparing twins makes twins, and twins stay twins in every round of a
sequential run and at its end (`Sequential.lockstep_twins`), whatever simulations relate their
stacks. Where a simulation waives faults, a round may also end the left run with one of them
(`Sequential.step_twins`).

Sequential runs do not even need twins: of the surroundings they look at the cursor only
(`Sequential.lockstep_similar`).
-/

namespace Tandem

variable {waived : Fault → Prop} {R S : Stack → Stack → Prop} {left right : Machine}

namespace Machine

/-- Equal cursors, related continuation stacks and equal traces. -/
structure Surroundings.Twins (S : Stack → Stack → Prop) (left right : Surroundings) : Prop where
  cursor : left.cursor = right.cursor
  continuations : S left.continuations right.continuations
  trace : left.trace = right.trace

/-- Machines that differ in their stacks only, and there only as `R` and `S` allow. -/
abbrev Twins (R S : Stack → Stack → Prop) (left right : Machine) : Prop :=
  Similar R (Surroundings.Twins S) left right

/-- Machines whose stacks hold the same bytes, and with `stale` the same bytes above their tops. -/
abbrev Alike (stale : Prop) (stackSize : Nat) (leftGrowth rightGrowth : Growth) :
    Machine → Machine → Prop :=
  Twins (Stack.Alike stale stackSize leftGrowth rightGrowth)
    (Stack.Alike stale (continuationCapacity stackSize) leftGrowth rightGrowth)

theorem twins_execute (simulation : Stack.Simulation waived R) (image : Image) (offset : Nat)
    (instruction : Instruction) :
    Action.Respects waived (Twins R S) (execute image offset instruction)
      (execute image offset instruction) :=
  execute_respects simulation
    (fun _ _ record twins =>
      { twins with trace := congrArg (Option.map (record :: ·)) twins.trace })
    image offset instruction

theorem Twins.cursor (twins : Twins R S left right) : left.cursor = right.cursor :=
  twins.surroundings.cursor

theorem Twins.trace (twins : Twins R S left right) : left.trace = right.trace :=
  twins.surroundings.trace

/-- Twins stay twins with other continuation stacks, if these are related. -/
theorem Twins.withContinuations (twins : Twins R S left right) {one two : Stack}
    (related : S one two) :
    Twins R S { left with continuations := one } { right with continuations := two } :=
  { twins with surroundings := ⟨twins.cursor, related, twins.trace⟩ }

/-- Preparing machines with related empty stacks makes twins. Where the preparation can fail, the
frames and the cursors have to be equal already. -/
theorem prepare_related (simulation : Stack.Simulation Fault.NoneWaived R)
    (stack : R left.stack.reset right.stack.reset)
    (continuations : S left.continuations.reset right.continuations.reset)
    (trace : left.trace = right.trace)
    (idle : left.stack.capacity < 20 → left.frame = right.frame ∧ left.cursor = right.cursor)
    (image : Image) (argument : UInt32) :
    Action.Related Fault.NoneWaived (Twins R S) (prepare image argument left)
      (prepare image argument right) := by
  have respects := simulation.enter argument
  rw [prepare_eq, prepare_eq]
  cases entered : Stack.enter argument left.stack.reset with
  | ok frame leftStack =>
    obtain ⟨rightStack, entered', related⟩ := respects.of_ok stack entered
    rw [entered']
    have stats : (left.atEntry image frame leftStack).stats =
        (right.atEntry image frame rightStack).stats :=
      congrArg (fun top => Stats.mk 0 0 0 top) (simulation.top related)
    exact .ok ⟨related, rfl, rfl, rfl, stats, rfl, continuations, trace⟩
  | error fault leftStack =>
    obtain ⟨rightStack, entered', related⟩ := respects.of_error stack entered
    rw [entered']
    have full : left.stack.capacity < 20 := by
      refine Nat.lt_of_not_le fun room => ?_
      have fits : 20 ≤ left.stack.reset.available := room
      rw [Stack.enter_of_room fits] at entered
      cases entered
    obtain ⟨sameFrame, sameCursor⟩ := idle full
    exact .error ⟨related, rfl, sameFrame, rfl, rfl, sameCursor, continuations, trace⟩

end Machine

namespace Sequential

variable {C : Machine.Surroundings → Machine.Surroundings → Prop}

/-- Surroundings with equal cursors that stay related as a sequential run changes them: it moves the
cursor and adds records. -/
structure Steady (C : Machine.Surroundings → Machine.Surroundings → Prop) : Prop where
  cursor : ∀ {left right}, C left right → left.cursor = right.cursor
  moved : ∀ {left right}, C left right → ∀ cursor, C { left with cursor } { right with cursor }
  recorded : ∀ {left right}, C left right → ∀ record, C (left.recorded record) (right.recorded record)

theorem steady_twins : Steady (Machine.Surroundings.Twins S) where
  cursor twins := twins.cursor
  moved twins _ := ⟨rfl, twins.continuations, twins.trace⟩
  recorded twins record := { twins with trace := congrArg (Option.map (record :: ·)) twins.trace }

theorem follow_similar (steady : Steady C) (similar : Machine.Similar R C left right) (length : Nat)
    (flow : Flow) :
    Progress.Related (Machine.Similar R C) (Machine.Similar R C) (follow length flow left)
      (follow length flow right) := by
  have moved (cursor : Nat) :
      Machine.Similar R C { left with cursor } { right with cursor } :=
    { similar with surroundings := steady.moved similar.surroundings cursor }
  have cursor : left.cursor = right.cursor := steady.cursor similar.surroundings
  cases flow with
  | next =>
    simp only [follow, cursor]
    exact .running (moved _)
  | branch target => exact .running (moved target)
  | call target => exact .running (moved target)
  | toCaller address => exact .running (moved address)
  | toEngine =>
    simp only [follow]
    rw [similar.registers]
    exact .done similar
  | halt =>
    simp only [follow]
    rw [similar.registers]
    exact .done similar

/-- A round of similar machines comes to the same, unless it ends the left run with a waived
fault. -/
theorem step_similar (simulation : Stack.Simulation waived R) (steady : Steady C) (image : Image)
    (similar : Machine.Similar R C left right) :
    Progress.Related (Machine.Similar R C) (Machine.Similar R C) (step image left)
        (step image right) ∨
      ∃ fault final, waived fault ∧ step image left = .done (.error fault) final := by
  have sameCursor : left.cursor = right.cursor := steady.cursor similar.surroundings
  cases decoded : Instruction.decode image left.cursor with
  | error fault =>
    rw [step_of_undecodable decoded, step_of_undecodable (sameCursor ▸ decoded)]
    exact .inl (.done similar)
  | ok instruction =>
    have related := Machine.execute_respects simulation
      (fun _ _ record surroundings => steady.recorded surroundings record) image left.cursor
      instruction left right similar
    cases ran : Machine.execute image left.cursor instruction left with
    | error fault leftAfter =>
      rw [ran] at related
      generalize ran' : Machine.execute image left.cursor instruction right = rightResult at related
      rw [step_of_failed decoded ran]
      cases related with
      | error similar =>
        rw [step_of_failed (sameCursor ▸ decoded) (sameCursor ▸ ran')]
        exact .inl (.done similar)
      | waived excuse => exact .inr ⟨fault, leftAfter, excuse, rfl⟩
    | ok flow leftAfter =>
      rw [ran] at related
      obtain ⟨rightAfter, ran', similar⟩ := related.of_ok
      rw [step_of_done decoded ran, step_of_done (sameCursor ▸ decoded) (sameCursor ▸ ran')]
      exact .inl (follow_similar steady similar instruction.length flow)

/-- Sequential runs of similar machines go through the same rounds. -/
theorem lockstep_similar (simulation : Stack.Simulation Fault.NoneWaived R) (steady : Steady C)
    (image : Image) :
    Lockstep (step image) (step image) (Machine.Similar R C) (Machine.Similar R C) :=
  fun _ _ similar => (step_similar simulation steady image similar).resolve_right
    fun ⟨_, _, excuse, _⟩ => excuse

/-- A round of twins comes to the same, unless it ends the left run with a waived fault. -/
theorem step_twins (simulation : Stack.Simulation waived R) (image : Image)
    (twins : Machine.Twins R S left right) :
    Progress.Related (Machine.Twins R S) (Machine.Twins R S) (step image left) (step image right) ∨
      ∃ fault final, waived fault ∧ step image left = .done (.error fault) final :=
  step_similar simulation steady_twins image twins

/-- Sequential runs of twins go through the same rounds. -/
theorem lockstep_twins (simulation : Stack.Simulation Fault.NoneWaived R) (image : Image) :
    Lockstep (step image) (step image) (Machine.Twins R S) (Machine.Twins R S) :=
  lockstep_similar simulation steady_twins image

theorem lockstep_alike {stale : Prop} {stackSize : Nat} {leftGrowth rightGrowth : Growth}
    (image : Image) :
    Lockstep (step image) (step image) (Machine.Alike stale stackSize leftGrowth rightGrowth)
      (Machine.Alike stale stackSize leftGrowth rightGrowth) :=
  lockstep_twins (Stack.Alike.simulation _ _ _ _) image

end Sequential

end Tandem

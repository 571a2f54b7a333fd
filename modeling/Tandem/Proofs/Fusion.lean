import Tandem.Proofs.Boundary
import Tandem.Proofs.Machine.Latch

/-!
# No stale flags

The flag of a machine is never cleared, so what keeps a branch from using an old one is the latch.
At every boundary of a run it is armed exactly if the last instruction was a compare, and then the
branch of that compare comes next (`Fusion.step`). The invariant that carries this is that control
is at a branch while the latch is armed (`Boundary.Paired`): the next instruction uses the latch up
then, whatever its condition.

So a conditional branch that succeeds stands directly behind the compare that was executed before
it, and goes by its own condition of the operands of that compare; reached in any other way it ends
the run. Both strategies do the same.
-/

namespace Tandem

variable {image : Image} {strategy : Strategy} {argument : UInt32} {machine prepared : Machine}
  {n : Nat} {boundary before after : Boundary} {instruction : Instruction} {flow : Flow}

/-! ## Armed boundaries -/

/-- While the latch is armed, control is at a branch. -/
def Boundary.Paired (image : Image) (boundary : Boundary) : Prop :=
  boundary.machine.fused = true →
    ∃ condition width, image.read UInt8 boundary.offset = .ok (Opcode.jumpByte condition width)

/-- A boundary comes directly after a compare of two numbers. -/
def FollowsCompare (strategy : Strategy) (image : Image) (prepared : Machine) (n : Nat)
    (boundary : Boundary) (left right : Int) : Prop :=
  ∃ earlier before compare, n = earlier + 1 ∧
    strategy.boundary? image prepared earlier = some before ∧
    Passes image before compare .next boundary ∧
    Machine.Compares before.machine before.offset compare left right

namespace Passes

theorem fused (passes : Passes image before instruction flow after) {machine : Machine}
    (done : Machine.execute image before.offset instruction before.machine = .ok flow machine) :
    after.machine.fused = machine.fused ∧
      after.machine.registers.flag = machine.registers.flag := by
  obtain ⟨other, done', same⟩ := passes.done
  cases done.symm.trans done'
  rw [same]
  exact ⟨rfl, rfl⟩

/-- After a compare, the latch is armed for the branch behind it. -/
theorem armed (passes : Passes image before instruction flow after)
    (compares : instruction.isCompare = true) :
    flow = .next ∧ after.machine.fused = true ∧
      after.offset = before.offset + instruction.length ∧
      ∃ left right, Machine.Compares before.machine before.offset instruction left right ∧
        Machine.Decides image after.offset left right after.machine.registers.flag := by
  obtain ⟨machine, done, -⟩ := passes.done
  obtain ⟨rfl, armed, left, right, compared, decides⟩ := Machine.fuses_of_done compares done
  obtain ⟨fused, flag⟩ := passes.fused done
  have offset : before.offset + instruction.length = after.offset := Option.some.inj passes.leads
  rw [offset, ← flag] at decides
  exact ⟨rfl, fused.trans armed, offset.symm, left, right, compared, decides⟩

/-- After anything but a compare, the latch is not armed. -/
theorem unarmed (passes : Passes image before instruction flow after)
    (paired : before.Paired image) (other : instruction.isCompare = false) :
    after.machine.fused = false := by
  obtain ⟨machine, done, -⟩ := passes.done
  rw [(passes.fused done).1]
  cases jumps : instruction.isJump with
  | true =>
    cases instruction with
    | jump condition width target => exact (Machine.jump_of_done done).1
    | _ => cases jumps
  | false =>
    rw [Machine.fused_of_other other jumps done]
    -- Were the latch armed here, the instruction would be the branch that it is armed for.
    rw [Bool.eq_false_iff]
    intro armed
    obtain ⟨condition, width, branch⟩ := paired armed
    obtain ⟨target, rfl⟩ := Instruction.jump_of_decode branch passes.decoded
    cases jumps

theorem paired (passes : Passes image before instruction flow after)
    (paired : before.Paired image) : after.Paired image := by
  intro armed
  cases compares : instruction.isCompare with
  | false =>
    rw [passes.unarmed paired compares] at armed
    cases armed
  | true =>
    obtain ⟨-, -, -, left, right, -, condition, width, branch, -⟩ := passes.armed compares
    exact ⟨condition, width, branch⟩

end Passes

/-! ## Runs -/

theorem unarmed_at_start (ready : Machine.prepare image argument machine = .ok () prepared)
    (reached : strategy.boundary? image prepared 0 = some boundary) :
    boundary.machine.fused = false := by
  obtain ⟨-, start⟩ := Strategy.boundary?_zero ready reached
  obtain ⟨-, rfl⟩ := Machine.prepare_eq_ok ready
  rw [start]
  rfl

theorem paired_of_run (ready : Machine.prepare image argument machine = .ok () prepared)
    (reached : strategy.boundary? image prepared n = some boundary) : boundary.Paired image := by
  induction n generalizing boundary with
  | zero =>
    intro armed
    rw [unarmed_at_start ready reached] at armed
    cases armed
  | succ n ih =>
    obtain ⟨before, instruction, flow, reached, passes⟩ := Strategy.passes reached
    exact passes.paired (ih reached)

/-- Where the latch is armed, a compare came just before, and the branch here is the one that the
flag was worked out for. -/
theorem follows_of_armed (ready : Machine.prepare image argument machine = .ok () prepared)
    (reached : strategy.boundary? image prepared n = some boundary)
    (armed : boundary.machine.fused = true) :
    ∃ left right, FollowsCompare strategy image prepared n boundary left right ∧
      Machine.Decides image boundary.offset left right boundary.machine.registers.flag := by
  cases n with
  | zero =>
    rw [unarmed_at_start ready reached] at armed
    cases armed
  | succ n =>
    obtain ⟨before, instruction, flow, reached, passes⟩ := Strategy.passes reached
    cases compares : instruction.isCompare with
    | false =>
      rw [passes.unarmed (paired_of_run ready reached) compares] at armed
      cases armed
    | true =>
      obtain ⟨rfl, -, -, left, right, compared, decides⟩ := passes.armed compares
      exact ⟨left, right, ⟨n, before, instruction, rfl, reached, passes, compared⟩, decides⟩

/-- What the latch and the conditional branches of a run do, at each of its boundaries. -/
structure Fusion (strategy : Strategy) (image : Image) (prepared : Machine) : Prop where
  /-- A run that is not over after `n` instructions is at a boundary, where all of this applies. -/
  boundaries : ∀ n, strategy.dispatch image n prepared = none ↔
    ∃ boundary, strategy.boundary? image prepared n = some boundary
  /-- A run starts at the entry, with the latch off. -/
  start : ∀ boundary, strategy.boundary? image prepared 0 = some boundary →
    boundary.offset = image.entry ∧ boundary.machine.fused = false
  /-- The latch is armed exactly after a compare. Control is just past it then, at a branch, and the
  flag says whether the condition of that branch holds of what the compare has read. -/
  step : ∀ n after, strategy.boundary? image prepared (n + 1) = some after →
    ∃ before instruction flow, strategy.boundary? image prepared n = some before ∧
      Passes image before instruction flow after ∧
      (after.machine.fused = true ↔ instruction.isCompare = true) ∧
      (after.machine.fused = true →
        after.offset = before.offset + instruction.length ∧
        ∃ condition width left right,
          image.read UInt8 after.offset = .ok (Opcode.jumpByte condition width) ∧
          Machine.Compares before.machine before.offset instruction left right ∧
          after.machine.registers.flag = condition.holds left right)
  /-- A conditional branch that succeeds follows a compare, and is taken exactly if its own condition
  holds of what that compare has read. -/
  succeeds : ∀ n boundary condition width target,
    strategy.boundary? image prepared n = some boundary →
    Instruction.decode image boundary.offset = .ok (.jump condition width target) →
    condition ≠ .always → ∀ flow after,
    Machine.execute image boundary.offset (.jump condition width target) boundary.machine =
      .ok flow after →
    ∃ left right, FollowsCompare strategy image prepared n boundary left right ∧
      if condition.holds left right then ∃ destination,
        target.resolve (boundary.offset + (Instruction.jump condition width target).length) =
          .ok destination ∧ flow = .branch destination
      else flow = .next
  /-- A conditional branch that does not follow a compare ends the run, with a fault that names its
  own opcode byte and offset. -/
  fails : ∀ n boundary condition width target,
    strategy.boundary? image prepared n = some boundary →
    Instruction.decode image boundary.offset = .ok (.jump condition width target) →
    condition ≠ .always →
    (¬ ∃ left right, FollowsCompare strategy image prepared n boundary left right) →
    image.read UInt8 boundary.offset = .ok (Opcode.jumpByte condition width) ∧
      ∃ final, strategy.dispatch image (n + 1) prepared =
        some ⟨.error (.illegalOpcode (Opcode.jumpByte condition width) boundary.offset), final⟩

/-- **No stale flags.** Every run from a prepared machine, by either strategy, keeps compares and
conditional branches together. -/
theorem fusion_of_prepared (strategy : Strategy)
    (ready : Machine.prepare image argument machine = .ok () prepared) :
    Fusion strategy image prepared where
  boundaries n := Strategy.dispatch_eq_none_iff
  start boundary reached :=
    ⟨(Strategy.boundary?_zero ready reached).1, unarmed_at_start ready reached⟩
  step n after reached := by
    obtain ⟨before, instruction, flow, reached, passes⟩ := Strategy.passes reached
    refine ⟨before, instruction, flow, reached, passes, ?_⟩
    cases compares : instruction.isCompare with
    | false =>
      have unarmed := passes.unarmed (paired_of_run ready reached) compares
      simp [unarmed]
    | true =>
      obtain ⟨-, armed, offset, left, right, compared, condition, width, branch, flag⟩ :=
        passes.armed compares
      exact ⟨⟨fun _ => rfl, fun _ => armed⟩,
        fun _ => ⟨offset, condition, width, left, right, branch, compared, flag⟩⟩
  succeeds n boundary condition width target reached decoded conditional flow after done := by
    obtain ⟨-, taken, asks, goes⟩ := Machine.jump_of_done done
    obtain ⟨armed, rfl⟩ := asks conditional
    obtain ⟨left, right, follows, condition', width', branch, flag⟩ :=
      follows_of_armed ready reached armed
    -- The byte that the compare looked at is the one that was decoded here.
    obtain ⟨target', same⟩ := Instruction.jump_of_decode branch decoded
    cases same
    rw [flag] at goes
    exact ⟨left, right, follows, goes⟩
  fails n boundary condition width target reached decoded conditional alone := by
    have unarmed : boundary.machine.fused = false := by
      rw [Bool.eq_false_iff]
      intro armed
      obtain ⟨left, right, follows, -⟩ := follows_of_armed ready reached armed
      exact alone ⟨left, right, follows⟩
    exact ⟨Instruction.read_of_decode_jump decoded,
      Strategy.dispatch_of_failed reached decoded (Machine.execute_of_unarmed conditional unarmed)⟩

/-- A compare and its branch, which jumps over a halt to a branch without a compare. -/
def straying : Image where
  bytes := #[0x32, 0xFF, 0x03, 0x00, 0x00, 0x00, 0x4C, 0x01, 0xFF, 0x4C, 0x00]
  entry := 0
  entry_lt := by decide

/-- The first branch is taken for an argument that is below three as a signed number only, and the
second one ends the run. -/
theorem fusion_of_prepared_straying :
    ∃ prepared,
      Machine.prepare straying 0xFFFFFFFF (.ofStackSize 64 .downward) = .ok () prepared ∧
      Fusion .threaded straying prepared ∧
      (Strategy.threaded.dispatch straying 3 prepared).map Outcome.result =
        some (.error (.illegalOpcode 0x4C 9)) := by
  have ready : Machine.prepare straying 0xFFFFFFFF (.ofStackSize 64 .downward) = .ok () _ :=
    Machine.prepare_of_room (by decide)
  exact ⟨_, ready, fusion_of_prepared .threaded ready, by decide +kernel⟩

end Tandem

import Tandem.Proofs.Machine.Bounds
import Tandem.Proofs.Threaded.Nesting

/-!
# The bounds of threaded dispatch

Threaded code may be run on a machine that belongs to another image, and on one that was not
prepared. Its operations then return to addresses of that machine, and pop ids that some other code
has pushed. Still every position that a run comes to is a place in the table
(`Threaded.InBounds.step`), because the links of faithful code lead into its own table
(`Op.Settled.linked`) and so do the entries of its resume table, whichever id asks for them.
-/

namespace Tandem.Threaded

variable {stackSize : Nat} {image other : Image} {code : Code} {op : Op} {instruction : Instruction}
  {machine after : Machine} {flow : Flow} {thread : Thread}

/-! ## Links -/

/-- Where `flow` goes along a link of the operation, the link is there and leads into the table. -/
def Op.Linked (ops : Array Op) (op : Op) : Flow → Prop
  | .next => ∃ index, op.next = some index ∧ index < ops.size
  | .branch _ => ∃ index, op.taken = some index ∧ index < ops.size
  | .call _ => ∃ index, op.taken = some index ∧ index < ops.size
  | .toCaller _ => True
  | .toEngine => True
  | .halt => True

/-- An operation that was settled for one image has the links that an instruction comes to, whatever
image that instruction is run on. -/
theorem Op.Settled.linked (settled : op.Settled other code.ops)
    (decoded : op.decoded = .ok instruction)
    (completes : Machine.Completes image op.offset instruction machine after flow) :
    op.Linked code.ops flow := by
  cases completes with
  | next through frame stack =>
    obtain ⟨index, link, stands⟩ := settled.next_eq_some decoded through
    exact ⟨index, link, stands.lt⟩
  | branch jumps leads frame stack =>
    obtain ⟨index, link, stands⟩ := settled.taken_eq_some decoded jumps leads
    exact ⟨index, link, stands.lt⟩
  | call calls leads room frame stack =>
    have jumps := congrArg Instruction.target? calls
    obtain ⟨index, link, stands⟩ := settled.taken_eq_some decoded jumps leads
    exact ⟨index, link, stands.lt⟩
  | toCaller returns inner => trivial
  | toEngine returns outermost => trivial
  | halt frame stack => trivial

/-! ## Machines -/

theorem follow_preserves {P : Machine → Prop} (link : Option Nat) (offset : Nat) :
    Action.Preserves P (follow link offset) := by
  cases link with
  | some index => exact .pure index
  | none => exact .throw _

/-- Finding the next operation keeps what pushing and popping ids keeps. -/
theorem successor_preserves {P : Machine → Prop}
    (push : ∀ id : UInt32, Action.Preserves P (Machine.onContinuations (Stack.push id)))
    (pop : Action.Preserves P (Machine.onContinuations (Stack.pop UInt32))) (code : Code) (op : Op)
    (flow : Flow) : Action.Preserves P (successor code op flow) := by
  cases flow with
  | next => exact .bind (follow_preserves _ _) fun _ => .pure _
  | branch target => exact .bind (follow_preserves _ _) fun _ => .pure _
  | call target =>
    exact .bind (follow_preserves _ _) fun _ => .bind (push op.continuation) fun _ => .pure _
  | toCaller address =>
    refine .bind pop fun id => ?_
    cases code.resume? id with
    | none => exact .throw _
    | some resume =>
      by_cases fits : resume.returnOffset = address
      · simp only [if_pos fits]
        exact .pure _
      · simp only [if_neg fits]
        exact .throw _
  | toEngine =>
    refine .bind pop fun id => ?_
    by_cases root : id = rootId
    · rw [if_pos root]
      exact .pure _
    · rw [if_neg root]
      exact .throw _
  | halt => exact .pure _

theorem dispatch_inBounds (image : Image) (code : Code) (op : Op) (instruction : Instruction) :
    Action.Preserves (Machine.InBounds stackSize) (dispatch image code op instruction) :=
  .bind (Machine.execute_inBounds image op.offset instruction) fun flow =>
    successor_preserves (fun id => Machine.onContinuations_inBounds (Stack.push_bounded id))
      (Machine.onContinuations_inBounds (Stack.pop_bounded UInt32)) code op flow

/-! ## Positions -/

/-- Every successor of an operation is a place in the table. -/
theorem Leads.lt {index : Nat} (leads : Leads code op machine flow index after)
    (faithful : code.Faithful other) (linked : op.Linked code.ops flow) :
    index < code.ops.size := by
  cases leads with
  | next link =>
    obtain ⟨place, link', inside⟩ := linked
    cases link.symm.trans link'
    exact inside
  | branch link =>
    obtain ⟨place, link', inside⟩ := linked
    cases link.symm.trans link'
    exact inside
  | call link pushed =>
    obtain ⟨place, link', inside⟩ := linked
    cases link.symm.trans link'
    exact inside
  | toCaller popped named => exact (faithful.resumes _ _ named).lt

/-! ## Rounds -/

/-- A thread at a place of the table, on a machine in bounds. -/
structure InBounds (stackSize : Nat) (code : Code) (thread : Thread) : Prop where
  position : thread.position < code.ops.size
  machine : Machine.InBounds stackSize thread.machine

/-- A round of threaded dispatch keeps the thread in bounds, whatever it comes to, on whichever
image. -/
theorem InBounds.step (bounds : InBounds stackSize code thread) (faithful : code.Faithful other)
    (image : Image) : InBounds stackSize code (Threaded.step image code thread).state := by
  obtain ⟨position, inside⟩ := bounds
  have found := Array.getElem?_eq_getElem position
  cases decoded : code.ops[thread.position].decoded with
  | error fault =>
    rw [step_of_undecodable found decoded]
    exact ⟨position, inside⟩
  | ok instruction =>
    have kept : Action.Preserves (Machine.InBounds stackSize)
        (dispatch image code code.ops[thread.position] instruction) := dispatch_inBounds _ _ _ _
    cases ran : dispatch image code code.ops[thread.position] instruction thread.machine with
    | error fault machine =>
      rw [step_of_error found decoded ran]
      exact ⟨position, kept.of_error inside ran⟩
    | ok successor? machine =>
      cases successor? with
      | none =>
        rw [step_of_none found decoded ran]
        exact ⟨position, kept.of_ok inside ran⟩
      | some next =>
        rw [step_of_some found decoded ran]
        refine ⟨?_, kept.of_ok inside ran⟩
        obtain ⟨flow, _, done, leads⟩ := Action.bind_eq_ok.mp ran
        have linked := (faithful.settled _ _ found).linked decoded (Machine.execute_completes done)
        exact (leads_of_successor leads).lt faithful linked

end Tandem.Threaded

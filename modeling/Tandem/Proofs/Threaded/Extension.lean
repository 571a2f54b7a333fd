import Mathlib.Data.List.Forall2
import Mathlib.Data.List.Nodup
import Mathlib.Data.List.Perm.Subperm
import Tandem.Proofs.Extension
import Tandem.Proofs.Threaded.Chart
import Tandem.Proofs.Threaded.Nesting
import Tandem.Proofs.Threaded.Twins

/-!
# Threaded code with more bytes behind the image

A longer image has another table. Where an operation holds a fault because the shorter image ends,
there can be an instruction with successors of its own. So there may be more operations, at other
places, and a call may have another id. Two runs of the two codes are related up to that
(`Threaded.Follows`): they are at operations with one offset, and the ids on their continuation
stacks name the same return offsets, one by one (`Threaded.Renumbered`).

Rounds keep this as long as they succeed in the shorter image (`Threaded.spared_of_extends`), so a
run that ends well does so in the longer image too, with the same machine but for what is left on
the continuation stack (`Threaded.run_of_extends`). Ids have to tell calls apart for this. What is
reached in the shorter image is reached in the longer one, so it is enough if the longer one has
not too many calls (`Threaded.callSites_le_of_extends`); no image has more calls than bytes
(`Threaded.callSites_le_size`).
-/

namespace Tandem.Threaded

variable {image longer : Image} {code code' : Code} {offset : Nat}

/-! ## What is reached -/

/-- An id of one code and an id of another one that mean the same: the engine, or a return to one
offset. -/
inductive Renames (code code' : Code) : UInt32 → UInt32 → Prop
  | root : Renames code code' rootId rootId
  | call {id id' : UInt32} {resume resume' : Resume} (named : code.resume? id = some resume)
    (named' : code'.resume? id' = some resume')
    (sameOffset : resume'.returnOffset = resume.returnOffset) : Renames code code' id id'

/-- Stacks of ids that mean the same one by one. -/
structure Renumbered (code code' : Code) (left right : Stack) : Prop where
  capacity : left.capacity = right.capacity
  ids : ∃ leftIds rightIds, Stack.Holds leftIds left ∧ Stack.Holds rightIds right ∧
    List.Forall₂ (Renames code code') leftIds rightIds

variable {left right : Stack} {id id' : UInt32}

theorem Renames.resumes {resume : Resume} (renames : Renames code code' id id')
    (named : code.resume? id = some resume) :
    ∃ resume', code'.resume? id' = some resume' ∧ resume'.returnOffset = resume.returnOffset := by
  cases renames with
  | root => cases named
  | call known known' sameOffset =>
    cases known.symm.trans named
    exact ⟨_, known', sameOffset⟩

theorem Renumbered.available (renumbered : Renumbered code code' left right) :
    left.available = right.available := by
  obtain ⟨leftIds, rightIds, holds, holds', same⟩ := renumbered.ids
  rw [holds.available, holds'.available, renumbered.capacity, same.length_eq]

theorem Renumbered.push (renumbered : Renumbered code code' left right)
    (renames : Renames code code' id id') (room : Machine.continuationSize ≤ left.available) :
    Renumbered code code' (left.append (Scalar.encode id)) (right.append (Scalar.encode id')) := by
  obtain ⟨leftIds, rightIds, holds, holds', same⟩ := renumbered.ids
  refine ⟨?_, id :: leftIds, id' :: rightIds, ?_, ?_, .cons renames same⟩
  · rw [Stack.capacity_append, Stack.capacity_append, renumbered.capacity]
  · exact holds.push (Stack.push_of_room id room)
  · exact holds'.push (Stack.push_of_room id' (renumbered.available ▸ room))

/-- The ids on top mean the same. -/
theorem Renumbered.pop {rest : Stack} (renumbered : Renumbered code code' left right)
    (popped : Stack.pop UInt32 left = .ok id rest) :
    rest = left.drop Machine.continuationSize ∧
      ∃ id' ids', Renames code code' id id' ∧ Stack.Holds (id' :: ids') right ∧
        Renumbered code code' (left.drop Machine.continuationSize)
          (right.drop Machine.continuationSize) := by
  obtain ⟨leftIds, rightIds, holds, holds', same⟩ := renumbered.ids
  cases same with
  | nil =>
    obtain ⟨inUse, -⟩ := Stack.pop_eq_ok popped
    rw [Scalar.width_uint32, show left.top = 0 from holds] at inUse
    cases inUse
  | cons renames same =>
    rw [holds.pop.1] at popped
    cases popped
    exact ⟨rfl, _, _, renames, holds', renumbered.capacity, _, _, holds.pop.2, holds'.pop.2, same⟩

/-! ## Rounds -/

/-- Code that says what an image says, in which the ids of calls name their returns. -/
structure Code.Named (image : Image) (code : Code) : Prop extends code.Faithful image where
  named : ∀ {index : Nat} {op : Op} {resume : Resume}, code.ops[index]? = some op →
    op.resume? = some resume → code.resume? op.continuation = some resume

/-- Places of two tables for one offset. -/
def SamePlace (code code' : Code) (index index' : Nat) : Prop :=
  ∃ offset, Stands code.ops offset index ∧ Stands code'.ops offset index'

/-- A run of the longer code is where the run of the shorter one is, in the same state but for the
ids of its calls. -/
structure Follows (code code' : Code) (left right : Thread) : Prop where
  position : SamePlace code code' left.position right.position
  machine : Machine.Twins Eq (Renumbered code code') left.machine right.machine

variable {left right : Thread} {op op' : Op} {instruction : Instruction} {flow : Flow}
  {machine after after' final : Machine}

/-- The threads are at one instruction of the image and of the longer one. -/
structure Meets (code code' : Code) (left right : Thread) (op op' : Op)
    (instruction : Instruction) : Prop where
  found : code.ops[left.position]? = some op
  found' : code'.ops[right.position]? = some op'
  offset : op'.offset = op.offset
  decoded : op.decoded = .ok instruction
  decoded' : op'.decoded = .ok instruction

theorem Follows.meets (follows : Follows code code' left right) (grown : longer.Extends image)
    (faithful : code.Faithful image) (faithful' : code'.Faithful longer) :
    (∃ fault, step image code left = .done (.error fault) left) ∨
      ∃ op op' instruction, Meets code code' left right op op' instruction := by
  obtain ⟨offset, stands, stands'⟩ := follows.position
  obtain ⟨op, found, rfl⟩ := stands_iff.mp stands
  obtain ⟨op', found', sameOffset⟩ := stands_iff.mp stands'
  cases decoded : op.decoded with
  | error fault => exact .inl ⟨fault, step_of_undecodable found decoded⟩
  | ok instruction =>
    have decode := Instruction.decode_of_extends grown
      ((faithful.settled _ _ found).decoded.symm.trans decoded)
    refine .inr ⟨op, op', instruction, found, found', sameOffset, decoded, ?_⟩
    rw [(faithful'.settled _ _ found').decoded, sameOffset, decode]

namespace Meets

variable (meets : Meets code code' left right op op' instruction)

include meets

theorem nextOffset : op'.nextOffset = op.nextOffset := by
  rw [Op.nextOffset, Op.nextOffset, Op.length, Op.length, meets.decoded, meets.decoded',
    meets.offset]

/-- Both fall through to one offset. -/
theorem next (faithful : code.Faithful image) (faithful' : code'.Faithful longer)
    (through : instruction.fallsThrough = true) :
    ∃ index index', op.next = some index ∧ op'.next = some index' ∧
      SamePlace code code' index index' := by
  obtain ⟨index, linked, stands⟩ :=
    (faithful.settled _ _ meets.found).next_eq_some meets.decoded through
  obtain ⟨index', linked', stands'⟩ :=
    (faithful'.settled _ _ meets.found').next_eq_some meets.decoded' through
  rw [meets.offset] at stands'
  exact ⟨index, index', linked, linked', _, stands, stands'⟩

/-- Both lead to one destination. -/
theorem taken (faithful : code.Faithful image) (faithful' : code'.Faithful longer) {target : Target}
    {destination : Nat} (leaves : instruction.target? = some target)
    (leads : target.resolve (op.offset + instruction.length) = .ok destination) :
    ∃ index index', op.taken = some index ∧ op'.taken = some index' ∧
      SamePlace code code' index index' := by
  obtain ⟨index, linked, stands⟩ :=
    (faithful.settled _ _ meets.found).taken_eq_some meets.decoded leaves leads
  rw [← meets.offset] at leads
  obtain ⟨index', linked', stands'⟩ :=
    (faithful'.settled _ _ meets.found').taken_eq_some meets.decoded' leaves leads
  exact ⟨index, index', linked, linked', _, stands, stands'⟩

/-- As calls, both are returned to at one offset. -/
theorem renames (named : code.Named image) (named' : code'.Named longer) {width : Width}
    {target : Target} (calls : instruction = .call width target) :
    Renames code code' op.continuation op'.continuation := by
  subst calls
  obtain ⟨resume, call⟩ := (named.settled _ _ meets.found).resume_of_call meets.decoded
  obtain ⟨resume', call'⟩ := (named'.settled _ _ meets.found').resume_of_call meets.decoded'
  refine .call (named.named meets.found call) (named'.named meets.found' call') ?_
  rw [Op.returnOffset_of_resume? call, Op.returnOffset_of_resume? call', meets.nextOffset]

/-- Where one run goes on, the other one goes on at the same place. -/
theorem goes_on (named : code.Named image) (named' : code'.Named longer)
    (completes : Machine.Completes image op.offset instruction machine after flow)
    (twins : Machine.Twins Eq (Renumbered code code') after after') {index : Nat}
    (leads : Leads code op after flow index final) :
    ∃ index' final', successor code' op' flow after' = .ok (some index') final' ∧
      SamePlace code code' index index' ∧
      Machine.Twins Eq (Renumbered code code') final final' := by
  have renumbered := twins.surroundings.continuations
  cases leads with
  | next linked =>
    cases completes with
    | next through frame stack =>
      obtain ⟨place, place', known, linked', same⟩ :=
        meets.next named.toFaithful named'.toFaithful through
      cases linked.symm.trans known
      exact ⟨place', after', successor_next linked', same, twins⟩
  | branch linked =>
    cases completes with
    | branch jumps resolves frame stack =>
      obtain ⟨place, place', known, linked', same⟩ :=
        meets.taken named.toFaithful named'.toFaithful jumps resolves
      cases linked.symm.trans known
      exact ⟨place', after', successor_branch linked', same, twins⟩
  | call linked pushed =>
    cases completes with
    | call calls resolves room frame stack =>
      obtain ⟨place, place', known, linked', same⟩ := meets.taken named.toFaithful
        named'.toFaithful (congrArg Instruction.target? calls) resolves
      cases linked.symm.trans known
      obtain ⟨room, rfl⟩ := Stack.push_eq_ok pushed
      have room' : Machine.continuationSize ≤ after'.continuations.available :=
        renumbered.available ▸ room
      exact ⟨place', _, successor_call_of_room linked' room', same,
        twins.withContinuations (renumbered.push (meets.renames named named' calls) room)⟩
  | @toCaller id resume rest popped known =>
    -- Both ids name the offset that the frame returns to, and each code has its place for it.
    obtain ⟨rfl, id', ids', renames, holds', below⟩ := renumbered.pop popped
    obtain ⟨resume', known', sameOffset⟩ := renames.resumes known
    rw [← sameOffset]
    refine ⟨resume'.op, _, successor_toCaller_of_resume holds' known', ?_,
      twins.withContinuations below⟩
    have stands' := named'.resumes id' resume' known'
    rw [sameOffset] at stands'
    exact ⟨_, named.resumes id resume known, stands'⟩

end Meets

end Tandem.Threaded

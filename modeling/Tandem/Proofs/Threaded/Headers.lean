import Tandem.Proofs.Machine.Calls
import Tandem.Proofs.Threaded.Round

/-!
# Continuation ids and frame headers

Both stacks of a threaded run tell the outstanding calls: the operand stack by the return addresses
in their headers, the continuation stack by their ids. As long as no slot is written over a header,
they tell the same (`Threaded.Names`), so that a return finds the id of the call that it unwinds.
Room for a header is room for an id as well. A threaded run then never fails on its continuation
stack: it goes on and ends with the sequential one (`Threaded.lockstep_headers`).
-/

namespace Tandem.Threaded

variable {image : Image} {code : Code} {stackSize : Nat} {start machine left right : Machine}
  {thread : Thread} {op : Op} {instruction : Instruction} {flow : Flow}

/-- What fixed-width words can hold: besides what a machine puts on its operand stack, an id for
every call of the image. -/
structure Fits (image : Image) (stackSize : Nat) : Prop extends Machine.Fits image stackSize where
  ids : (Code.ofImage image).resumes.size < UInt32.size

/-! ## What the two stacks tell -/

/-- Ids that name, one by one, the ways to go on that the return addresses say. -/
inductive Names (code : Code) : (addresses : List UInt64) → (ids : List UInt32) → Prop
  | engine : Names code [Frame.noCaller] [rootId]
  | call {address : UInt64} {id : UInt32} {resume : Resume} {addresses : List UInt64}
    {ids : List UInt32} (named : code.resume? id = some resume)
    (returns : resume.returnOffset = address.toNat) (below : Names code addresses ids) :
    Names code (address :: addresses) (id :: ids)

theorem Names.length {addresses : List UInt64} {ids : List UInt32} (names : Names code addresses ids) :
    ids.length = addresses.length := by
  induction names with
  | engine => rfl
  | call named returns below ih => rw [List.length_cons, List.length_cons, ih]

/-- The newest id of an outstanding call, if it is not the engine's. -/
theorem Names.newest {address : UInt64} {addresses : List UInt64} {ids : List UInt32}
    (names : Names code (address :: addresses) ids) (inner : address ≠ Frame.noCaller) :
    ∃ id rest resume, ids = id :: rest ∧ code.resume? id = some resume ∧
      resume.returnOffset = address.toNat ∧ Names code addresses rest := by
  cases names with
  | engine => exact absurd rfl inner
  | call named returns below => exact ⟨_, _, _, rfl, named, returns, below⟩

/-- Only the engine's id is left when no call is outstanding. -/
theorem Names.outermost {ids : List UInt32} (names : Names code [Frame.noCaller] ids) :
    ids = [rootId] := by
  cases names with
  | engine => rfl
  | call named returns below => cases below

/-- The outstanding calls at a round, as the flow of the run, the headers on the operand stack and
the ids on the continuation stack tell them. -/
structure Outstanding (image : Image) (code : Code) (stackSize : Nat) (start machine : Machine)
    (continuations : Stack) (live : List Nat) (addresses : List UInt64) (ids : List UInt32) :
    Prop where
  calling : Sequential.Calling image start machine live
  intact : Intact stackSize machine.stack machine.frame live addresses
  names : Names code addresses ids
  holds : Stack.Holds ids continuations
  capacity : continuations.capacity = Machine.continuationCapacity stackSize

/-- Runs that agree, with stacks that tell the same. -/
def Paired (image : Image) (code : Code) (stackSize : Nat) (start machine : Machine)
    (thread : Thread) : Prop :=
  Agrees code machine thread ∧ ∃ live addresses ids,
    Outstanding image code stackSize start machine thread.machine.continuations live addresses ids

namespace Outstanding

variable {continuations : Stack} {live live' : List Nat} {addresses : List UInt64}
  {ids : List UInt32}

/-- Where one more header has found room, there is room for one more id. -/
theorem room {stack : Stack} {frame : Nat} {address : UInt64}
    (outstanding : Outstanding image code stackSize start machine continuations live addresses ids)
    (called : Intact stackSize stack frame live' (address :: addresses)) :
    Machine.continuationSize ≤ continuations.available := by
  have headers := called.length_le
  rw [List.length_cons, Frame.headerSize] at headers
  rw [outstanding.holds.available, outstanding.names.length, outstanding.capacity,
    Machine.continuationCapacity, Machine.continuationSize, Frame.headerSize]
  omega

end Outstanding

/-! ## Rounds -/

namespace Ran

variable {live : List Nat} {addresses : List UInt64} {ids : List UInt32}

/-- An instruction that neither calls nor returns leaves the outstanding calls as they are, whatever
it writes to slots. -/
theorem outstanding (ran : Ran image code machine thread op instruction flow left right)
    (outstanding : Outstanding image code stackSize start machine thread.machine.continuations live
      addresses ids)
    (spares : Sequential.SparesHeaders image start) (frame : left.frame = machine.frame)
    (stack : Machine.Reworks instruction machine.frame machine.stack left.stack) {cursor : Nat}
    (follows : Sequential.follow instruction.length flow left = .running { left with cursor })
    (quiet : flow.live left.frame live = live) :
    Outstanding image code stackSize start { left with cursor } right.continuations live addresses
      ids := by
  have calling := outstanding.calling.step ran.decode ran.sequential follows
  rw [quiet] at calling
  have intact := outstanding.intact.reworks stack fun slot position =>
    spares machine live instruction flow left slot position outstanding.calling ran.decode
      ran.sequential
  rw [← frame] at intact
  rw [ran.continuations]
  exact { outstanding with calling, intact }

/-- Such an instruction ends a round of both runs. -/
theorem paired_quiet (ran : Ran image code machine thread op instruction flow left right)
    (paired : Paired image code stackSize start machine thread)
    (spares : Sequential.SparesHeaders image start) (frame : left.frame = machine.frame)
    (stack : Machine.Reworks instruction machine.frame machine.stack left.stack)
    (quiet : ∀ live, flow.live left.frame live = live) {cursor position : Nat}
    (follows : Sequential.follow instruction.length flow left = .running { left with cursor })
    (leads : successor code op flow right = .ok (some position) right)
    (stands : Stands code.ops cursor position) :
    Progress.Related (Paired image code stackSize start) After (Sequential.step image machine)
      (step image code thread) := by
  obtain ⟨-, live, addresses, ids, outstanding⟩ := paired
  exact ran.goes_on follows leads ⟨ran.agrees stands right.continuations, live, addresses, ids,
    ran.outstanding outstanding spares frame stack follows (quiet live)⟩

/-- The id of a call names the operation behind it. -/
theorem named {width : Width} {target : Target}
    (ran : Ran image (Code.ofImage image) machine thread op (.call width target) flow left right)
    (fits : Fits image stackSize) :
    ∃ resume, (Code.ofImage image).resume? op.continuation = some resume ∧
      resume.returnOffset = machine.cursor + (Instruction.call width target).length := by
  obtain ⟨resume, call⟩ := ran.settled.resume_of_call ran.decoded
  refine ⟨resume, resume?_continuation fits.ids ran.found call, ?_⟩
  rw [Op.returnOffset_of_resume? call, Op.nextOffset, Op.length, ran.decoded, ran.offset]

/-- A call pushes a header, and an id that names its return address. -/
theorem paired_call {width : Width} {target : Target} {destination : Nat}
    (ran : Ran image (Code.ofImage image) machine thread op (.call width target)
      (.call destination) left right)
    (fits : Fits image stackSize)
    (paired : Paired image (Code.ofImage image) stackSize start machine thread)
    (leads : target.resolve (machine.cursor + (Instruction.call width target).length) =
      .ok destination)
    (room : Frame.headerSize ≤ machine.stack.available)
    (frame : left.frame = machine.stack.top + Frame.headerSize)
    (stack : left.stack = Frame.pushed machine.stack machine.frame
      (machine.cursor + (Instruction.call width target).length).toUInt64) :
    Progress.Related (Paired image (Code.ofImage image) stackSize start) After
      (Sequential.step image machine) (step image (Code.ofImage image) thread) := by
  obtain ⟨-, live, addresses, ids, outstanding⟩ := paired
  obtain ⟨value, inner⟩ := fits.returnAddress ran.decode
  have intact := outstanding.intact.call fits.positions room inner
  rw [← frame, ← stack] at intact
  have roomForId := outstanding.room intact
  rw [← ran.continuations] at roomForId outstanding
  have pushed := Stack.push_of_room op.continuation roomForId
  obtain ⟨resume, named, returns⟩ := ran.named fits
  rw [← ran.offset] at leads
  obtain ⟨index, linked, stands⟩ := ran.settled.taken_eq_some ran.decoded rfl leads
  have after : Outstanding image (Code.ofImage image) stackSize start
      { left with cursor := destination }
      (right.continuations.append (Scalar.encode op.continuation)) (left.frame :: live)
      ((machine.cursor + (Instruction.call width target).length).toUInt64 :: addresses)
      (op.continuation :: ids) := by
    refine ⟨outstanding.calling.step ran.decode ran.sequential rfl, intact, ?_, ?_, ?_⟩
    · exact .call named (returns.trans value.symm) outstanding.names
    · exact outstanding.holds.push pushed
    · rw [Stack.capacity_append]
      exact outstanding.capacity
  exact ran.goes_on rfl (successor_call_of_room linked roomForId)
    ⟨ran.agrees stands _, _, _, _, after⟩

/-- A return into the image unwinds the newest header, and the newest id names its return
address. -/
theorem paired_toCaller {count : Nat} {unwound : Frame.Unwound}
    (ran : Ran image code machine thread op instruction (.toCaller unwound.returnAddress.toNat) left
      right)
    (faithful : code.Faithful image) (paired : Paired image code stackSize start machine thread)
    (returned : Machine.Unwound image machine left count unwound)
    (inner : unwound.returnAddress ≠ Frame.noCaller) :
    Progress.Related (Paired image code stackSize start) After (Sequential.step image machine)
      (step image code thread) := by
  obtain ⟨-, live, addresses, ids, outstanding⟩ := paired
  obtain ⟨addresses, rfl, intact⟩ := outstanding.intact.unwind returned.unwinds inner
  rw [← returned.frame, ← returned.stack] at intact
  obtain ⟨id, ids, resume, rfl, named, returns, below⟩ := outstanding.names.newest inner
  rw [← ran.continuations] at outstanding
  rw [← returns] at ran
  have stands := faithful.resumes id resume named
  refine ran.goes_on rfl (successor_toCaller_of_resume outstanding.holds named)
    ⟨ran.agrees stands _, live.tail, addresses, ids, ?_⟩
  exact ⟨outstanding.calling.step ran.decode ran.sequential rfl, intact, below,
    outstanding.holds.pop.2, outstanding.capacity⟩

/-- A return out of the image finds the engine's id. -/
theorem paired_toEngine {count : Nat} {unwound : Frame.Unwound}
    (ran : Ran image code machine thread op instruction .toEngine left right)
    (paired : Paired image code stackSize start machine thread)
    (returned : Machine.Unwound image machine left count unwound)
    (outermost : unwound.returnAddress = Frame.noCaller) :
    Progress.Related (Paired image code stackSize start) After (Sequential.step image machine)
      (step image code thread) := by
  obtain ⟨-, live, addresses, ids, outstanding⟩ := paired
  obtain rfl := outstanding.intact.outermost returned.unwinds outermost
  obtain rfl := outstanding.names.outermost
  have holds := outstanding.holds
  rw [← ran.continuations] at holds
  exact ran.ends rfl (successor_toEngine_of_root holds)

end Ran

/-- If no instruction writes over a header, the two strategies stay in step. -/
theorem lockstep_headers (fits : Fits image stackSize)
    (spares : Sequential.SparesHeaders image start) :
    Lockstep (Sequential.step image) (step image (Code.ofImage image))
      (Paired image (Code.ofImage image) stackSize start) After := by
  intro machine thread paired
  have faithful := faithful_ofImage image
  rcases paired.1.round faithful with ⟨fault, left, right, sequential, threaded, after⟩ | ran
  · rw [sequential, threaded]
    exact .done after
  · obtain ⟨op, instruction, flow, left, right, ran⟩ := ran
    cases Machine.execute_completes ran.sequential with
    | next through frame stack =>
      obtain ⟨index, linked, stands⟩ := ran.settled.next_eq_some ran.decoded through
      rw [← ran.cursor] at stands
      exact ran.paired_quiet paired spares frame stack (fun _ => rfl) rfl (successor_next linked)
        stands
    | branch leaves leads frame stack =>
      rw [← ran.offset] at leads
      obtain ⟨index, linked, stands⟩ := ran.settled.taken_eq_some ran.decoded leaves leads
      exact ran.paired_quiet paired spares frame (stack ▸ .kept) (fun _ => rfl) rfl
        (successor_branch linked) stands
    | call calls leads room frame stack =>
      subst calls
      exact ran.paired_call fits paired leads room frame stack
    | toCaller returned inner => exact ran.paired_toCaller faithful paired returned inner
    | toEngine returned outermost => exact ran.paired_toEngine paired returned outermost
    | halt _ _ => exact ran.ends rfl rfl

/-- The threaded run does not fail on its continuation stack. -/
theorem Paired.not_parts (paired : Paired image (Code.ofImage image) stackSize start machine thread)
    (fits : Fits image stackSize) (spares : Sequential.SparesHeaders image start) {fault : Fault}
    {final : Thread} (stops : step image (Code.ofImage image) thread = .done (.error fault) final) :
    ¬ Parts image (Code.ofImage image) thread fault := by
  intro parts
  have related := lockstep_headers fits spares machine thread paired
  rw [stops] at related
  generalize sequential : Sequential.step image machine = progress at related
  cases related with
  | done => exact parts.sequential_succeeds paired.1 (faithful_ofImage image) sequential

/-! ## Whole runs -/

/-- To begin with, the engine's frame is the only one, and so is its id. -/
theorem paired_of_prepared {argument : UInt32} {prepared : Machine}
    (operands : machine.stack.capacity = stackSize)
    (continuations : machine.continuations.capacity = Machine.continuationCapacity stackSize)
    (ready : Machine.prepare image argument machine = .ok () prepared) :
    ∃ entered, Machine.onContinuations (Stack.push rootId) prepared = .ok () entered ∧
      Paired image (Code.ofImage image) stackSize prepared prepared ⟨0, entered⟩ := by
  obtain ⟨entered, rooted, agrees, holds, capacity⟩ := enters continuations ready
  have intact := Intact.of_prepared ready
  rw [operands] at intact
  exact ⟨entered, rooted, agrees, _, _, _, .start, intact, .engine, holds, capacity⟩

/-- If no instruction writes over a header, the threaded run ends as the sequential one and with as
many steps, and it fails on its continuation stack in no round. -/
theorem run_headers {prepared entered : Machine} (fits : Fits image stackSize)
    (spares : Sequential.SparesHeaders image prepared)
    (rooted : Machine.onContinuations (Stack.push rootId) prepared = .ok () entered)
    (paired : Paired image (Code.ofImage image) stackSize prepared prepared ⟨0, entered⟩) :
    (∀ fuel, Option.Rel (Outcome.Related (Machine.Similar Eq Machine.SameTrace))
      (Sequential.run image fuel prepared) (run image (Code.ofImage image) fuel prepared)) ∧
    ∀ n thread fault final, iteration (step image (Code.ofImage image)) n ⟨0, entered⟩ = some thread →
      step image (Code.ofImage image) thread = .done (.error fault) final →
      ¬ Parts image (Code.ofImage image) thread fault := by
  have lockstep := lockstep_headers fits spares
  constructor
  · intro fuel
    have ends := lockstep.iterate paired fuel
    rw [run_eq rooted, Sequential.run]
    revert ends
    generalize iterate (Sequential.step image) fuel prepared = left
    generalize iterate (step image (Code.ofImage image)) fuel ⟨0, entered⟩ = right
    intro ends
    cases ends with
    | none => exact .none
    | some outcomes => exact .some ⟨outcomes.result, outcomes.state⟩
  · intro n thread fault final reached stops
    have rounds := lockstep.iteration paired n
    rw [reached] at rounds
    generalize iteration (Sequential.step image) n prepared = left at rounds
    cases rounds with
    | some paired => exact paired.not_parts fits spares stops

end Tandem.Threaded

import Tandem.Instruction.Encoding
import Tandem.Proofs.Threaded.Round

/-!
# The two dispatch strategies side by side

A sequential run and a threaded run of one image from one prepared machine. As long as both go on
they show the same: the stack, the registers, the frame, the latch, the counters and the trace are
equal, and the threaded run is at the operation that stands at the cursor of the sequential one.

Nothing is assumed of the image, which may overwrite its own return addresses. So the strategies can
part: only the threaded run keeps continuation ids, and where an instruction has succeeded in both
runs it can still fail, because an id does not fit the frame or because there is no room for one
(`Threaded.Parts`). `Threaded.runs_compare` says that there is no other difference, and that the
trace of a run that parts is the first part of the sequential trace.
-/

namespace Tandem

namespace Threaded

variable {image : Image} {code : Code} {machine left right : Machine} {thread : Thread} {op : Op}
  {instruction : Instruction} {flow : Flow} {fault : Fault}

/-- The id of the engine lies at the bottom of the continuation stack. -/
def Rooted (continuations : Stack) : Prop :=
  ∃ ids, Stack.Holds (ids ++ [rootId]) continuations

/-- The threaded run fails on its continuation stack, in a round that the sequential run does not
fail in; both have the same trace after it. -/
structure Parting (image : Image) (code : Code) (machine : Machine) (thread : Thread) (fault : Fault)
    (final : Thread) : Prop where
  stops : step image code thread = .done (.error fault) final
  cause : Parts image code thread fault
  spared : ∀ fault final, Sequential.step image machine ≠ .done (.error fault) final
  trace : final.machine.trace = (Sequential.step image machine).state.trace

/-- What holds at every round that both runs reach. -/
def During (code : Code) (machine : Machine) (thread : Thread) : Prop :=
  Agrees code machine thread ∧ Rooted thread.machine.continuations

/-- What holds where the threaded run parts. -/
def Away (image : Image) (code : Code) (machine : Machine) (thread : Thread) : Prop :=
  ∃ fault final, Parting image code machine thread fault final

/-! ## Rounds -/

namespace Ran

/-- The threaded run fails on its continuation stack. -/
theorem parts (ran : Ran image code machine thread op instruction flow left right)
    {continuations : Stack}
    (failed : successor code op flow right = .error fault { right with continuations })
    (cause : Parts image code thread fault) :
    Away image code machine thread ∧ ∀ next, step image code thread ≠ .running next := by
  have stops := step_of_error ran.found ran.decoded (ran.dispatch_eq.trans failed)
  refine ⟨⟨fault, _, stops, cause, ?_, ?_⟩, ?_⟩
  · intro fault final
    rw [ran.step_eq]
    cases flow <;> exact fun same => by cases same
  · rw [ran.step_eq, Sequential.trace_follow]
    exact ran.similar.surroundings.symm
  · intro next
    rw [stops]
    exact fun same => by cases same

end Ran

theorem resume?_rootId (code : Code) : code.resume? rootId = none := rfl

theorem Rooted.push {continuations : Stack} (rooted : Rooted continuations) (id : UInt32)
    (room : Machine.continuationSize ≤ continuations.available) :
    Rooted (continuations.append (Scalar.encode id)) := by
  obtain ⟨ids, holds⟩ := rooted
  exact ⟨id :: ids, holds.push (Stack.push_of_room id room)⟩

/-- The newest id of a rooted stack: the engine's own, or one with a rooted stack below it. -/
theorem Rooted.newest {continuations : Stack} (rooted : Rooted continuations) :
    ∃ id ids, Stack.Holds (id :: ids) continuations ∧
      (id = rootId ∨ Rooted (continuations.drop Machine.continuationSize)) := by
  obtain ⟨ids, holds⟩ := rooted
  cases ids with
  | nil => exact ⟨rootId, [], holds, .inl rfl⟩
  | cons id ids => exact ⟨id, ids ++ [rootId], holds, .inr ⟨ids, holds.pop.2⟩⟩

/-- A return into the image goes on behind the call that it returns to, if the newest id is that
call's. -/
theorem Ran.compares_toCaller {address : Nat}
    (ran : Ran image code machine thread op instruction (.toCaller address) left right)
    (faithful : code.Faithful image) (rooted : Rooted right.continuations) :
    Progress.Related (During code) After (Sequential.step image machine)
        (step image code thread) ∨
      Away image code machine thread ∧ ∀ next, step image code thread ≠ .running next := by
  obtain ⟨id, ids, holds, below⟩ := rooted.newest
  by_cases fits : ∃ resume, code.resume? id = some resume ∧ resume.returnOffset = address
  · obtain ⟨resume, named, rfl⟩ := fits
    have rest := below.resolve_left fun root => by
      rw [root, resume?_rootId] at named
      cases named
    have stands := faithful.resumes id resume named
    exact .inl (ran.goes_on rfl (successor_toCaller_of_resume holds named)
      ⟨ran.agrees stands _, rest⟩)
  · have strays : ∀ resume, code.resume? id = some resume → resume.returnOffset ≠ address :=
      fun resume named same => fits ⟨resume, named, same⟩
    exact .inr (ran.parts (successor_toCaller_of_mismatch holds strays)
      (.continuation ran.found ran.decoded ran.threaded (.inr ⟨address, rfl⟩) holds.pop.1))

/-- After an instruction that has succeeded in both runs, they still agree or they part. -/
theorem Ran.compares (ran : Ran image code machine thread op instruction flow left right)
    (faithful : code.Faithful image) (rooted : Rooted right.continuations) :
    Progress.Related (During code) After (Sequential.step image machine)
        (step image code thread) ∨
      Away image code machine thread ∧ ∀ next, step image code thread ≠ .running next := by
  cases Machine.execute_completes ran.threaded with
  | next through _ _ =>
    obtain ⟨index, linked, stands⟩ := ran.settled.next_eq_some ran.decoded through
    rw [← ran.cursor] at stands
    exact .inl (ran.goes_on rfl (successor_next linked) ⟨ran.agrees stands _, rooted⟩)
  | branch leaves leads _ _ =>
    obtain ⟨index, linked, stands⟩ := ran.settled.taken_eq_some ran.decoded leaves leads
    exact .inl (ran.goes_on rfl (successor_branch linked) ⟨ran.agrees stands _, rooted⟩)
  | call calls leads _ _ _ =>
    have leaves := congrArg Instruction.target? calls
    obtain ⟨index, linked, stands⟩ := ran.settled.taken_eq_some ran.decoded leaves leads
    rcases Nat.lt_or_ge right.continuations.available Machine.continuationSize with full | room
    · exact .inr (ran.parts (successor_call_of_full linked full)
        (.overflow ran.found ran.decoded ran.threaded full))
    · exact .inl (ran.goes_on rfl (successor_call_of_room linked room)
        ⟨ran.agrees stands _, rooted.push op.continuation room⟩)
  | toCaller _ _ => exact ran.compares_toCaller faithful rooted
  | toEngine returns outermost =>
    obtain ⟨id, ids, holds, -⟩ := rooted.newest
    by_cases root : id = rootId
    · subst root
      exact .inl (ran.ends rfl (successor_toEngine_of_root holds))
    · exact .inr (ran.parts (successor_toEngine_of_mismatch holds root)
        (.continuation ran.found ran.decoded ran.threaded (.inl rfl) holds.pop.1))
  | halt _ _ => exact .inl (ran.ends rfl rfl)

/-- Runs that agree at the start of a round agree after it, end alike, or part in it. -/
theorem lockstepUnless (faithful : code.Faithful image) :
    LockstepUnless (Sequential.step image) (step image code) (During code) After
      (Away image code) := by
  rintro machine thread ⟨agrees, rooted⟩
  rcases agrees.round faithful with ⟨fault, left, right, sequential, threaded, after⟩ | ran
  · rw [sequential, threaded]
    exact .inl (.done after)
  · obtain ⟨op, instruction, flow, left, right, ran⟩ := ran
    exact ran.compares faithful (ran.continuations ▸ rooted)

/-! ## Whole runs -/

/-- How a sequential and a threaded run of a prepared machine compare. The threaded run starts with
the engine's id on its continuation stack, as `entered` has it. -/
inductive Comparison (image : Image) (code : Code) (prepared entered : Machine) : Prop
  /-- Both end with one result, one set of counters and one trace. -/
  | same (fuel : Nat) {result : Except Fault UInt32} {left right : Machine}
    (sequential : Sequential.run image fuel prepared = some ⟨result, left⟩)
    (threaded : run image code fuel prepared = some ⟨result, right⟩)
    (similar : Machine.Similar Eq Machine.SameTrace left right)
  /-- Neither ends. -/
  | forever (sequential : ∀ fuel, Sequential.run image fuel prepared = none)
    (threaded : ∀ fuel, run image code fuel prepared = none)
  /-- The threaded run ends in a round that the sequential one gets through. -/
  | parted (n : Nat) {machine : Machine} {thread final : Thread} {fault : Fault}
    (sequential : iteration (Sequential.step image) n prepared = some machine)
    (threaded : iteration (step image code) n ⟨0, entered⟩ = some thread)
    (parting : Parting image code machine thread fault final)
    (ends : run image code (n + 1) prepared = some ⟨.error fault, final.machine⟩)
    (later : ∀ m after, n < m → iteration (Sequential.step image) m prepared = some after →
      final.machine.records <+: after.records)
    (last : ∀ fuel outcome, Sequential.run image fuel prepared = some outcome →
      final.machine.records <+: outcome.state.records)

theorem Comparison.of_ends {prepared entered : Machine}
    (rooted : Machine.onContinuations (Stack.push rootId) prepared = .ok () entered)
    (ends : Ends (Sequential.step image) (step image code) (During code) After (Away image code)
      prepared ⟨0, entered⟩) :
    Comparison image code prepared entered := by
  cases ends with
  | @same fuel left right sequential threaded related =>
    have threaded' : run image code fuel prepared = some ⟨left.result, right.state.machine⟩ := by
      rw [run_eq rooted, threaded, Option.map_some, related.result]
    exact .same fuel sequential threaded' related.state
  | forever sequential threaded =>
    refine .forever sequential fun fuel => ?_
    rw [run_eq rooted, threaded fuel, Option.map_none]
  | away n sequential threaded during away =>
    obtain ⟨fault, final, parting⟩ := away
    refine .parted n sequential threaded parting ?_ ?_ ?_
    · rw [run_eq rooted, iterate_of_done threaded parting.stops, Option.map_some]
    · intro m after later reached
      rw [Machine.records_congr parting.trace]
      exact Sequential.records_state_iteration sequential later reached
    · intro fuel outcome ended
      rw [Machine.records_congr parting.trace]
      exact Sequential.records_state_iterate sequential ended

/-- From one prepared machine, the two strategies agree at every round that both reach, and then end
alike, run on alike, or part. -/
theorem runs_compare (image : Image) (argument : UInt32) (stackSize : Nat) (growth : Growth)
    (trace : Option (List Record)) {prepared : Machine}
    (ready : Machine.prepare image argument
      { Machine.ofStackSize stackSize growth with trace } = .ok () prepared) :
    ∃ entered, Machine.onContinuations (Stack.push rootId) prepared = .ok () entered ∧
      (∀ n machine thread, iteration (Sequential.step image) n prepared = some machine →
        iteration (step image (Code.ofImage image)) n ⟨0, entered⟩ = some thread →
        Agrees (Code.ofImage image) machine thread) ∧
      Comparison image (Code.ofImage image) prepared entered := by
  obtain ⟨entered, rooted, agrees, holds, -⟩ :=
    enters (Stack.capacity_ofCapacity (Machine.continuationCapacity stackSize) _) ready
  have start : During (Code.ofImage image) prepared ⟨0, entered⟩ := ⟨agrees, [], holds⟩
  have lockstep := lockstepUnless (faithful_ofImage image)
  exact ⟨entered, rooted,
    fun n machine thread sequential threaded => (lockstep.iteration start sequential threaded).1,
    .of_ends rooted (lockstep.ends start)⟩

/-- An image whose function sets the return address of its caller to the offset of a stop. -/
def overwriting : Image where
  bytes := Instruction.assemble
    [.call .near (.relative 2), .ret, .exit, .load (-2) 3, .load (-1) 0, .ret]
  entry := 0
  entry_lt := by decide

theorem runs_compare_overwriting :
    ∃ prepared, Machine.prepare overwriting 0
        { Machine.ofStackSize 36 .upward with trace := some [] } = .ok () prepared ∧
      ∃ entered, Machine.onContinuations (Stack.push rootId) prepared = .ok () entered ∧
        (∀ n machine thread, iteration (Sequential.step overwriting) n prepared = some machine →
          iteration (step overwriting (Code.ofImage overwriting)) n ⟨0, entered⟩ = some thread →
          Agrees (Code.ofImage overwriting) machine thread) ∧
        Comparison overwriting (Code.ofImage overwriting) prepared entered :=
  ⟨_, rfl, runs_compare overwriting 0 36 .upward (some []) rfl⟩

end Threaded

end Tandem

import Tandem.Proofs.Machine.Accounts
import Tandem.Proofs.Threaded.Round

/-!
# The outstanding calls of a threaded run

Which calls of a threaded run are outstanding is a matter of its flow alone (`Threaded.Nesting`): a
call adds one, and a return into the image takes the newest one away. Nothing that the image writes
to the operand stack has a part in it. The continuation stack tells the same at every round
(`Threaded.Shadow`, `Threaded.Nesting.shadow`): calls push ids there, returns pop them, and no
instruction reaches it.
-/

namespace Tandem.Threaded

variable {image : Image} {code : Code} {thread next start : Thread} {op : Op}
  {instruction : Instruction} {flow : Flow} {machine after : Machine}

/-! ## Rounds that succeed -/

/-- The instruction that a thread is at succeeds and comes to `flow`. -/
structure Succeeds (image : Image) (code : Code) (thread : Thread) (op : Op)
    (instruction : Instruction) (flow : Flow) (after : Machine) : Prop where
  found : code.ops[thread.position]? = some op
  decoded : op.decoded = .ok instruction
  done : Machine.execute image op.offset instruction thread.machine = .ok flow after

/-- The ways for a flow to lead from an operation to the one at an index, with the machine that they
leave. -/
inductive Leads (code : Code) (op : Op) (machine : Machine) : Flow → Nat → Machine → Prop
  | next {index : Nat} (linked : op.next = some index) : Leads code op machine .next index machine
  | branch {target index : Nat} (linked : op.taken = some index) :
    Leads code op machine (.branch target) index machine
  | call {target index : Nat} {continuations : Stack} (linked : op.taken = some index)
    (pushed : Stack.push op.continuation machine.continuations = .ok () continuations) :
    Leads code op machine (.call target) index { machine with continuations }
  | toCaller {id : UInt32} {resume : Resume} {continuations : Stack}
    (popped : Stack.pop UInt32 machine.continuations = .ok id continuations)
    (named : code.resume? id = some resume) :
    Leads code op machine (.toCaller resume.returnOffset) resume.op { machine with continuations }

theorem follow_eq_ok {link : Option Nat} {offset index : Nat}
    (done : follow link offset machine = .ok index after) : link = some index ∧ after = machine := by
  cases link with
  | none => cases done
  | some place =>
    cases done
    exact ⟨rfl, rfl⟩

theorem onContinuations_eq_ok {α : Type} {action : Stack.Action α} {value : α}
    (done : Machine.onContinuations action machine = .ok value after) :
    ∃ continuations, action machine.continuations = .ok value continuations ∧
      after = { machine with continuations } := by
  unfold Machine.onContinuations at done
  cases acted : action machine.continuations with
  | ok value' continuations =>
    rw [acted] at done
    cases done
    exact ⟨continuations, rfl, rfl⟩
  | error fault continuations =>
    rw [acted] at done
    cases done

theorem leads_of_successor {index : Nat}
    (leads : successor code op flow machine = .ok (some index) after) :
    Leads code op machine flow index after := by
  cases flow with
  | next =>
    obtain ⟨_, _, followed, result⟩ := Action.bind_eq_ok.mp leads
    obtain ⟨linked, rfl⟩ := follow_eq_ok followed
    cases result
    exact .next linked
  | branch target =>
    obtain ⟨_, _, followed, result⟩ := Action.bind_eq_ok.mp leads
    obtain ⟨linked, rfl⟩ := follow_eq_ok followed
    cases result
    exact .branch linked
  | call target =>
    simp only [successor, Action.bind_eq_ok] at leads
    obtain ⟨_, _, followed, _, _, pushing, result⟩ := leads
    obtain ⟨linked, rfl⟩ := follow_eq_ok followed
    obtain ⟨continuations, pushed, rfl⟩ := onContinuations_eq_ok pushing
    cases result
    exact .call linked pushed
  | toCaller address =>
    obtain ⟨id, _, popping, rest⟩ := Action.bind_eq_ok.mp leads
    obtain ⟨continuations, popped, rfl⟩ := onContinuations_eq_ok popping
    cases named : code.resume? id with
    | none =>
      rw [named] at rest
      cases rest
    | some resume =>
      rw [named] at rest
      dsimp only at rest
      by_cases returns : resume.returnOffset = address
      · rw [if_pos returns] at rest
        cases rest
        rw [← returns]
        exact .toCaller popped named
      · rw [if_neg returns] at rest
        cases rest
  | toEngine =>
    obtain ⟨id, _, -, rest⟩ := Action.bind_eq_ok.mp leads
    by_cases root : id = rootId
    · rw [if_pos root] at rest
      cases rest
    · rw [if_neg root] at rest
      cases rest
  | halt => cases leads

/-- A return that ends a run has found the engine's id. -/
theorem pop_of_successor_toEngine
    (ends : successor code op .toEngine machine = .ok none after) :
    ∃ continuations, Stack.pop UInt32 machine.continuations = .ok rootId continuations ∧
      after = { machine with continuations } := by
  obtain ⟨id, _, popping, rest⟩ := Action.bind_eq_ok.mp ends
  obtain ⟨continuations, popped, rfl⟩ := onContinuations_eq_ok popping
  by_cases root : id = rootId
  · rw [if_pos root] at rest
    cases rest
    exact ⟨continuations, root ▸ popped, rfl⟩
  · rw [if_neg root] at rest
    cases rest

/-- A return into the image does not end a run. -/
theorem successor_toCaller_ne_none {address : Nat} :
    successor code op (.toCaller address) machine ≠ .ok none after := by
  intro ends
  obtain ⟨id, _, -, rest⟩ := Action.bind_eq_ok.mp ends
  cases named : code.resume? id with
  | none =>
    rw [named] at rest
    cases rest
  | some resume =>
    rw [named] at rest
    dsimp only at rest
    by_cases returns : resume.returnOffset = address
    · rw [if_pos returns] at rest
      cases rest
    · rw [if_neg returns] at rest
      cases rest

namespace Succeeds

/-- Instructions leave the continuation stack alone. -/
theorem continuations (succeeds : Succeeds image code thread op instruction flow after) :
    after.continuations = thread.machine.continuations :=
  congrArg Machine.Surroundings.continuations (Machine.surroundings_of_done succeeds.done)

theorem dispatch_eq (succeeds : Succeeds image code thread op instruction flow after) :
    dispatch image code op instruction thread.machine = successor code op flow after :=
  dispatch_of_done succeeds.done

/-- A round that goes on is one in which the flow of the instruction leads somewhere. -/
theorem leads (succeeds : Succeeds image code thread op instruction flow after)
    (goesOn : step image code thread = .running next) :
    Leads code op after flow next.position next.machine := by
  cases led : successor code op flow after with
  | error fault machine =>
    rw [step_of_error succeeds.found succeeds.decoded (succeeds.dispatch_eq.trans led)] at goesOn
    cases goesOn
  | ok link machine =>
    cases link with
    | none =>
      rw [step_of_none succeeds.found succeeds.decoded (succeeds.dispatch_eq.trans led)] at goesOn
      cases goesOn
    | some position =>
      rw [step_of_some succeeds.found succeeds.decoded (succeeds.dispatch_eq.trans led)] at goesOn
      cases goesOn
      exact leads_of_successor led

/-- A round that ends a run well is one in which the flow of the instruction leads nowhere. -/
theorem ends (succeeds : Succeeds image code thread op instruction flow after) {value : UInt32}
    {final : Thread} (stops : step image code thread = .done (.ok value) final) :
    successor code op flow after = .ok none final.machine := by
  cases led : successor code op flow after with
  | error fault machine =>
    rw [step_of_error succeeds.found succeeds.decoded (succeeds.dispatch_eq.trans led)] at stops
    cases stops
  | ok link machine =>
    cases link with
    | none =>
      rw [step_of_none succeeds.found succeeds.decoded (succeeds.dispatch_eq.trans led)] at stops
      cases stops
      rfl
    | some position =>
      rw [step_of_some succeeds.found succeeds.decoded (succeeds.dispatch_eq.trans led)] at stops
      cases stops

end Succeeds

/-- Only a round whose instruction succeeds goes on or ends well. -/
theorem succeeds_of_step (image : Image) (found : code.ops[thread.position]? = some op)
    (decoded : op.decoded = .ok instruction)
    (spared : ∀ fault final, step image code thread ≠ .done (.error fault) final) :
    ∃ flow after, Succeeds image code thread op instruction flow after := by
  cases done : Machine.execute image op.offset instruction thread.machine with
  | ok flow after => exact ⟨flow, after, found, decoded, done⟩
  | error fault after =>
    exact absurd (step_of_error found decoded (dispatch_of_failed done)) (spared _ _)

theorem succeeds_of_running (goesOn : step image code thread = .running next) :
    ∃ op instruction flow after, Succeeds image code thread op instruction flow after := by
  cases found : code.ops[thread.position]? with
  | none =>
    rw [step_of_missing found] at goesOn
    cases goesOn
  | some op =>
    cases decoded : op.decoded with
    | error fault =>
      rw [step_of_undecodable found decoded] at goesOn
      cases goesOn
    | ok instruction =>
      obtain ⟨flow, after, succeeds⟩ := succeeds_of_step image found decoded <| by
        intro fault final stops
        rw [goesOn] at stops
        cases stops
      exact ⟨op, instruction, flow, after, succeeds⟩

/-! ## Outstanding calls -/

/-- A call that has not returned yet. -/
structure Activation where
  /-- The call. -/
  op : Op
  /-- The frame pointer of the function that was called. -/
  frame : Nat

/-- The threads that a run comes to, with the calls that are outstanding there, the newest first. -/
inductive Nesting (image : Image) (code : Code) (start : Thread) : Thread → List Activation → Prop
  | start : Nesting image code start start []
  | step {thread next : Thread} {calls : List Activation} {op : Op} {instruction : Instruction}
    {flow : Flow} {after : Machine} (earlier : Nesting image code start thread calls)
    (succeeds : Succeeds image code thread op instruction flow after)
    (goesOn : Threaded.step image code thread = .running next) :
    Nesting image code start next (flow.outstanding ⟨op, after.frame⟩ calls)

/-- Every round has its outstanding calls. -/
theorem nesting_of_iteration {n : Nat} (reached : iteration (step image code) n start = some thread) :
    ∃ calls, Nesting image code start thread calls := by
  induction n generalizing thread with
  | zero =>
    cases reached
    exact ⟨[], .start⟩
  | succ n ih =>
    obtain ⟨before, reached, goesOn⟩ := iteration_succ_eq_some.mp reached
    obtain ⟨calls, earlier⟩ := ih reached
    obtain ⟨op, instruction, flow, after, succeeds⟩ := succeeds_of_running goesOn
    exact ⟨_, earlier.step succeeds goesOn⟩

variable {calls : List Activation}

/-- The ids of the outstanding calls, the newest first and the engine's last. -/
def ids (calls : List Activation) : List UInt32 := calls.map (·.op.continuation) ++ [rootId]

/-- What the continuation stack and the counters tell of the outstanding calls. -/
structure Shadow (code : Code) (thread : Thread) (calls : List Activation) : Prop where
  holds : Stack.Holds (ids calls) thread.machine.continuations
  balance : thread.machine.stats.calls = thread.machine.stats.returns + calls.length
  /-- Each of them is a call of the code. -/
  placed : ∀ call ∈ calls, ∃ (index : Nat) (resume : Resume),
    code.ops[index]? = some call.op ∧ call.op.resume? = some resume

/-- The newest id is that of the newest call, if there is a call. -/
theorem Shadow.pop {id : UInt32} {continuations : Stack} (shadow : Shadow code thread calls)
    (popped : Stack.pop UInt32 thread.machine.continuations = .ok id continuations) :
    (calls = [] ∧ id = rootId) ∨ ∃ newest older, calls = newest :: older ∧
      id = newest.op.continuation ∧ Stack.Holds (ids older) continuations := by
  have holds := shadow.holds
  cases calls with
  | nil =>
    rw [holds.pop.1] at popped
    cases popped
    exact .inl ⟨rfl, rfl⟩
  | cons newest older =>
    rw [holds.pop.1] at popped
    cases popped
    exact .inr ⟨newest, older, rfl, rfl, holds.pop.2⟩

/-- An id that names a way to go on is that of a call. -/
theorem Shadow.newest {id : UInt32} {resume : Resume} {continuations : Stack}
    (shadow : Shadow code thread calls)
    (popped : Stack.pop UInt32 thread.machine.continuations = .ok id continuations)
    (named : code.resume? id = some resume) :
    ∃ newest older, calls = newest :: older ∧ id = newest.op.continuation ∧
      Stack.Holds (ids older) continuations := by
  rcases shadow.pop popped with ⟨-, rfl⟩ | returned
  · -- The engine's id names no way to go on.
    cases named
  · exact returned

namespace Shadow

/-- A round that neither calls nor returns leaves all of it as it was. -/
theorem quiet (shadow : Shadow code thread calls) {position : Nat}
    (continuations : machine.continuations = thread.machine.continuations)
    (sameCalls : machine.stats.calls = thread.machine.stats.calls)
    (sameReturns : machine.stats.returns = thread.machine.stats.returns) :
    Shadow code ⟨position, machine⟩ calls where
  holds := continuations ▸ shadow.holds
  balance := by
    rw [sameCalls, sameReturns]
    exact shadow.balance
  placed := shadow.placed

/-- A round of a threaded run adds its call, or takes away the newest one, on the continuation stack
as well as on the account. -/
theorem step (shadow : Shadow code thread calls) (faithful : code.Faithful image)
    (succeeds : Succeeds image code thread op instruction flow after)
    (goesOn : Threaded.step image code thread = .running next) :
    Shadow code next (flow.outstanding ⟨op, after.frame⟩ calls) := by
  obtain ⟨position, machine⟩ := next
  obtain ⟨countedCalls, countedReturns⟩ := Machine.balance_of_done succeeds.done
  have kept := succeeds.continuations
  cases succeeds.leads goesOn with
  | next linked => exact shadow.quiet kept countedCalls countedReturns
  | branch linked => exact shadow.quiet kept countedCalls countedReturns
  | call linked pushed =>
    rw [kept] at pushed
    refine ⟨shadow.holds.push pushed, ?_, fun call member => ?_⟩
    · show after.stats.calls = after.stats.returns + _
      rw [countedCalls, countedReturns]
      exact Flow.balance shadow.balance (fun _ same => nomatch same)
    · rcases List.mem_cons.mp member with rfl | older
      · cases Machine.execute_completes succeeds.done with
        | call calls leads room frame stack =>
          have settled := faithful.settled _ _ succeeds.found
          obtain ⟨resume, names⟩ := settled.resume_of_call (calls ▸ succeeds.decoded)
          exact ⟨_, resume, succeeds.found, names⟩
      · exact shadow.placed call older
  | toCaller popped named =>
    rw [kept] at popped
    obtain ⟨newest, older, rfl, -, holds⟩ := shadow.newest popped named
    refine ⟨holds, ?_, fun call member => shadow.placed call (List.mem_cons_of_mem _ member)⟩
    show after.stats.calls = after.stats.returns + _
    rw [countedCalls, countedReturns]
    exact Flow.balance shadow.balance (fun _ _ => List.cons_ne_nil _ _)

/-- A return that goes on has a call to go back to. -/
theorem newest_of_toCaller {address : Nat} (shadow : Shadow code thread calls)
    (succeeds : Succeeds image code thread op instruction (.toCaller address) after)
    (goesOn : Threaded.step image code thread = .running next) :
    ∃ newest older, calls = newest :: older := by
  obtain ⟨position, machine⟩ := next
  cases succeeds.leads goesOn with
  | toCaller popped named =>
    rw [succeeds.continuations] at popped
    obtain ⟨newest, older, rfl, -⟩ := shadow.newest popped named
    exact ⟨newest, older, rfl⟩

end Shadow

/-- To begin with, no call is outstanding. -/
theorem shadow_of_prepared {argument : UInt32} {prepared entered : Machine}
    (ready : Machine.prepare image argument machine = .ok () prepared)
    (rooted : Machine.onContinuations (Stack.push rootId) prepared = .ok () entered) :
    Shadow code ⟨0, entered⟩ [] := by
  obtain ⟨-, rfl⟩ := Machine.prepare_eq_ok ready
  obtain ⟨continuations, pushed, rfl⟩ := onContinuations_eq_ok rooted
  exact ⟨(Stack.Holds.reset _).push pushed, rfl, fun _ member => nomatch member⟩

/-- The continuation stack and the counters tell the outstanding calls at every round. -/
theorem Nesting.shadow (nesting : Nesting image code start thread calls)
    (faithful : code.Faithful image) (first : Shadow code start []) : Shadow code thread calls := by
  induction nesting with
  | start => exact first
  | step earlier succeeds goesOn ih => exact ih.step faithful succeeds goesOn

end Tandem.Threaded

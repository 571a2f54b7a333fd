import Tandem.Proofs.Ending
import Tandem.Proofs.Machine.Flows

/-!
# The accounts of a run

A run counts what it does while it does it, and keeps records if it is told to. Both are checked here
against the list of the instructions that it has completed (`Strategy.completed`): what one more of
them does to the accounts is `Ledger.complete`, and at every boundary of a run the accounts are those
of the list so far (`Strategy.ledger_of_arrived`). The end of a run can start one more instruction
without completing it, which then is counted and not recorded. `Strategy.accounts_of_ended` says what
the accounts of a run that is over have to do with each other.
-/

namespace Tandem

/-! ## Completed instructions -/

/-- An instruction that was completed at a boundary, and the machine after it. -/
structure Completion where
  before : Boundary
  instruction : Instruction
  after : Machine

namespace Completion

/-- The record that a completed instruction leaves. -/
def record (completion : Completion) : Record :=
  completion.after.record completion.before.offset completion.instruction

/-- The instruction was a return from a frame whose header held the engine's mark. -/
def popsMark (completion : Completion) : Bool :=
  completion.before.machine.popsMark completion.instruction

end Completion

/-- What is completed at a boundary: its instruction, unless it does not decode or fails. -/
def Boundary.completion? (image : Image) (boundary : Boundary) : Option Completion :=
  match Instruction.decode image boundary.offset with
  | .error _ => none
  | .ok instruction =>
    match Machine.execute image boundary.offset instruction boundary.machine with
    | .error _ _ => none
    | .ok _ after => some ⟨boundary, instruction, after⟩

/-- The instructions that a run of a prepared machine completes in `rounds` rounds, in their
order. -/
def Strategy.completed (strategy : Strategy) (image : Image) (prepared : Machine) (rounds : Nat) :
    List Completion :=
  (List.range rounds).filterMap fun n =>
    (strategy.boundary? image prepared n).bind (Boundary.completion? image)

/-- The record is about an instruction of the image that `kind` is true of. -/
def Image.shows (image : Image) (kind : Instruction → Bool) (record : Record) : Bool :=
  match Instruction.decode image record.offset with
  | .error _ => false
  | .ok instruction => kind instruction

/-- A handler of a run fails with `fault`. -/
def Strategy.Raises (strategy : Strategy) (image : Image) (prepared : Machine) (fault : Fault) :
    Prop :=
  ∃ n boundary instruction left, strategy.boundary? image prepared n = some boundary ∧
    Instruction.decode image boundary.offset = .ok instruction ∧
    Machine.execute image boundary.offset instruction boundary.machine = .error fault left

/-- A run comes to an instruction at `offset` that does not decode or fails, with `fault`. -/
def Strategy.StopsAt (strategy : Strategy) (image : Image) (prepared : Machine) (offset : Nat)
    (fault : Fault) : Prop :=
  ∃ n boundary, strategy.boundary? image prepared n = some boundary ∧ boundary.offset = offset ∧
    (Instruction.decode image offset = .error fault ∨
      ∃ instruction left, Instruction.decode image offset = .ok instruction ∧
        Machine.execute image offset instruction boundary.machine = .error fault left)

variable {image : Image} {machine prepared after : Machine} {boundary : Boundary}
  {instruction : Instruction} {flow : Flow} {completed : List Completion}
  {start capacity started n rounds : Nat}

theorem Boundary.completion?_of_done
    (decoded : Instruction.decode image boundary.offset = .ok instruction)
    (done : Machine.execute image boundary.offset instruction boundary.machine = .ok flow after) :
    boundary.completion? image = some ⟨boundary, instruction, after⟩ := by
  simp only [completion?, decoded, done]

theorem Boundary.completion?_of_failed {fault : Fault}
    (decoded : Instruction.decode image boundary.offset = .ok instruction)
    (failed : Machine.execute image boundary.offset instruction boundary.machine =
      .error fault after) : boundary.completion? image = none := by
  simp only [completion?, decoded, failed]

theorem Boundary.completion?_of_undecodable {fault : Fault}
    (undecoded : Instruction.decode image boundary.offset = .error fault) :
    boundary.completion? image = none := by
  simp only [completion?, undecoded]

/-! ## The ledger -/

theorem countP_concat {α : Type} (kind : α → Bool) (list : List α) (last : α) :
    (list ++ [last]).countP kind = list.countP kind + (kind last).toNat := by
  rw [List.countP_append, List.countP_singleton]
  cases kind last <;> rfl

/-- If an element of a kind can only be the last one, there is one or none. -/
theorem countP_eq_last {α : Type} {kind : α → Bool} {list : List α}
    (inside : ∀ element ∈ list, kind element = false) (last? : Option α) :
    (list ++ last?.toList).countP kind = ((list ++ last?.toList).getLast?.any kind).toNat := by
  have none : list.countP kind = 0 :=
    List.countP_eq_zero.mpr fun element member => by rw [inside element member]; exact Bool.false_ne_true
  cases last? with
  | some last =>
    rw [Option.toList_some, countP_concat, none, List.getLast?_append, List.getLast?_singleton,
      Nat.zero_add]
    rfl
  | none =>
    rw [Option.toList_none, List.append_nil, none]
    cases found : list.getLast? with
    | none => rfl
    | some last =>
      rw [Option.any_some, inside last (List.mem_of_getLast? found)]
      rfl

/-- The accounts of a machine that has started `started` instructions and completed those in the
list. At first, the top of the operand stack was at `start`. -/
structure Ledger (image : Image) (start capacity : Nat) (completed : List Completion)
    (started : Nat) (machine : Machine) : Prop where
  decoded : ∀ completion ∈ completed,
    Instruction.decode image completion.before.offset = .ok completion.instruction
  trace : machine.trace = some (completed.map Completion.record).reverse
  instructions : machine.stats.instructions = started
  calls : machine.stats.calls = completed.countP (·.instruction.isCall)
  returns : machine.stats.returns + completed.countP Completion.popsMark =
    completed.countP (·.instruction.isReturn)
  depth : (start :: completed.map (·.after.stack.top)).max? = some machine.stats.maxDepth
  depth_le : machine.stats.maxDepth ≤ capacity

namespace Ledger

theorem records (ledger : Ledger image start capacity completed started machine) :
    machine.records = completed.map Completion.record := by
  rw [Machine.records, ledger.trace, Option.getD_some, List.reverse_reverse]

theorem start_le (ledger : Ledger image start capacity completed started machine) :
    start ≤ machine.stats.maxDepth :=
  (List.max?_eq_some_iff.mp ledger.depth).2 start (List.mem_cons_self ..)

/-- Records can be counted by what the image has at their offsets. -/
theorem countP_records (ledger : Ledger image start capacity completed started machine)
    (kind : Instruction → Bool) :
    machine.records.countP (image.shows kind) = completed.countP (kind ·.instruction) := by
  rw [ledger.records, List.countP_map]
  refine List.countP_congr fun completion member => ?_
  rw [Function.comp_apply, Image.shows, show completion.record.offset = completion.before.offset
    from rfl, ledger.decoded completion member]

/-- No account has to do with the way that a strategy keeps. -/
theorem elsewhere (ledger : Ledger image start capacity completed started machine) {cursor : Nat}
    {continuations : Stack} :
    Ledger image start capacity completed started { machine with cursor, continuations } :=
  { ledger with }

/-- One more instruction is completed. -/
theorem complete (ledger : Ledger image start capacity completed started boundary.machine)
    (decoded : Instruction.decode image boundary.offset = .ok instruction)
    (done : Machine.execute image boundary.offset instruction boundary.machine = .ok flow after)
    (inUse : after.stack.top ≤ capacity) :
    Ledger image start capacity (completed ++ [⟨boundary, instruction, after⟩]) (started + 1)
      after := by
  have counted := Machine.stats_execute image boundary.offset instruction boundary.machine
  rw [done] at counted
  dsimp only at counted
  have deepest : after.stats.maxDepth = max boundary.machine.stats.maxDepth after.stack.top := by
    rw [counted]
  refine
    { decoded := fun completion member => ?_
      trace := ?_
      instructions := ?_
      calls := ?_
      returns := ?_
      depth := ?_
      depth_le := ?_ }
  · rcases List.mem_append.mp member with earlier | last
    · exact ledger.decoded completion earlier
    · rw [List.mem_singleton.mp last]
      exact decoded
  · have recorded := congrArg Machine.Surroundings.trace (Machine.surroundings_of_done done)
    rw [show after.trace = _ from recorded]
    simp only [Machine.Surroundings.recorded, Machine.surroundings, ledger.trace, Option.map_some,
      List.map_append, List.reverse_append]
    rfl
  · rw [counted, ← ledger.instructions]
    cases flow <;> rfl
  · rw [Machine.calls_of_done done, ledger.calls, countP_concat]
  · have before := ledger.returns
    rw [countP_concat, countP_concat, Completion.popsMark]
    have returns := Machine.returns_of_done done
    dsimp only
    omega
  · have before := ledger.depth
    rw [List.max?_cons', Option.some_inj] at before
    rw [List.max?_cons', List.map_append, List.foldl_append, before, deepest]
    rfl
  · rw [deepest]
    exact Nat.max_le.mpr ⟨ledger.depth_le, inUse⟩

/-- An instruction that fails is counted, and that is all. -/
theorem fail {offset : Nat} {fault : Fault}
    (ledger : Ledger image start capacity completed started machine)
    (failed : Machine.execute image offset instruction machine = .error fault after) :
    Ledger image start capacity completed (started + 1) after := by
  have counted := Machine.stats_execute image offset instruction machine
  rw [failed] at counted
  dsimp only at counted
  have trace : after.trace = machine.trace :=
    congrArg Machine.Surroundings.trace (Machine.surroundings_of_failed failed)
  refine ⟨ledger.decoded, trace.trans ledger.trace, ?_, ?_, ?_, ?_, ?_⟩
  · rw [counted, ← ledger.instructions]
    rfl
  · rw [counted]
    exact ledger.calls
  · rw [counted]
    exact ledger.returns
  · rw [counted]
    exact ledger.depth
  · rw [counted]
    exact ledger.depth_le

end Ledger

/-- At the entry nothing is completed, and the deepest use is what was pushed by then. -/
theorem ledger_atEntry {stack : Stack} {frame : Nat} (fresh : machine.trace = some [])
    (top : stack.top = start) (inUse : stack.top ≤ capacity) :
    Ledger image start capacity [] 0 (machine.atEntry image frame stack) where
  decoded := fun _ member => nomatch member
  trace := fresh
  instructions := rfl
  calls := rfl
  returns := rfl
  depth := congrArg some top.symm
  depth_le := inUse

theorem ledger_of_prepared {argument : UInt32} (fresh : machine.trace = some [])
    (ready : Machine.prepare image argument machine = .ok () prepared) :
    Ledger image 20 machine.stack.capacity [] 0 prepared := by
  obtain ⟨room, rfl⟩ := Machine.prepare_eq_ok ready
  exact ledger_atEntry fresh (Stack.top_entered _ _) (Machine.bounded_entered room).top

/-! ## Runs -/

namespace Strategy

variable {strategy : Strategy} {argument : UInt32}

theorem completed_succ (strategy : Strategy) (image : Image) (prepared : Machine) (n : Nat) :
    strategy.completed image prepared (n + 1) = strategy.completed image prepared n ++
      ((strategy.boundary? image prepared n).bind (Boundary.completion? image)).toList := by
  rw [completed, List.range_succ, List.filterMap_append, ← completed, List.filterMap_cons]
  cases (strategy.boundary? image prepared n).bind (Boundary.completion? image) with
  | none => rfl
  | some completion => rfl

/-- After the last boundary, nothing is completed any more. -/
theorem completed_of_le (before : n ≤ rounds)
    (none : strategy.boundary? image prepared n = none) :
    strategy.completed image prepared rounds = strategy.completed image prepared n := by
  induction before with
  | refl => rfl
  | step later ih =>
    rw [completed_succ, boundary?_eq_none_of_le later none, ih, Option.bind_none, Option.toList_none,
      List.append_nil]

/-- The operand stack and the frame pointer of a prepared machine. -/
theorem placed_of_arrived (ready : Machine.prepare image argument machine = .ok () prepared)
    (arrived : strategy.boundary? image prepared n = some boundary) :
    Machine.Placed machine.stack.capacity boundary.machine.stack boundary.machine.frame := by
  induction n generalizing boundary with
  | zero =>
    obtain ⟨-, same⟩ := boundary?_zero ready arrived
    have placed := Machine.placed_of_prepared ready
    rw [same]
    exact placed
  | succ n ih =>
    obtain ⟨before, instruction, flow, arrived, passes⟩ := passes arrived
    obtain ⟨after, done, same⟩ := passes.done
    have placed := Machine.placed_of_completes (ih arrived) (Machine.execute_completes done)
    rw [same]
    exact placed

/-- At a boundary, the accounts are those of the instructions that were completed before it. None of
them returned to the engine. -/
theorem ledger_of_arrived (fresh : machine.trace = some [])
    (ready : Machine.prepare image argument machine = .ok () prepared)
    (arrived : strategy.boundary? image prepared n = some boundary) :
    Ledger image 20 machine.stack.capacity (strategy.completed image prepared n) n
        boundary.machine ∧
      ∀ completion ∈ strategy.completed image prepared n, completion.popsMark = false := by
  induction n generalizing boundary with
  | zero =>
    obtain ⟨-, same⟩ := boundary?_zero ready arrived
    rw [same]
    exact ⟨(ledger_of_prepared fresh ready).elsewhere, fun _ member => nomatch member⟩
  | succ n ih =>
    have placed := placed_of_arrived ready arrived
    obtain ⟨before, instruction, flow, arrived, passes⟩ := passes arrived
    obtain ⟨after, done, same⟩ := passes.done
    obtain ⟨ledger, inside⟩ := ih arrived
    rw [same] at placed ⊢
    rw [completed_succ, arrived, Option.bind_some,
      Boundary.completion?_of_done passes.decoded done, Option.toList_some]
    refine ⟨(ledger.complete passes.decoded done placed.bounded.top).elsewhere,
      fun completion member => ?_⟩
    rcases List.mem_append.mp member with earlier | last
    · exact inside completion earlier
    · rw [List.mem_singleton.mp last, Completion.popsMark, Bool.eq_false_iff]
      intro pops
      have leads := passes.leads
      rw [(Machine.popsMark_iff_toEngine done).mp pops] at leads
      cases leads

theorem length_completed (arrived : strategy.boundary? image prepared n = some boundary) :
    (strategy.completed image prepared n).length = n := by
  induction n generalizing boundary with
  | zero => rfl
  | succ n ih =>
    obtain ⟨before, instruction, flow, arrived, passes⟩ := passes arrived
    obtain ⟨after, done, -⟩ := passes.done
    rw [completed_succ, arrived, Option.bind_some, Boundary.completion?_of_done passes.decoded done,
      List.length_append, ih arrived]
    rfl

/-! ## Ends -/

variable {fuel : Nat} {outcome : Outcome Machine} {fault : Fault}

/-- What a run has completed by its end. -/
theorem EndsAt.completed_eq (endsAt : strategy.EndsAt image prepared n boundary outcome)
    (inside : n < fuel) :
    strategy.completed image prepared fuel =
      strategy.completed image prepared n ++ (boundary.completion? image).toList := by
  rw [completed_of_le inside endsAt.last, completed_succ, endsAt.arrived, Option.bind_some]

/-- A run fails over an instruction at its last boundary only. -/
theorem EndsAt.raises_iff (endsAt : strategy.EndsAt image prepared n boundary outcome) :
    strategy.Raises image prepared fault ↔
      ∃ instruction left, Instruction.decode image boundary.offset = .ok instruction ∧
        Machine.execute image boundary.offset instruction boundary.machine = .error fault left := by
  constructor
  · rintro ⟨m, boundary', instruction, left, arrived, decoded, failed⟩
    obtain ⟨final, ended⟩ := dispatch_of_failed arrived decoded failed
    have last := boundary?_eq_none_of_dispatch ended
    obtain rfl : m = n := by
      rcases Nat.lt_trichotomy m n with before | same | later
      · have none := boundary?_eq_none_of_le before last
        rw [endsAt.arrived] at none
        cases none
      · exact same
      · have none := boundary?_eq_none_of_le later endsAt.last
        rw [arrived] at none
        cases none
    cases arrived.symm.trans endsAt.arrived
    exact ⟨instruction, left, decoded, failed⟩
  · rintro ⟨instruction, left, decoded, failed⟩
    exact ⟨n, boundary, instruction, left, endsAt.arrived, decoded, failed⟩

/-- The accounts at the end of a run: one more instruction was started than completed exactly if it
has failed. -/
structure Closes (strategy : Strategy) (image : Image) (prepared : Machine) (capacity : Nat)
    (completed : List Completion) (started : Nat) (outcome : Outcome Machine) : Prop where
  ledger : Ledger image 20 capacity completed started outcome.state
  marks : completed.countP Completion.popsMark = (completed.getLast?.any Completion.popsMark).toNat
  started : (started = completed.length ∧ ∀ fault, ¬strategy.Raises image prepared fault) ∨
    (started = completed.length + 1 ∧
      ∃ fault, outcome.result = .error fault ∧ strategy.Raises image prepared fault)

/-- A run can end after its last instruction was completed. -/
theorem EndsAt.closes_of_done (endsAt : strategy.EndsAt image prepared n boundary outcome)
    (fresh : machine.trace = some [])
    (ready : Machine.prepare image argument machine = .ok () prepared) (inside : n < fuel)
    {continuations : Stack} (decoded : Instruction.decode image boundary.offset = .ok instruction)
    (done : Machine.execute image boundary.offset instruction boundary.machine = .ok flow after)
    (left : outcome.state = { after with continuations }) :
    strategy.Closes image prepared machine.stack.capacity
      (strategy.completed image prepared fuel) (n + 1) outcome := by
  obtain ⟨ledger, unmarked⟩ := ledger_of_arrived fresh ready endsAt.arrived
  have placed := Machine.placed_of_completes (placed_of_arrived ready endsAt.arrived)
    (Machine.execute_completes done)
  have marks := countP_eq_last unmarked (some ⟨boundary, instruction, after⟩)
  rw [endsAt.completed_eq inside, Boundary.completion?_of_done decoded done]
  refine ⟨?_, marks, .inl ⟨?_, fun fault raises => ?_⟩⟩
  · rw [left]
    exact (ledger.complete decoded done placed.bounded.top).elsewhere
  · rw [List.length_append, length_completed endsAt.arrived]
    rfl
  · obtain ⟨instruction', left, decoded', failed⟩ := endsAt.raises_iff.mp raises
    cases decoded.symm.trans decoded'
    rw [done] at failed
    cases failed

/-- It can end with nothing more completed. -/
theorem EndsAt.completed_of_none (endsAt : strategy.EndsAt image prepared n boundary outcome)
    (inside : n < fuel) (none : boundary.completion? image = .none) :
    strategy.completed image prepared fuel = strategy.completed image prepared n := by
  rw [endsAt.completed_eq inside, none, Option.toList_none, List.append_nil]

theorem EndsAt.closes (endsAt : strategy.EndsAt image prepared n boundary outcome)
    (fresh : machine.trace = some [])
    (ready : Machine.prepare image argument machine = .ok () prepared) (inside : n < fuel) :
    ∃ started, strategy.Closes image prepared machine.stack.capacity
      (strategy.completed image prepared fuel) started outcome := by
  obtain ⟨ledger, unmarked⟩ := ledger_of_arrived fresh ready endsAt.arrived
  have length := length_completed endsAt.arrived
  have marks := countP_eq_last unmarked none
  rw [Option.toList_none, List.append_nil] at marks
  have ends := endsAt.ends
  cases ends with
  | undecodable undecoded =>
    rw [endsAt.completed_of_none inside (Boundary.completion?_of_undecodable undecoded)]
    refine ⟨n, ledger, marks, .inl ⟨length.symm, fun fault raises => ?_⟩⟩
    obtain ⟨instruction, left, decoded, -⟩ := endsAt.raises_iff.mp raises
    rw [undecoded] at decoded
    cases decoded
  | failed decoded failed =>
    rw [endsAt.completed_of_none inside (Boundary.completion?_of_failed decoded failed)]
    exact ⟨n + 1, ledger.fail failed, marks,
      .inr ⟨by rw [length], _, rfl, endsAt.raises_iff.mpr ⟨_, _, decoded, failed⟩⟩⟩
  | completed decoded done =>
    exact ⟨n + 1, endsAt.closes_of_done fresh ready inside decoded done rfl⟩
  | refused decoded done =>
    exact ⟨n + 1, endsAt.closes_of_done fresh ready inside decoded done rfl⟩

theorem closes_of_ended (fresh : machine.trace = some [])
    (ready : Machine.prepare image argument machine = .ok () prepared)
    (ended : strategy.dispatch image fuel prepared = some outcome) :
    ∃ started, strategy.Closes image prepared machine.stack.capacity
      (strategy.completed image prepared fuel) started outcome := by
  rcases ends ended with ⟨n, boundary, inside, endsAt⟩ | ⟨-, none, fault, rfl⟩
  · exact endsAt.closes fresh ready inside
  · rw [completed_of_le (Nat.zero_le fuel) none]
    refine ⟨0, ledger_of_prepared fresh ready, rfl, .inl ⟨rfl, fun fault raises => ?_⟩⟩
    obtain ⟨m, boundary, _, _, arrived, -⟩ := raises
    rw [boundary?_eq_none_of_le (Nat.zero_le m) none] at arrived
    cases arrived

/-! ## The cursor -/

/-- A sequential run leaves the cursor at its last boundary. -/
theorem EndsAt.cursor (endsAt : sequential.EndsAt image prepared n boundary outcome) :
    outcome.state.cursor = boundary.offset := by
  obtain ⟨current, -, rfl⟩ := boundary?_sequential.mp endsAt.arrived
  have ends := endsAt.ends
  cases ends with
  | undecodable undecoded => rfl
  | failed decoded failed =>
    exact congrArg Machine.Surroundings.cursor (Machine.surroundings_of_failed failed)
  | completed decoded done =>
    exact congrArg Machine.Surroundings.cursor (Machine.surroundings_of_done done)

/-- That is where the last instruction was completed, if the run ends well. -/
theorem EndsAt.last_of_ok {value : UInt32}
    (endsAt : strategy.EndsAt image prepared n boundary outcome) (inside : n < fuel)
    (well : outcome.result = .ok value) :
    ∃ completion, (strategy.completed image prepared fuel).getLast? = some completion ∧
      completion.before = boundary := by
  have ends := endsAt.ends
  cases ends with
  | undecodable undecoded => cases well
  | failed decoded failed => cases well
  | completed decoded done =>
    rw [endsAt.completed_eq inside, Boundary.completion?_of_done decoded done, Option.toList_some,
      List.getLast?_append, List.getLast?_singleton]
    exact ⟨_, rfl, rfl⟩
  | refused decoded done => cases well

/-- Otherwise it is where a sequential run has stopped. -/
theorem EndsAt.stops_of_error (endsAt : sequential.EndsAt image prepared n boundary outcome)
    (badly : outcome.result = .error fault) :
    sequential.StopsAt image prepared boundary.offset fault := by
  have ends := endsAt.ends
  cases ends with
  | undecodable undecoded =>
    cases badly
    exact ⟨n, boundary, endsAt.arrived, rfl, .inl undecoded⟩
  | failed decoded failed =>
    cases badly
    exact ⟨n, boundary, endsAt.arrived, rfl, .inr ⟨_, _, decoded, failed⟩⟩
  | completed decoded done => cases badly

/-! ## Accounts -/

/-- What the accounts of a run that is over have to do with each other, and with what the run has
completed. -/
structure Accounts (strategy : Strategy) (image : Image) (prepared : Machine) (capacity : Nat)
    (completed : List Completion) (outcome : Outcome Machine) : Prop where
  records : outcome.state.records = completed.map Completion.record
  decoded : ∀ record ∈ outcome.state.records, ∃ instruction,
    Instruction.decode image record.offset = .ok instruction ∧
      record.mnemonic = instruction.mnemonic ∧ record.operands = instruction.operandText
  /-- Every instruction is counted, and recorded unless it has failed. -/
  instructions : outcome.state.stats.instructions = outcome.state.records.length ∨
    outcome.state.stats.instructions = outcome.state.records.length + 1
  raised : outcome.state.stats.instructions = outcome.state.records.length + 1 ↔
    ∃ fault, outcome.result = .error fault ∧ strategy.Raises image prepared fault
  calls : outcome.state.stats.calls =
    outcome.state.records.countP (image.shows Instruction.isCall)
  /-- A return to the engine is recorded and not counted, and it is the last instruction. -/
  returns : outcome.state.records.countP (image.shows Instruction.isReturn) =
    outcome.state.stats.returns + (completed.getLast?.any Completion.popsMark).toNat
  depth : (prepared.stack.top :: completed.map (·.after.stack.top)).max? =
    some outcome.state.stats.maxDepth
  depth_ge : 20 ≤ outcome.state.stats.maxDepth
  depth_le : outcome.state.stats.maxDepth ≤ capacity
  cursor_of_ok : strategy = .sequential → ∀ value, outcome.result = .ok value →
    ∃ record, outcome.state.records.getLast? = some record ∧ outcome.state.cursor = record.offset
  cursor_of_error : strategy = .sequential → ∀ fault, outcome.result = .error fault →
    strategy.StopsAt image prepared outcome.state.cursor fault

/-- **The accounts of a run balance.** They do for every run that ends, by either strategy, from a
machine that was prepared with an empty trace. -/
theorem accounts_of_ended (fresh : machine.trace = some [])
    (ready : Machine.prepare image argument machine = .ok () prepared)
    (ended : strategy.dispatch image fuel prepared = some outcome) :
    strategy.Accounts image prepared machine.stack.capacity
      (strategy.completed image prepared fuel) outcome := by
  obtain ⟨started, ledger, marks, closed⟩ := closes_of_ended fresh ready ended
  have length : outcome.state.records.length = (strategy.completed image prepared fuel).length := by
    rw [ledger.records, List.length_map]
  have started_eq := ledger.instructions
  refine
    { records := ledger.records
      decoded := fun record member => ?_
      instructions := ?_
      raised := ⟨fun one => ?_, fun ⟨fault, _, raises⟩ => ?_⟩
      calls := ?_
      returns := ?_
      depth := ?_
      depth_ge := ledger.start_le
      depth_le := ledger.depth_le
      cursor_of_ok := fun sequential value well => ?_
      cursor_of_error := fun sequential fault badly => ?_ }
  · rw [ledger.records] at member
    obtain ⟨completion, belongs, rfl⟩ := List.mem_map.mp member
    exact ⟨completion.instruction, ledger.decoded completion belongs, rfl, rfl⟩
  · rcases closed with ⟨all, -⟩ | ⟨one, -⟩ <;> omega
  · rcases closed with ⟨all, -⟩ | ⟨-, raised⟩
    · omega
    · exact raised
  · rcases closed with ⟨-, never⟩ | ⟨one, -⟩
    · exact absurd raises (never fault)
    · omega
  · rw [ledger.calls, ledger.countP_records]
  · rw [ledger.countP_records, ← marks, ledger.returns]
  · have start : prepared.stack.top = 20 := by
      obtain ⟨-, rfl⟩ := Machine.prepare_eq_ok ready
      exact Stack.top_entered _ _
    rw [start]
    exact ledger.depth
  · subst sequential
    rcases ends ended with ⟨n, boundary, inside, endsAt⟩ | ⟨threaded, -⟩
    · obtain ⟨completion, last, rfl⟩ := endsAt.last_of_ok inside well
      refine ⟨completion.record, ?_, endsAt.cursor⟩
      rw [ledger.records, List.getLast?_map, last, Option.map_some]
    · cases threaded
  · subst sequential
    rcases ends ended with ⟨n, boundary, inside, endsAt⟩ | ⟨threaded, -⟩
    · rw [endsAt.cursor]
      exact endsAt.stops_of_error badly
    · cases threaded

end Strategy

/-- An image that calls a return, and then drops a local that it does not have. -/
def overdrawing : Image where
  bytes := Instruction.assemble [.call .near (.relative 1), .pop .word, .ret]
  entry := 0
  entry_lt := by decide

/-- A machine that keeps records. -/
def recording : Machine := { Machine.ofStackSize 64 .downward with trace := some [] }

/-- Three instructions are counted, and two recorded. -/
theorem Strategy.accounts_of_ended_overdrawing :
    ∃ prepared outcome, Machine.prepare overdrawing 0 recording = .ok () prepared ∧
      threaded.dispatch overdrawing 3 prepared = some outcome ∧
      outcome.state.stats = ⟨3, 1, 1, 36⟩ ∧
      threaded.Accounts overdrawing prepared 64 (threaded.completed overdrawing prepared 3)
        outcome := by
  have ready : Machine.prepare overdrawing 0 recording =
      .ok () (recording.atEntry overdrawing 20 (recording.stack.reset.entered 0)) :=
    Machine.prepare_of_room (by decide)
  have counted : (threaded.dispatch overdrawing 3
      (recording.atEntry overdrawing 20 (recording.stack.reset.entered 0))).map (·.state.stats) =
        some ⟨3, 1, 1, 36⟩ := by
    decide +kernel
  obtain ⟨outcome, ended, stats⟩ := Option.map_eq_some_iff.mp counted
  exact ⟨_, outcome, ready, ended, stats, accounts_of_ended rfl ready ended⟩

end Tandem

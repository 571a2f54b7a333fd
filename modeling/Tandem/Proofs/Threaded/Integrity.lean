import Tandem.Instruction.Encoding
import Tandem.Proofs.Machine.Returns
import Tandem.Proofs.Threaded.Nesting

/-!
# Return integrity

An image can write what it likes over its frames, so the header that a return unwinds need not be
the one that its call has pushed. A threaded run does not go by it alone: the return has to fit the
newest continuation id as well, and no image reaches the ids. So a return that goes on goes on behind
the newest outstanding call, and a return that ends the run well finds no call outstanding
(`Threaded.return_integrity`). Nothing is assumed of what the image writes.
-/

namespace Tandem.Threaded

variable {image : Image} {code : Code} {thread next start : Thread} {op : Op}
  {instruction : Instruction} {flow : Flow} {machine after : Machine} {calls : List Activation}

/-- The instruction that a thread is at is a return. -/
def AtReturn (code : Code) (thread : Thread) : Prop :=
  ∃ op instruction count, code.ops[thread.position]? = some op ∧ op.decoded = .ok instruction ∧
    instruction.released? = some count

/-- What the continuation stack guarantees at a round with some outstanding calls. -/
structure Integrity (image : Image) (code : Code) (thread : Thread) (calls : List Activation) :
    Prop where
  /-- It holds the ids of these calls, the newest on top, and the engine's id below them. -/
  ids : Stack.Holds (calls.map (·.op.continuation) ++ [rootId]) thread.machine.continuations
  /-- No call has the engine's id. -/
  named : ∀ call ∈ calls, call.op.continuation ≠ rootId
  balance : thread.machine.stats.calls = thread.machine.stats.returns + calls.length
  top : thread.machine.continuations.top =
    4 * (1 + thread.machine.stats.calls - thread.machine.stats.returns)
  /-- A return that goes on does so behind the newest call, where its header says. -/
  resumes : AtReturn code thread → ∀ next, step image code thread = .running next →
    ∃ newest older saved address, calls = newest :: older ∧
      Stands code.ops newest.op.nextOffset next.position ∧
      Frame.Header thread.machine.stack thread.machine.frame saved address ∧
      address.toNat = newest.op.nextOffset
  /-- A return that ends the run well is one that no call waits for. -/
  halts : AtReturn code thread → ∀ value final, step image code thread = .done (.ok value) final →
    calls = []
  /-- Whatever the instruction has come to, there is an id to pop. -/
  pops : ∀ op instruction flow after, Succeeds image code thread op instruction flow after →
    ∃ id rest, Stack.pop UInt32 after.continuations = .ok id rest

/-- The flow of a return that has succeeded leaves the function. -/
theorem Succeeds.leaves (succeeds : Succeeds image code thread op instruction flow after)
    (returns : AtReturn code thread) : flow.Leaves := by
  obtain ⟨op', instruction', count, found, decoded, releases⟩ := returns
  obtain rfl : op' = op := Option.some.inj (found.symm.trans succeeds.found)
  obtain rfl : instruction' = instruction := Except.ok.inj (decoded.symm.trans succeeds.decoded)
  exact Machine.leaves_of_returned releases succeeds.done

/-- The return address of an unwound frame is in its header. -/
theorem Succeeds.header {address : Nat}
    (succeeds : Succeeds image code thread op instruction (.toCaller address) after) :
    ∃ saved word, Frame.Header thread.machine.stack thread.machine.frame saved word ∧
      word.toNat = address := by
  cases Machine.execute_completes succeeds.done with
  | toCaller returned inner => exact ⟨_, _, returned.unwinds.header, rfl⟩

/-- A return that ends a run well has left the image and popped the engine's id. -/
theorem AtReturn.toEngine {value : UInt32} {final : Thread} (returns : AtReturn code thread)
    (ends : step image code thread = .done (.ok value) final) :
    ∃ op instruction after continuations,
      Succeeds image code thread op instruction .toEngine after ∧
      Stack.pop UInt32 after.continuations = .ok rootId continuations ∧
      final.machine = { after with continuations } := by
  obtain ⟨op, instruction, count, found, decoded, releases⟩ := returns
  obtain ⟨flow, after, succeeds⟩ := succeeds_of_step image found decoded <| by
    intro fault final failed
    rw [ends] at failed
    cases failed
  have leaves := Machine.leaves_of_returned releases succeeds.done
  have last := succeeds.ends ends
  cases flow with
  | toEngine =>
    obtain ⟨continuations, popped, result⟩ := pop_of_successor_toEngine last
    exact ⟨op, instruction, after, continuations, succeeds, popped, result⟩
  | toCaller address => exact absurd last successor_toCaller_ne_none
  | next => cases leaves
  | branch target => cases leaves
  | call target => cases leaves
  | halt => cases leaves

namespace Shadow

/-- A call that is outstanding has its own id, as long as there are ids for all calls. -/
theorem names (shadow : Shadow (Code.ofImage image) thread calls)
    (few : (Code.ofImage image).resumes.size < UInt32.size) {call : Activation}
    (member : call ∈ calls) :
    ∃ resume, (Code.ofImage image).resume? call.op.continuation = some resume ∧
      resume.returnOffset = call.op.nextOffset := by
  obtain ⟨index, resume, found, isCall⟩ := shadow.placed call member
  exact ⟨resume, resume?_continuation few found isCall, Op.returnOffset_of_resume? isCall⟩

/-- A return goes on behind the newest call. -/
theorem resumes (shadow : Shadow (Code.ofImage image) thread calls)
    (few : (Code.ofImage image).resumes.size < UInt32.size)
    (returns : AtReturn (Code.ofImage image) thread)
    (goesOn : Threaded.step image (Code.ofImage image) thread = .running next) :
    ∃ newest older saved address, calls = newest :: older ∧
      Stands (Code.ofImage image).ops newest.op.nextOffset next.position ∧
      Frame.Header thread.machine.stack thread.machine.frame saved address ∧
      address.toNat = newest.op.nextOffset := by
  obtain ⟨op, instruction, flow, after, succeeds⟩ := succeeds_of_running goesOn
  have leaves := succeeds.leaves returns
  obtain ⟨position, machine⟩ := next
  cases succeeds.leads goesOn with
  | next linked => cases leaves
  | branch linked => cases leaves
  | call linked pushed => cases leaves
  | @toCaller id resume continuations popped named =>
    obtain ⟨saved, address, header, value⟩ := succeeds.header
    have stands := (faithful_ofImage image).resumes id resume named
    rw [succeeds.continuations] at popped
    obtain ⟨newest, older, rfl, rfl, -⟩ := shadow.newest popped named
    obtain ⟨resume', named', behind⟩ := shadow.names few (List.mem_cons_self ..)
    obtain rfl : resume' = resume := Option.some.inj (named'.symm.trans named)
    rw [behind] at stands value
    exact ⟨newest, older, saved, address, rfl, stands, header, value⟩

/-- A return that ends the run well has found the engine's id, which lies below all others. -/
theorem halts (shadow : Shadow (Code.ofImage image) thread calls)
    (few : (Code.ofImage image).resumes.size < UInt32.size)
    (returns : AtReturn (Code.ofImage image) thread) {value : UInt32} {final : Thread}
    (ends : Threaded.step image (Code.ofImage image) thread = .done (.ok value) final) :
    calls = [] := by
  obtain ⟨op, instruction, after, continuations, succeeds, popped, -⟩ := returns.toEngine ends
  rw [succeeds.continuations] at popped
  rcases shadow.pop popped with ⟨none, -⟩ | ⟨newest, older, rfl, root, -⟩
  · exact none
  · obtain ⟨resume, named, -⟩ := shadow.names few (List.mem_cons_self ..)
    rw [← root] at named
    cases named

theorem integrity (shadow : Shadow (Code.ofImage image) thread calls)
    (few : (Code.ofImage image).resumes.size < UInt32.size) :
    Integrity image (Code.ofImage image) thread calls where
  ids := shadow.holds
  named call member root := by
    obtain ⟨resume, named, -⟩ := shadow.names few member
    rw [root] at named
    cases named
  balance := shadow.balance
  top := by
    have balance := shadow.balance
    rw [shadow.holds.top, ids, List.length_append, List.length_map, List.length_singleton]
    omega
  resumes returns _ goesOn := shadow.resumes few returns goesOn
  halts returns _ _ ends := shadow.halts few returns ends
  pops op instruction flow after succeeds := by
    have holds := shadow.holds
    rw [← succeeds.continuations] at holds
    cases calls with
    | nil => exact ⟨_, _, holds.pop.1⟩
    | cons newest older => exact ⟨_, _, holds.pop.1⟩

end Shadow

/-- The calls that are outstanding at a round of a threaded run have their ids on the continuation
stack, and returns go by them. -/
theorem return_integrity {argument : UInt32} {stackSize : Nat} {prepared : Machine}
    (few : (Code.ofImage image).resumes.size < UInt32.size)
    (size : machine.continuations.capacity = Machine.continuationCapacity stackSize)
    (ready : Machine.prepare image argument machine = .ok () prepared) :
    ∃ entered, Machine.onContinuations (Stack.push rootId) prepared = .ok () entered ∧
      (∀ n thread, iteration (step image (Code.ofImage image)) n ⟨0, entered⟩ = some thread →
        ∃ calls, Nesting image (Code.ofImage image) ⟨0, entered⟩ thread calls) ∧
      ∀ thread calls, Nesting image (Code.ofImage image) ⟨0, entered⟩ thread calls →
        Integrity image (Code.ofImage image) thread calls := by
  obtain ⟨entered, rooted, -⟩ := enters size ready
  refine ⟨entered, rooted, fun n thread reached => nesting_of_iteration reached, ?_⟩
  intro thread calls nesting
  exact (nesting.shadow (faithful_ofImage image) (shadow_of_prepared ready rooted)).integrity few

/-- An image whose inner function sets the return address of its caller to the engine's mark. -/
def forging : Image where
  bytes := Instruction.assemble
    [.call .near (.relative 1), .exit, .call .near (.relative 1), .ret, .load (-2) 0xFFFFFFFF,
      .load (-1) 0xFFFFFFFF, .ret]
  entry := 0
  entry_lt := by decide

theorem return_integrity_forging :
    ∃ prepared, Machine.prepare forging 0 (Machine.ofStackSize 64 .upward) = .ok () prepared ∧
      ∃ entered, Machine.onContinuations (Stack.push rootId) prepared = .ok () entered ∧
        (∀ n thread, iteration (step forging (Code.ofImage forging)) n ⟨0, entered⟩ = some thread →
          ∃ calls, Nesting forging (Code.ofImage forging) ⟨0, entered⟩ thread calls) ∧
        ∀ thread calls, Nesting forging (Code.ofImage forging) ⟨0, entered⟩ thread calls →
          Integrity forging (Code.ofImage forging) thread calls := by
  obtain ⟨prepared, ready⟩ := Machine.prepare_ofStackSize forging 0 .upward (show 20 ≤ 64 by decide)
  exact ⟨prepared, ready, return_integrity (by decide +kernel)
    (Machine.continuationsCapacity_ofStackSize 64 .upward) ready⟩

end Tandem.Threaded

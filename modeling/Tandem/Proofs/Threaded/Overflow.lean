import Tandem.Instruction.Encoding
import Tandem.Proofs.Machine.Calls
import Tandem.Proofs.Threaded.Nesting

/-!
# Room on the continuation stack

The continuation stack has room for one id for each frame header that the operand stack can hold.
That is enough as long as no function overwrites a frame pointer that a caller has saved: the frames
of the outstanding calls then lie one above the other, and there is always room for one more id
(`Threaded.continuations_keep_room`). Return addresses do not matter for this.

An image can go beyond it. A function that lowers the frame pointer which its caller has saved sends
the run back to an older frame while the id of the younger call stays outstanding; from there the
operand stack has room for calls that the continuation stack cannot count
(`Threaded.stacking_overflows`).
-/

namespace Tandem.Threaded

variable {image : Image} {code : Code} {stackSize : Nat} {thread next start : Thread} {op : Op}
  {instruction : Instruction} {flow : Flow} {machine after : Machine} {calls : List Activation}

/-- The instruction does not write a slot that overlaps the frame pointer in the header of one of some
calls. -/
def WritesApart (instruction : Instruction) (machine : Machine) (calls : List Activation) : Prop :=
  ∀ slot position, instruction.writtenSlot? = some slot →
    Frame.slotPosition machine.frame machine.stack.top slot = some position →
    ∀ call ∈ calls, position + Frame.slotSize ≤ call.frame - Frame.headerSize ∨
      call.frame - 8 ≤ position

/-- No instruction that a run from `start` executes writes over the frame pointer in the header of an
outstanding call. -/
def SparesPointers (image : Image) (code : Code) (start : Thread) : Prop :=
  ∀ thread calls op instruction flow after, Nesting image code start thread calls →
    Succeeds image code thread op instruction flow after →
    WritesApart instruction thread.machine calls

/-- The frames of the outstanding calls lie on the operand stack, as the saved pointers tell. -/
structure Laid (stackSize : Nat) (machine : Machine) (calls : List Activation) : Prop where
  linked : Frame.Linked machine.stack (calls.map Activation.frame) machine.frame
  below : machine.frame ≤ machine.stack.top
  inUse : machine.stack.top ≤ machine.stack.capacity
  capacity : machine.stack.capacity = stackSize

/-- Following a flow leaves the operand stack alone, and no id is kept that there is no room for. -/
theorem Leads.kept {index : Nat} (leads : Leads code op machine flow index after) :
    after.stack = machine.stack ∧ after.frame = machine.frame ∧
      after.continuations.capacity = machine.continuations.capacity := by
  cases leads with
  | next linked => exact ⟨rfl, rfl, rfl⟩
  | branch linked => exact ⟨rfl, rfl, rfl⟩
  | call linked pushed =>
    obtain ⟨-, rfl⟩ := Stack.push_eq_ok pushed
    exact ⟨rfl, rfl, Stack.capacity_append _ _⟩
  | toCaller popped named =>
    obtain ⟨-, -, rfl⟩ := Stack.pop_eq_ok popped
    exact ⟨rfl, rfl, rfl⟩

/-- A call that has pushed its header knows where to go on. -/
theorem Succeeds.taken {destination : Nat} (faithful : code.Faithful image)
    (succeeds : Succeeds image code thread op instruction (.call destination) after) :
    ∃ index, op.taken = some index := by
  cases Machine.execute_completes succeeds.done with
  | call isCall resolved _ _ _ =>
    have settled := faithful.settled _ _ succeeds.found
    obtain ⟨index, linked, -⟩ :=
      settled.taken_eq_some succeeds.decoded (congrArg Instruction.target? isCall) resolved
    exact ⟨index, linked⟩

/-- The continuation stack has one size in a run. -/
theorem Nesting.capacity (nesting : Nesting image code start thread calls) :
    thread.machine.continuations.capacity = start.machine.continuations.capacity := by
  induction nesting with
  | start => rfl
  | step earlier succeeds goesOn ih =>
    rw [(succeeds.leads goesOn).kept.2.2, succeeds.continuations, ih]

namespace Laid

theorem congr (laid : Laid stackSize machine calls) (stack : after.stack = machine.stack)
    (frame : after.frame = machine.frame) : Laid stackSize after calls := by
  obtain ⟨linked, below, inUse, capacity⟩ := laid
  rw [← stack, ← frame] at linked below
  rw [← stack] at inUse capacity
  exact ⟨linked, below, inUse, capacity⟩

/-- An instruction that neither calls nor returns. -/
theorem reworks (laid : Laid stackSize machine calls) (frame : after.frame = machine.frame)
    (stack : Machine.Reworks instruction machine.frame machine.stack after.stack)
    (spares : WritesApart instruction machine calls) : Laid stackSize after calls := by
  obtain ⟨linked, below, inUse, rfl⟩ := laid
  obtain ⟨capacity, inUse', below'⟩ := stack.within below inUse
  refine ⟨?_, frame ▸ below', inUse', capacity⟩
  rw [frame]
  refine linked.congr fun pointer member index low high => ?_
  have := linked.le_current member
  refine stack.byte_eq below inUse (by omega) fun slot position writes found => ?_
  obtain ⟨call, outstanding, rfl⟩ := List.mem_map.mp member
  have := spares slot position writes found call outstanding
  omega

/-- A call lays its frame on top of the others. -/
theorem call (laid : Laid stackSize machine calls) (host : stackSize < UInt64.size)
    {returnAddress : UInt64} (room : Frame.headerSize ≤ machine.stack.available)
    (frame : after.frame = machine.stack.top + Frame.headerSize)
    (stack : after.stack = Frame.pushed machine.stack machine.frame returnAddress) :
    Laid stackSize after (⟨op, after.frame⟩ :: calls) := by
  obtain ⟨linked, below, inUse, rfl⟩ := laid
  refine ⟨?_, ?_, ?_, ?_⟩
  · rw [frame, stack]
    exact linked.push below (by omega) room
  · rw [frame, stack, Frame.top_pushed]
  · rw [stack, Frame.top_pushed, Frame.capacity_pushed]
    unfold Stack.available at room
    omega
  · rw [stack, Frame.capacity_pushed]

/-- A return goes back to the frame that its call has saved. -/
theorem unwind {newest : Activation} {older : List Activation} {count : Nat}
    {unwound : Frame.Unwound} (laid : Laid stackSize machine (newest :: older))
    (returned : Machine.Unwound image machine after count unwound) :
    Laid stackSize after older := by
  obtain ⟨⟨current, above, linked⟩, below, inUse, rfl⟩ := laid
  have saved : Frame.savedPointer machine.stack newest.frame = unwound.pointer := by
    rw [← current]
    exact returned.unwinds.header.saved
  have top := returned.unwinds.locals
  rw [saved, ← current] at above
  rw [saved] at linked
  refine ⟨?_, ?_, ?_, ?_⟩
  · rw [returned.stack, returned.frame]
    exact linked.congr fun _ _ _ _ _ => rfl
  · rw [returned.stack, returned.frame, Stack.top_drop]
    omega
  · rw [returned.stack, Stack.top_drop, Stack.capacity_drop]
    omega
  · rw [returned.stack, Stack.capacity_drop]

/-- A round that spares the saved pointers adds the frame of its call, or takes away the newest
one. -/
theorem step (laid : Laid stackSize thread.machine calls) (shadow : Shadow code thread calls)
    (host : stackSize < UInt64.size)
    (succeeds : Succeeds image code thread op instruction flow after)
    (goesOn : Threaded.step image code thread = .running next)
    (spares : WritesApart instruction thread.machine calls) :
    Laid stackSize next.machine (flow.outstanding ⟨op, after.frame⟩ calls) := by
  have leads := succeeds.leads goesOn
  suffices before : Laid stackSize after (flow.outstanding ⟨op, after.frame⟩ calls) from
    before.congr leads.kept.1 leads.kept.2.1
  cases Machine.execute_completes succeeds.done with
  | next through frame stack => exact laid.reworks frame stack spares
  | branch leaves resolved frame stack => exact laid.congr stack frame
  | call isCall resolved room frame stack => exact laid.call host room frame stack
  | toCaller returned inner =>
    obtain ⟨newest, older, rfl⟩ := shadow.newest_of_toCaller succeeds goesOn
    exact laid.unwind returned
  | toEngine returned outermost => cases leads
  | halt frame stack => cases leads

/-- There is room for one more id. -/
theorem room (laid : Laid stackSize thread.machine calls) (shadow : Shadow code thread calls)
    (size : thread.machine.continuations.capacity = Machine.continuationCapacity stackSize) :
    Machine.continuationSize ≤ thread.machine.continuations.available := by
  obtain ⟨linked, below, inUse, rfl⟩ := laid
  have frames := linked.length_le
  rw [List.length_map, Frame.headerSize] at frames
  rw [shadow.holds.available, size, ids, List.length_append, List.length_map, List.length_singleton,
    Machine.continuationCapacity, Machine.continuationSize, Frame.headerSize]
  omega

end Laid

/-- To begin with, there is only the engine's frame. -/
theorem laid_of_prepared {argument : UInt32} {prepared entered : Machine}
    (ready : Machine.prepare image argument machine = .ok () prepared)
    (rooted : Machine.onContinuations (Stack.push rootId) prepared = .ok () entered) :
    Laid machine.stack.capacity entered [] := by
  have intact := Intact.of_prepared ready
  obtain ⟨-, rfl⟩ := Machine.prepare_eq_ok ready
  obtain ⟨continuations, pushed, rfl⟩ := onContinuations_eq_ok rooted
  exact ⟨rfl, intact.below, intact.inUse, intact.capacity⟩

/-- The frames are laid out at every round if no round writes over a saved pointer. A round may count
on the layout that it starts with. -/
theorem Nesting.laid (nesting : Nesting image code start thread calls)
    (faithful : code.Faithful image) (first : Shadow code start [])
    (engine : Laid stackSize start.machine []) (host : stackSize < UInt64.size)
    (spares : ∀ {thread calls op instruction flow after}, Nesting image code start thread calls →
      Laid stackSize thread.machine calls →
      Succeeds image code thread op instruction flow after →
      WritesApart instruction thread.machine calls) :
    Laid stackSize thread.machine calls := by
  induction nesting with
  | start => exact engine
  | step earlier succeeds goesOn ih =>
    exact ih.step (earlier.shadow faithful first) host succeeds goesOn (spares earlier ih succeeds)

/-- An image that writes to locals only spares the saved pointers. -/
theorem sparesPointers_of_locals (faithful : code.Faithful image) (first : Shadow code start [])
    (engine : Laid stackSize start.machine []) (host : stackSize < UInt64.size)
    (locals : image.WritesLocals) : SparesPointers image code start := by
  have above : ∀ {thread : Thread} {calls : List Activation} {op : Op} {instruction : Instruction}
      {flow : Flow} {after : Machine}, Nesting image code start thread calls →
      Laid stackSize thread.machine calls →
      Succeeds image code thread op instruction flow after →
      WritesApart instruction thread.machine calls := by
    intro thread calls op instruction flow after nesting laid succeeds slot position writes found call
      member
    have decoded := (faithful.settled _ _ succeeds.found).decoded.symm.trans succeeds.decoded
    have := laid.linked.le_current (List.mem_map_of_mem member)
    have := Frame.le_slotPosition (locals _ _ _ decoded writes) found
    omega
  intro thread calls op instruction flow after nesting succeeds
  exact above nesting (nesting.laid faithful first engine host above) succeeds

/-- As long as the saved frame pointers of the outstanding calls are left alone, every call that has
pushed its header finds room for its id and goes on. -/
theorem continuations_keep_room {argument : UInt32} {prepared : Machine}
    (host : machine.stack.capacity < UInt64.size)
    (size : machine.continuations.capacity = Machine.continuationCapacity machine.stack.capacity)
    (ready : Machine.prepare image argument machine = .ok () prepared) :
    ∃ entered, Machine.onContinuations (Stack.push rootId) prepared = .ok () entered ∧
      (SparesPointers image (Code.ofImage image) ⟨0, entered⟩ →
        ∀ thread calls op instruction destination after,
          Nesting image (Code.ofImage image) ⟨0, entered⟩ thread calls →
          Succeeds image (Code.ofImage image) thread op instruction (.call destination) after →
          Machine.continuationSize ≤ after.continuations.available ∧
            ∃ next, step image (Code.ofImage image) thread = .running next) := by
  obtain ⟨entered, rooted, -, -, capacity⟩ := enters size ready
  have faithful := faithful_ofImage image
  have first : Shadow (Code.ofImage image) ⟨0, entered⟩ [] := shadow_of_prepared ready rooted
  refine ⟨entered, rooted, fun spares thread calls op instruction destination after nesting
    succeeds => ?_⟩
  have laid := nesting.laid faithful first (laid_of_prepared ready rooted) host
    fun earlier _ succeeds => spares _ _ _ _ _ _ earlier succeeds
  have room := laid.room (nesting.shadow faithful first) (nesting.capacity.trans capacity)
  rw [← succeeds.continuations] at room
  obtain ⟨index, linked⟩ := succeeds.taken faithful
  have dispatched := succeeds.dispatch_eq.trans (successor_call_of_room linked room)
  exact ⟨room, _, step_of_some succeeds.found succeeds.decoded dispatched⟩

/-- An image that does nothing but call itself. -/
def recursing : Image where
  bytes := Instruction.assemble [.call .near (.relative (-2))]
  entry := 0
  entry_lt := by decide

theorem continuations_keep_room_recursing :
    ∃ prepared, Machine.prepare recursing 0 (Machine.ofStackSize 64 .upward) = .ok () prepared ∧
      ∃ entered, Machine.onContinuations (Stack.push rootId) prepared = .ok () entered ∧
        SparesPointers recursing (Code.ofImage recursing) ⟨0, entered⟩ ∧
        ∀ thread calls op instruction destination after,
          Nesting recursing (Code.ofImage recursing) ⟨0, entered⟩ thread calls →
          Succeeds recursing (Code.ofImage recursing) thread op instruction (.call destination) after →
          Machine.continuationSize ≤ after.continuations.available ∧
            ∃ next, step recursing (Code.ofImage recursing) thread = .running next := by
  have host : (Machine.ofStackSize 64 .upward).stack.capacity < UInt64.size := by
    rw [Machine.stackCapacity_ofStackSize]
    decide
  obtain ⟨prepared, ready⟩ := Machine.prepare_ofStackSize recursing 0 .upward (show 20 ≤ 64 by decide)
  obtain ⟨entered, rooted, keeps⟩ := continuations_keep_room host (by simp) ready
  have spares := sparesPointers_of_locals (faithful_ofImage recursing)
    (shadow_of_prepared ready rooted) (laid_of_prepared ready rooted) host
    (show recursing.WritesLocals by decide +kernel)
  exact ⟨prepared, ready, entered, rooted, spares, keeps spares⟩

/-! ## Beyond the room -/

/-- The call that a thread is at pushes its header, and there is no room for its id. -/
def overflows (image : Image) (code : Code) (thread : Thread) : Bool :=
  match code.ops[thread.position]? with
  | some op =>
    match op.decoded with
    | .ok instruction =>
      match Machine.execute image op.offset instruction thread.machine with
      | .ok (.call _) after => after.continuations.available < Machine.continuationSize
      | _ => false
    | .error _ => false
  | none => false

theorem overflows_iff : overflows image code thread = true ↔
    ∃ op instruction destination after,
      Succeeds image code thread op instruction (.call destination) after ∧
        after.continuations.available < Machine.continuationSize := by
  unfold overflows
  constructor
  · intro full
    split at full
    · split at full
      · split at full
        · exact ⟨_, _, _, _, ⟨‹_›, ‹_›, ‹_›⟩, of_decide_eq_true full⟩
        · cases full
      · cases full
    · cases full
  · rintro ⟨op, instruction, destination, after, ⟨found, decoded, done⟩, full⟩
    rw [found]
    simp only [decoded, done]
    exact decide_eq_true full

/-- A call without room for its id fails, although its header has found room. -/
theorem step_of_full {destination : Nat} (faithful : code.Faithful image)
    (succeeds : Succeeds image code thread op instruction (.call destination) after)
    (full : after.continuations.available < Machine.continuationSize) :
    step image code thread =
      .done (.error (.stackOverflow Machine.continuationSize after.continuations.available))
        { thread with machine := after } := by
  obtain ⟨index, linked⟩ := succeeds.taken faithful
  exact step_of_error succeeds.found succeeds.decoded
    (succeeds.dispatch_eq.trans (successor_call_of_full linked full))

/-- An image with a function that sets the frame pointer in the header of its caller to zero. The
caller then returns to an empty stack while the first call of the image is still outstanding. -/
def stacking : Image where
  bytes := Instruction.assemble
    [.call .near (.relative 0), .call .near (.relative 11), .release 36, .call .near (.relative 0),
      .call .near (.relative 0), .call .near (.relative 0), .call .near (.relative 0), .exit,
      .call .near (.relative 1), .ret, .load (-4) 0, .ret]
  entry := 0
  entry_lt := by decide

/-- Its last call finds room for its header on the operand stack, and none for its id. -/
theorem stacking_overflows :
    ∃ prepared, Machine.prepare stacking 0 (Machine.ofStackSize 68 .upward) = .ok () prepared ∧
      ∃ entered, Machine.onContinuations (Stack.push rootId) prepared = .ok () entered ∧
        ∃ thread op instruction destination after final,
          iteration (step stacking (Code.ofImage stacking)) 10 ⟨0, entered⟩ = some thread ∧
          Succeeds stacking (Code.ofImage stacking) thread op instruction (.call destination) after ∧
          after.continuations.available < Machine.continuationSize ∧
          step stacking (Code.ofImage stacking) thread =
            .done (.error (.stackOverflow Machine.continuationSize after.continuations.available))
              final := by
  have overflow : (match Machine.prepare stacking 0 (Machine.ofStackSize 68 .upward) with
      | .ok () prepared =>
        match Machine.onContinuations (Stack.push rootId) prepared with
        | .ok () entered => (iteration (step stacking (Code.ofImage stacking)) 10 ⟨0, entered⟩).any
            (overflows stacking (Code.ofImage stacking))
        | .error _ _ => false
      | .error _ _ => false) = true := by
    decide +kernel
  obtain ⟨prepared, ready⟩ := Machine.prepare_ofStackSize stacking 0 .upward (show 20 ≤ 68 by decide)
  obtain ⟨entered, rooted, -⟩ :=
    enters (Machine.continuationsCapacity_ofStackSize 68 .upward) ready
  simp only [ready, rooted] at overflow
  obtain ⟨thread, reached, full⟩ := (Option.any_eq_true _ _).mp overflow
  obtain ⟨op, instruction, destination, after, succeeds, full⟩ := overflows_iff.mp full
  exact ⟨prepared, ready, entered, rooted, thread, op, instruction, destination, after, _, reached,
    succeeds, full, step_of_full (faithful_ofImage stacking) succeeds full⟩

end Tandem.Threaded

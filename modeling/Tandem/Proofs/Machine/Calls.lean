import Tandem.Machine.Sequential
import Tandem.Proofs.Instruction.Inverse
import Tandem.Proofs.Machine.Completed
import Tandem.Proofs.Machine.Prepare
import Tandem.Proofs.Stack.Headers

/-!
# Outstanding calls

Which calls are outstanding is a matter of the flow of a run alone: a call adds one and a return
into the image takes the newest one away. `Sequential.Calling` says so, without a look at the
stack. As long as no slot is written over a header of an outstanding call, the stack says the same:
the headers form a chain (`Intact`), and every return finds the header that its call has pushed.
An image that writes to locals only spares all headers (`Sequential.sparesHeaders_of_locals`), and so
does one that never calls (`Sequential.sparesHeaders_of_neverCalls`).
-/

namespace Tandem

/-- The frame pointers of the outstanding calls after an instruction, the newest first. -/
def Flow.live (flow : Flow) (frame : Nat) (live : List Nat) : List Nat :=
  match flow with
  | .call _ => frame :: live
  | .toCaller _ => live.tail
  | _ => live

/-- The machines that a sequential run comes to, with the frame pointers of the calls that are
outstanding there, the newest first and that of the engine last. -/
inductive Sequential.Calling (image : Image) (start : Machine) : Machine → List Nat → Prop
  | start : Calling image start start [start.frame]
  | step {machine after next : Machine} {live : List Nat} {instruction : Instruction} {flow : Flow}
    (earlier : Calling image start machine live)
    (decoded : Instruction.decode image machine.cursor = .ok instruction)
    (done : Machine.execute image machine.cursor instruction machine = .ok flow after)
    (goesOn : follow instruction.length flow after = .running next) :
    Calling image start next (flow.live after.frame live)

/-- No instruction that a run from `start` executes writes a slot that overlaps the header of an
outstanding call. -/
def Sequential.SparesHeaders (image : Image) (start : Machine) : Prop :=
  ∀ machine live instruction flow after slot position, Calling image start machine live →
    Instruction.decode image machine.cursor = .ok instruction →
    Machine.execute image machine.cursor instruction machine = .ok flow after →
    instruction.writtenSlot? = some slot →
    Frame.slotPosition machine.frame machine.stack.top slot = some position →
    ∀ frame ∈ live, position + Frame.slotSize ≤ frame - Frame.headerSize ∨ frame ≤ position

/-- What 64-bit words can hold: the image ends below the mark of the engine's frame, so that a
return address is an offset or that mark, and positions on the operand stack are words. -/
structure Machine.Fits (image : Image) (stackSize : Nat) : Prop where
  offsets : image.size < Frame.noCaller.toNat
  positions : stackSize < UInt64.size

/-- Whatever the argument and the machine are, no run of the image writes over a header of an
outstanding call. -/
def Image.SparesHeaders (image : Image) : Prop :=
  ∀ argument machine prepared, Machine.Fits image machine.stack.capacity →
    Machine.prepare image argument machine = .ok () prepared →
      Sequential.SparesHeaders image prepared

/-- The return address of a call in the image is an offset, and not the engine's mark. -/
theorem Machine.Fits.returnAddress {image : Image} {stackSize : Nat} (fits : Fits image stackSize)
    {offset : Nat} {width : Width} {target : Target}
    (decoded : Instruction.decode image offset = .ok (.call width target)) :
    (offset + (Instruction.call width target).length).toUInt64.toNat =
        offset + (Instruction.call width target).length ∧
      (offset + (Instruction.call width target).length).toUInt64 ≠ Frame.noCaller := by
  have inside : offset + (Instruction.call width target).length ≤ image.size :=
    Instruction.end_le_size_of_decode decoded
  have below := Nat.lt_of_le_of_lt inside fits.offsets
  generalize offset + (Instruction.call width target).length = next at inside below ⊢
  have value : next.toUInt64.toNat = next :=
    Nat.mod_eq_of_lt (Nat.lt_trans below (UInt64.toNat_lt_size _))
  refine ⟨value, fun same => ?_⟩
  rw [same] at value
  omega

namespace Machine.Reworks

variable {instruction : Instruction} {frame : Nat} {stack after : Stack}

/-- The current frame stays on the stack. -/
theorem within (reworks : Reworks instruction frame stack after) (below : frame ≤ stack.top)
    (inUse : stack.top ≤ stack.capacity) :
    after.capacity = stack.capacity ∧ after.top ≤ after.capacity ∧ frame ≤ after.top := by
  cases reworks with
  | kept => exact ⟨rfl, inUse, below⟩
  | grown bytes room =>
    unfold Stack.available at room
    rw [Stack.capacity_append, Stack.top_append]
    exact ⟨rfl, by omega, by omega⟩
  | dropped count locals =>
    rw [Stack.capacity_drop, Stack.top_drop]
    exact ⟨rfl, by omega, by omega⟩
  | written slot position value writes found used =>
    rw [Stack.capacity_store, Stack.top_store]
    exact ⟨rfl, inUse, below⟩

/-- Of the bytes below the frame pointer, only those of the written slot change. -/
theorem byte_eq (reworks : Reworks instruction frame stack after) (below : frame ≤ stack.top)
    (inUse : stack.top ≤ stack.capacity) {index : Nat} (under : index < frame)
    (apart : ∀ slot position, instruction.writtenSlot? = some slot →
      Frame.slotPosition frame stack.top slot = some position →
      index < position ∨ position + Frame.slotSize ≤ index) :
    stack.byte index = after.byte index := by
  cases reworks with
  | kept => rfl
  | grown bytes room =>
    unfold Stack.available at room
    exact (Stack.byte_store_of_outside (by omega) (by omega) (.inl (by omega))).symm
  | dropped count locals => rfl
  | written slot position value writes found used =>
    have size : (Scalar.encode value).length = Frame.slotSize := Scalar.length_encode value
    rw [← size] at apart
    refine (Stack.byte_store_of_outside ?_ (by omega) (apart slot position writes found)).symm
    rw [size, Frame.slotSize]
    omega

end Machine.Reworks

/-- The stack holds the chain of headers of the outstanding calls, below the locals of the newest
one. -/
structure Intact (stackSize : Nat) (stack : Stack) (frame : Nat) (live : List Nat)
    (addresses : List UInt64) : Prop where
  capacity : stack.capacity = stackSize
  inUse : stack.top ≤ stack.capacity
  below : frame ≤ stack.top
  newest : ∃ older, live = frame :: older
  chain : Frame.Chain stack live addresses

namespace Intact

variable {stackSize frame : Nat} {stack after : Stack} {live : List Nat} {addresses : List UInt64}
  {instruction : Instruction}

/-- The number of outstanding calls is bounded by the size of the stack. -/
theorem length_le (intact : Intact stackSize stack frame live addresses) :
    Frame.headerSize * addresses.length + 4 ≤ stackSize := by
  obtain ⟨older, rfl⟩ := intact.newest
  have bound := intact.chain.length_le
  have := intact.below
  have := intact.inUse
  rw [intact.chain.length_addresses, List.length_cons, ← intact.capacity]
  omega

theorem reworks (intact : Intact stackSize stack frame live addresses)
    (reworks : Machine.Reworks instruction frame stack after)
    (spares : ∀ slot position, instruction.writtenSlot? = some slot →
      Frame.slotPosition frame stack.top slot = some position →
      ∀ older ∈ live, position + Frame.slotSize ≤ older - Frame.headerSize ∨ older ≤ position) :
    Intact stackSize after frame live addresses := by
  obtain ⟨rfl, inUse, below, ⟨older, rfl⟩, chain⟩ := intact
  obtain ⟨capacity, inUse', below'⟩ := reworks.within below inUse
  refine ⟨capacity, inUse', below', ⟨older, rfl⟩, chain.congr fun caller member index low high => ?_⟩
  have := chain.le_newest member
  refine reworks.byte_eq below inUse (by omega) fun slot position writes found => ?_
  have := spares slot position writes found caller member
  omega

theorem call (intact : Intact stackSize stack frame live addresses) {next : Nat}
    (host : stackSize < UInt64.size) (room : Frame.headerSize ≤ stack.available)
    (inner : next.toUInt64 ≠ Frame.noCaller) :
    Intact stackSize (Frame.pushed stack frame next.toUInt64) (stack.top + Frame.headerSize)
      ((stack.top + Frame.headerSize) :: live) (next.toUInt64 :: addresses) := by
  obtain ⟨capacity, inUse, below, ⟨older, rfl⟩, chain⟩ := intact
  have word : frame < UInt64.size := by omega
  refine ⟨?_, ?_, ?_, ⟨frame :: older, rfl⟩, chain.push below word room inner⟩
  · rw [Frame.capacity_pushed, capacity]
  · rw [Frame.capacity_pushed, Frame.top_pushed]
    unfold Stack.available at room
    omega
  · exact Nat.le_of_eq (Frame.top_pushed _ _ _).symm

/-- A return out of the image unwinds the engine's frame: no other call is outstanding. -/
theorem outermost (intact : Intact stackSize stack frame live addresses) {count imageSize : Nat}
    {unwound : Frame.Unwound} (unwinds : Frame.Unwinds stack frame count imageSize unwound)
    (outermost : unwound.returnAddress = Frame.noCaller) : addresses = [Frame.noCaller] := by
  obtain ⟨capacity, inUse, below, ⟨older, rfl⟩, chain⟩ := intact
  cases chain with
  | engine header => rfl
  | call header above inner rest =>
    obtain ⟨-, same⟩ := header.unique unwinds.header
    exact absurd (same.trans outermost) inner

/-- A return into the image unwinds the frame of the newest call. -/
theorem unwind (intact : Intact stackSize stack frame live addresses) {count imageSize : Nat}
    {unwound : Frame.Unwound} (unwinds : Frame.Unwinds stack frame count imageSize unwound)
    (inner : unwound.returnAddress ≠ Frame.noCaller) :
    ∃ rest, addresses = unwound.returnAddress :: rest ∧
      Intact stackSize (stack.drop (count + Frame.headerSize)) unwound.pointer live.tail rest := by
  obtain ⟨capacity, inUse, below, ⟨older, rfl⟩, chain⟩ := intact
  cases chain with
  | engine header =>
    obtain ⟨-, same⟩ := header.unique unwinds.header
    exact absurd same.symm inner
  | call header above _ rest =>
    obtain ⟨rfl, rfl⟩ := header.unique unwinds.header
    have top := unwinds.locals
    rw [Frame.headerSize] at *
    refine ⟨_, rfl, capacity, ?_, ?_, ⟨_, rfl⟩, rest.drop _⟩
    · rw [Stack.top_drop, Stack.capacity_drop]
      omega
    · rw [Stack.top_drop]
      omega

/-- The engine's frame is intact when a run starts. -/
theorem entered {stack : Stack} (room : 20 ≤ stack.capacity) (argument : UInt32) :
    Intact stack.capacity (stack.reset.entered argument) 20 [20] [Frame.noCaller] := by
  have size : (Scalar.encode argument).length = 4 := Scalar.length_encode argument
  have header : Frame.Header (stack.reset.entered argument)
      ((stack.reset.append (Scalar.encode argument)).top + Frame.headerSize) 0 Frame.noCaller := by
    refine Frame.header_pushed (by decide) ?_
    rw [Frame.headerSize, Stack.available, Stack.capacity_append, Stack.top_append, size]
    show 16 ≤ stack.capacity - (0 + 4)
    omega
  rw [Stack.top_append, size, Frame.headerSize] at header
  refine ⟨Stack.capacity_entered _ _, ?_, ?_, ⟨[], rfl⟩, .engine header⟩
  · rw [Stack.capacity_entered, Stack.top_entered]
    exact room
  · rw [Stack.top_entered]
    exact Nat.le_refl _

/-- The frame of a prepared machine is intact. -/
theorem of_prepared {image : Image} {argument : UInt32} {machine prepared : Machine}
    (ready : Machine.prepare image argument machine = .ok () prepared) :
    Intact machine.stack.capacity prepared.stack prepared.frame [prepared.frame]
      [Frame.noCaller] := by
  obtain ⟨room, rfl⟩ := Machine.prepare_eq_ok ready
  exact entered room argument

end Intact

/-! ## Images that write to locals only -/

/-- What holds of every instruction of an image can be checked at the offsets inside it. -/
theorem Image.every_iff {image : Image} {p : Instruction → Bool} :
    (∀ offset instruction, Instruction.decode image offset = .ok instruction → p instruction = true) ↔
      ((List.range image.size).all fun offset =>
        match Instruction.decode image offset with
        | .ok instruction => p instruction
        | .error _ => true) = true := by
  rw [List.all_eq_true]
  constructor
  · intro every offset _
    cases decoded : Instruction.decode image offset with
    | error fault => rfl
    | ok instruction => exact every offset instruction decoded
  · intro checked offset instruction decoded
    have holds := checked offset (List.mem_range.mpr (Instruction.lt_size_of_decode decoded))
    rwa [decoded] at holds

/-- No instruction of the image writes to an argument, at whatever offset it is decoded. -/
def Image.WritesLocals (image : Image) : Prop :=
  ∀ offset instruction slot, Instruction.decode image offset = .ok instruction →
    instruction.writtenSlot? = some slot → 0 ≤ slot.toInt

/-- The instruction at an offset, if there is one, does not write to an argument. -/
def Image.writesLocalsAt (image : Image) (offset : Nat) : Bool :=
  match Instruction.decode image offset with
  | .ok instruction => instruction.writtenSlot?.all fun slot => 0 ≤ slot.toInt
  | .error _ => true

/-- It is enough to look at the offsets inside the image. -/
theorem Image.writesLocals_iff {image : Image} :
    image.WritesLocals ↔ (List.range image.size).all image.writesLocalsAt = true := by
  refine Iff.trans ?_ Image.every_iff
  constructor
  · intro locals offset instruction decoded
    rw [Option.all_eq_true]
    intro slot writes
    exact decide_eq_true (locals offset instruction slot decoded writes)
  · intro checked offset instruction slot decoded writes
    have holds := checked offset instruction decoded
    rw [writes, Option.all_some] at holds
    exact of_decide_eq_true holds

instance (image : Image) : Decidable image.WritesLocals :=
  decidable_of_iff _ Image.writesLocals_iff.symm

theorem Frame.le_slotPosition {pointer top position : Nat} {slot : Slot} (isLocal : 0 ≤ slot.toInt)
    (found : slotPosition pointer top slot = some position) : pointer ≤ position := by
  rw [slotPosition_eq_some_iff] at found
  omega

namespace Sequential

variable {image : Image} {stackSize : Nat} {start machine after next : Machine} {live : List Nat}
  {addresses : List UInt64} {instruction : Instruction} {flow : Flow}

/-- An instruction that spares the headers leaves the headers of the calls that are outstanding
then. -/
theorem intact_step (fits : Machine.Fits image stackSize)
    (intact : Intact stackSize machine.stack machine.frame live addresses)
    (decoded : Instruction.decode image machine.cursor = .ok instruction)
    (done : Machine.execute image machine.cursor instruction machine = .ok flow after)
    (spares : ∀ slot position, instruction.writtenSlot? = some slot →
      Frame.slotPosition machine.frame machine.stack.top slot = some position →
      ∀ older ∈ live, position + Frame.slotSize ≤ older - Frame.headerSize ∨ older ≤ position)
    (goesOn : follow instruction.length flow after = .running next) :
    ∃ addresses, Intact stackSize next.stack next.frame (flow.live after.frame live) addresses := by
  cases Machine.execute_completes done with
  | next through frame stack =>
    cases goesOn
    have kept := intact.reworks stack spares
    rw [← frame] at kept
    exact ⟨_, kept⟩
  | branch leaves leads frame stack =>
    cases goesOn
    rw [← stack, ← frame] at intact
    exact ⟨_, intact⟩
  | call calls leads room frame stack =>
    cases goesOn
    subst calls
    have kept := intact.call fits.positions room (fits.returnAddress decoded).2
    rw [← stack, ← frame] at kept
    exact ⟨_, kept⟩
  | toCaller returned inner =>
    cases goesOn
    obtain ⟨rest, -, kept⟩ := intact.unwind returned.unwinds inner
    rw [← returned.stack, ← returned.frame] at kept
    exact ⟨_, kept⟩
  | toEngine returned outermost => cases goesOn
  | halt frame stack => cases goesOn

theorem sparesHeaders_of_locals (fits : Machine.Fits image stackSize)
    (intact : Intact stackSize start.stack start.frame [start.frame] [Frame.noCaller])
    (locals : image.WritesLocals) : SparesHeaders image start := by
  have above : ∀ {machine : Machine} {live : List Nat} {addresses : List UInt64}
      {instruction : Instruction}, Intact stackSize machine.stack machine.frame live addresses →
      Instruction.decode image machine.cursor = .ok instruction →
      ∀ slot position, instruction.writtenSlot? = some slot →
        Frame.slotPosition machine.frame machine.stack.top slot = some position →
        ∀ older ∈ live, older ≤ position := by
    intro machine live addresses instruction intact decoded slot position writes found older member
    obtain ⟨others, rfl⟩ := intact.newest
    exact Nat.le_trans (intact.chain.le_newest member)
      (Frame.le_slotPosition (locals _ _ _ decoded writes) found)
  have always : ∀ {machine : Machine} {live : List Nat}, Calling image start machine live →
      ∃ addresses, Intact stackSize machine.stack machine.frame live addresses := by
    intro machine live calling
    induction calling with
    | start => exact ⟨_, intact⟩
    | step earlier decoded done goesOn ih =>
      obtain ⟨addresses, intact⟩ := ih
      exact intact_step fits intact decoded done
        (fun slot position writes found older member =>
          .inr (above intact decoded slot position writes found older member)) goesOn
  intro machine live instruction flow after slot position calling decoded done writes found older
    member
  obtain ⟨addresses, intact⟩ := always calling
  exact .inr (above intact decoded slot position writes found older member)

end Sequential

/-! ## Images without calls -/

/-- No instruction of the image is a call, at whatever offset it is decoded. -/
def Image.NeverCalls (image : Image) : Prop :=
  ∀ offset instruction, Instruction.decode image offset = .ok instruction →
    (!instruction.isCall) = true

instance (image : Image) : Decidable image.NeverCalls :=
  decidable_of_iff _ Image.every_iff.symm

/-- A slot never overlaps the header of its own frame. -/
theorem Frame.slotPosition_apart {pointer top position : Nat} {slot : Slot}
    (found : slotPosition pointer top slot = some position) :
    position + slotSize ≤ pointer - headerSize ∨ pointer ≤ position := by
  rw [slotPosition_eq_some_iff] at found
  rw [slotSize, headerSize]
  omega

namespace Sequential

variable {image : Image} {stackSize : Nat} {start : Machine}

/-- Without calls, only the engine's frame is ever there, and it is the one whose slots are
written. -/
theorem sparesHeaders_of_neverCalls
    (intact : Intact stackSize start.stack start.frame [start.frame] [Frame.noCaller])
    (never : image.NeverCalls) : SparesHeaders image start := by
  have always : ∀ {machine : Machine} {live : List Nat}, Calling image start machine live →
      live = [machine.frame] ∧
        Intact stackSize machine.stack machine.frame [machine.frame] [Frame.noCaller] := by
    intro machine live calling
    induction calling with
    | start => exact ⟨rfl, intact⟩
    | step earlier decoded done goesOn ih =>
      obtain ⟨rfl, intact⟩ := ih
      cases Machine.execute_completes done with
      | next through frame stack =>
        cases goesOn
        rw [frame]
        refine ⟨rfl, intact.reworks stack fun slot position _ found older member => ?_⟩
        rw [List.mem_singleton.mp member]
        exact Frame.slotPosition_apart found
      | branch leaves leads frame stack =>
        cases goesOn
        rw [frame, stack]
        exact ⟨rfl, intact⟩
      | call calls leads room frame stack =>
        subst calls
        cases never _ _ decoded
      | toCaller returned inner =>
        obtain ⟨rest, addresses, -⟩ := intact.unwind returned.unwinds inner
        exact absurd (List.cons.inj addresses).1.symm inner
      | toEngine returned outermost => cases goesOn
      | halt frame stack => cases goesOn
  intro machine live instruction flow after slot position calling decoded done writes found older
    member
  obtain ⟨rfl, -⟩ := always calling
  rw [List.mem_singleton.mp member]
  exact Frame.slotPosition_apart found

end Sequential

end Tandem

import Tandem.Proofs.Machine.Bounds
import Tandem.Proofs.Machine.Calls
import Tandem.Proofs.Stack.Reference

/-!
# The table of data instructions

Data instructions move values between slots, the accumulator and the top of the stack, and control
goes on just past them. `Machine.transfer?` is the table of what each of them is for, in terms of the
values that slots have; where slots stand, and how bytes are kept, is left out of it. An instruction
does what the table says, to the bytes that it is about and to no others
(`Machine.transfers_of_data`): slots do not overlap each other nor the header of their frame
(`Machine.slotsApart`).
-/

namespace Tandem

/-! ## The table -/

/-- The operation on integers. -/
def Arithmetic.onIntegers : Arithmetic → (left right : Int) → Int
  | .add, left, right => left + right
  | .sub, left, right => left - right

/-- The word that the result on integers wraps around to. -/
def Arithmetic.wrapped (operation : Arithmetic) (left right : UInt32) : UInt32 :=
  .ofNat (operation.onIntegers left.toNat right.toNat % UInt32.size).toNat

theorem Arithmetic.apply_eq_wrapped (operation : Arithmetic) (left right : UInt32) :
    operation.apply left right = operation.wrapped left right := by
  have := left.toNat_lt
  have := right.toNat_lt
  apply UInt32.toNat_inj.mp
  cases operation with
  | add =>
    simp only [apply, wrapped, onIntegers, UInt32.toNat_add, UInt32.toNat_ofNat', UInt32.size]
    omega
  | sub =>
    simp only [apply, wrapped, onIntegers, UInt32.toNat_sub, UInt32.toNat_ofNat', UInt32.size]
    omega

/-- Whether an instruction moves or changes values, and nothing else. -/
def Instruction.isData : Instruction → Bool
  | .compare _ _ _ => false
  | .compareWith _ _ _ => false
  | .jump _ _ _ => false
  | .call _ _ => false
  | .ret => false
  | .retShort _ => false
  | .retLong _ => false
  | .retWith _ => false
  | .retLongWith _ _ => false
  | .nop => false
  | .skip _ => false
  | .exit => false
  | _ => true

/-- What a data instruction is for. -/
inductive Transfer where
  /-- A slot is set. -/
  | assign (slot : Slot) (value : UInt32)
  /-- The accumulator is set. -/
  | accumulate (value : UInt32)
  /-- Bytes are put on the stack. -/
  | append (bytes : List UInt8)
  /-- Bytes of locals are taken off the stack. -/
  | remove (count : Nat)
  deriving Repr, DecidableEq

namespace Machine

/-- The value of a slot, if there is such a slot. -/
def slot? (machine : Machine) (slot : Slot) : Option UInt32 :=
  (Frame.slotPosition machine.frame machine.stack.top slot).map fun position =>
    Scalar.decode UInt32 (machine.stack.load position 4)

/-- What a data instruction does, given the values that slots and the accumulator have before it.
There is nothing to do where a slot that it reads is missing. -/
def transfer? (machine : Machine) : Instruction → Option Transfer
  | .push source => do
    let value ← machine.slot? source
    return .append (Scalar.encode value)
  | .pushWord value => return .append (Scalar.encode value)
  | .pushWide value => return .append (Scalar.encode value)
  | .pushZero cell => return .append (List.replicate cell.size 0)
  | .pop cell => return .remove cell.size
  | .reserve count => return .append (List.replicate count.toNat 0)
  | .reserveWord => return .append (List.replicate 4 0)
  | .release count => return .remove count.toNat
  | .load destination value => return .assign destination value
  | .loadAcc value => return .accumulate value
  | .fetch source => do
    let value ← machine.slot? source
    return .accumulate value
  | .save destination => return .assign destination machine.registers.accumulator
  | .move destination source => do
    let value ← machine.slot? source
    return .assign destination value
  | .step operation destination => do
    let value ← machine.slot? destination
    return .assign destination (operation.wrapped value 1)
  | .update operation destination source => do
    let right ← machine.slot? source
    let left ← machine.slot? destination
    return .assign destination (operation.wrapped left right)
  | .updateBy operation destination right => do
    let left ← machine.slot? destination
    return .assign destination (operation.wrapped left right)
  | .accumulate operation source => do
    let right ← machine.slot? source
    return .accumulate (operation.wrapped machine.registers.accumulator right)
  | .accumulateBy operation right =>
    return .accumulate (operation.wrapped machine.registers.accumulator right)
  | _ => none

end Machine

/-- The machine has the slot, the room or the locals that a transfer needs. -/
def Transfer.Fits (machine : Machine) : Transfer → Prop
  | .assign slot _ => ∃ position,
    Frame.slotPosition machine.frame machine.stack.top slot = some position
  | .accumulate _ => True
  | .append bytes => bytes.length ≤ machine.stack.available
  | .remove count => count ≤ machine.stack.top - machine.frame

/-! ## What can be seen of a transfer -/

namespace Machine

/-- Apart from the accounts, nothing was changed but the top of the operand stack and `count` of its
bytes from `start` on. -/
structure Touched (before after : Machine) (start count : Nat) : Prop where
  machine : after = { before with stack := after.stack, stats := after.stats, trace := after.trace }
  capacity : after.stack.capacity = before.stack.capacity
  growth : after.stack.growth = before.stack.growth
  bytes : ∀ index, index < before.stack.capacity → index < start ∨ start + count ≤ index →
    after.stack.byte index = before.stack.byte index

/-- The slot at `position` was set, and no other one. -/
structure Assigned (before after : Machine) (position : Nat) (slot : Slot) (value : UInt32) :
    Prop where
  touched : Touched before after position 4
  top : after.stack.top = before.stack.top
  value : after.slot? slot = some value
  others : ∀ other, other ≠ slot → after.slot? other = before.slot? other

end Machine

/-- A transfer, the accounts of its instruction and nothing else have made one machine of another. -/
def Transfer.Shows (before after : Machine) : Transfer → Prop
  | .assign slot value => ∃ position,
    Frame.slotPosition before.frame before.stack.top slot = some position ∧
      before.Assigned after position slot value
  | .accumulate value => after =
    { before with
      registers := { before.registers with accumulator := value }
      stats := after.stats
      trace := after.trace }
  | .append bytes => before.Touched after before.stack.top bytes.length ∧
    after.stack.contents = before.stack.contents ++ bytes
  | .remove count => before.Touched after before.stack.top 0 ∧
    ∃ removed, removed.length = count ∧ before.stack.contents = after.stack.contents ++ removed

/-! ## Slots -/

namespace Machine

variable {image : Image} {offset : Nat} {instruction : Instruction} {machine after : Machine}
  {flow : Flow} {slot : Slot} {value : UInt32}

/-- The slots of a machine lie below the top, apart from each other and from the header of their
frame. -/
structure SlotsApart (machine : Machine) : Prop where
  inUse : ∀ slot position,
    Frame.slotPosition machine.frame machine.stack.top slot = some position →
      position + 4 ≤ machine.stack.top
  header : ∀ slot position,
    Frame.slotPosition machine.frame machine.stack.top slot = some position →
      position + 4 ≤ machine.frame - 16 ∨ machine.frame ≤ position
  distinct : ∀ slot other position otherPosition, other ≠ slot →
    Frame.slotPosition machine.frame machine.stack.top slot = some position →
    Frame.slotPosition machine.frame machine.stack.top other = some otherPosition →
      otherPosition + 4 ≤ position ∨ position + 4 ≤ otherPosition

theorem slotsApart (framed : machine.frame ≤ machine.stack.top) : SlotsApart machine where
  inUse slot position found := Frame.slotPosition_inUse (Nat.le_add_right_of_le framed) found
  header slot position found := Frame.slotPosition_apart found
  distinct slot other position otherPosition differ found found' := by
    rw [Frame.slotPosition_eq_some_iff] at found found'
    have differ : other.toInt ≠ slot.toInt := fun same => differ (Int8.toInt_inj.mp same)
    omega

theorem slot?_eq_some : machine.slot? slot = some value ↔
    ∃ position, Frame.slotPosition machine.frame machine.stack.top slot = some position ∧
      Scalar.decode UInt32 (machine.stack.load position 4) = value :=
  Option.map_eq_some_iff

theorem readSlot_of_some (framed : machine.frame ≤ machine.stack.top)
    (holds : machine.slot? slot = some value) :
    readSlot offset slot machine = .ok value machine := by
  obtain ⟨position, found, rfl⟩ := slot?_eq_some.mp holds
  have inUse := (slotsApart framed).inUse slot position found
  rw [readSlot, Action.bind_of_ok (slotPosition_of_some found), readWord,
    Stack.readWord_of_inUse inUse]

theorem readSlot_of_none (missing : machine.slot? slot = none) :
    readSlot offset slot machine = .error (.invalidSlot offset slot) machine :=
  Action.bind_of_error (slotPosition_of_none (Option.map_eq_none_iff.mp missing))

/-! ## Instructions as transfers -/

/-- A transfer as it is carried out. -/
inductive Moves (machine : Machine) : Transfer → Machine → Prop
  | assign {slot : Slot} {value : UInt32} {position : Nat}
    (found : Frame.slotPosition machine.frame machine.stack.top slot = some position) :
    Moves machine (.assign slot value)
      { machine with stack := machine.stack.store position (Scalar.encode value) }
  | accumulate {value : UInt32} : Moves machine (.accumulate value) (machine.accumulating value)
  | append {bytes : List UInt8} (room : bytes.length ≤ machine.stack.available) :
    Moves machine (.append bytes) { machine with stack := machine.stack.append bytes }
  | remove {count : Nat} (locals : count ≤ machine.stack.top - machine.frame) :
    Moves machine (.remove count) { machine with stack := machine.stack.drop count }

/-- A transfer can be carried out on a machine that it fits. -/
theorem moves_of_fits {transfer : Transfer} (fits : transfer.Fits machine) :
    ∃ after, Moves machine transfer after := by
  cases transfer with
  | assign slot value =>
    obtain ⟨position, found⟩ := fits
    exact ⟨_, .assign found⟩
  | accumulate value => exact ⟨_, .accumulate⟩
  | append bytes => exact ⟨_, .append fits⟩
  | remove count => exact ⟨_, .remove fits⟩

theorem Moves.fits {transfer : Transfer} (moves : Moves machine transfer after) :
    transfer.Fits machine := by
  cases moves with
  | assign found => exact ⟨_, found⟩
  | accumulate => trivial
  | append room => exact room
  | remove locals => exact locals

theorem Moves.unique {transfer : Transfer} {other : Machine} (moves : Moves machine transfer after)
    (moves' : Moves machine transfer other) : other = after := by
  cases moves with
  | assign found =>
    cases moves' with
    | assign found' =>
      rw [found] at found'
      cases found'
      rfl
  | accumulate =>
    cases moves'
    rfl
  | append room =>
    cases moves'
    rfl
  | remove locals =>
    cases moves'
    rfl

/-- On `machine`, the action falls through after the given transfer, and otherwise it fails. -/
def Performs (machine : Machine) (transfer? : Option Transfer) (action : Action Flow) : Prop :=
  ∀ flow after, action machine = .ok flow after ↔
    flow = .next ∧ ∃ transfer, transfer? = some transfer ∧ Moves machine transfer after

namespace Performs

theorem of_ok {transfer : Transfer} {action : Action Flow} (done : action machine = .ok .next after)
    (moves : Moves machine transfer after) :
    Performs machine (some transfer) action := by
  intro flow other
  rw [done]
  constructor
  · intro same
    cases same
    exact ⟨rfl, transfer, rfl, moves⟩
  · rintro ⟨rfl, transfer', same, moved⟩
    cases same
    rw [moves.unique moved]

theorem of_error {transfer? : Option Transfer} {action : Action Flow} {fault : Fault}
    (failed : action machine = .error fault after)
    (never : ∀ transfer, transfer? = some transfer → ¬ transfer.Fits machine) :
    Performs machine transfer? action := by
  intro flow other
  rw [failed]
  constructor
  · intro same
    cases same
  · rintro ⟨-, transfer, known, moved⟩
    exact absurd moved.fits (never transfer known)

/-- An instruction that looks at the machine first. -/
theorem get {transfer? : Option Transfer} {rest : Machine → Action Flow}
    (performs : Performs machine transfer? (rest machine)) :
    Performs machine transfer? (MonadState.get >>= rest) := by
  intro flow after
  rw [Action.get_bind]
  exact performs flow after

/-- An instruction that reads a slot first. -/
theorem read (framed : machine.frame ≤ machine.stack.top) {table : UInt32 → Option Transfer}
    {rest : UInt32 → Action Flow} (performs : ∀ value, Performs machine (table value) (rest value)) :
    Performs machine (machine.slot? slot >>= table) (readSlot offset slot >>= rest) := by
  cases holds : machine.slot? slot with
  | none =>
    exact of_error (Action.bind_of_error (readSlot_of_none holds)) fun _ known => nomatch known
  | some value =>
    intro flow after
    rw [Action.bind_of_ok (readSlot_of_some framed holds)]
    exact performs value flow after

/-- An instruction that sets a slot last. -/
theorem write (framed : machine.frame ≤ machine.stack.top) (slot : Slot) (value : UInt32) :
    Performs machine (return .assign slot value)
      (writeSlot offset slot value >>= fun _ => pure .next) := by
  cases found : Frame.slotPosition machine.frame machine.stack.top slot with
  | none =>
    have failed : writeSlot offset slot value machine =
        .error (.invalidSlot offset slot) machine :=
      Action.bind_of_error (slotPosition_of_none found)
    refine of_error (Action.bind_of_error failed) ?_
    rintro _ ⟨⟩ ⟨position, found'⟩
    rw [found] at found'
    cases found'
  | some position =>
    have wrote := Stack.writeWord_of_inUse value ((slotsApart framed).inUse slot position found)
    have done : writeSlot offset slot value machine =
        .ok () { machine with stack := machine.stack.store position (Scalar.encode value) } := by
      rw [writeSlot, Action.bind_of_ok (slotPosition_of_some found), onStack, wrote]
    exact of_ok (Action.bind_of_ok done) (.assign found)

/-- An instruction that replaces the value of a slot reads the slot and sets it. -/
theorem modify (framed : machine.frame ≤ machine.stack.top) (slot : Slot)
    {change table : UInt32 → UInt32} (same : ∀ value, change value = table value) :
    Performs machine (machine.slot? slot >>= fun value => return .assign slot (table value))
      (modifySlot offset slot change >>= fun _ => pure .next) := by
  obtain rfl : change = table := funext same
  have apart : (modifySlot offset slot change >>= fun _ => (pure .next : Action Flow)) machine =
      (readSlot offset slot >>= fun value =>
        writeSlot offset slot (change value) >>= fun _ => pure .next) machine := by
    simp only [modifySlot, readSlot, writeSlot, Action.bind_apply, slotPosition, readWord]
    cases found : Frame.slotPosition machine.frame machine.stack.top slot with
    | none => rfl
    | some position =>
      cases read : machine.stack.readWord position with
      | error fault => simp only [read]
      | ok value => simp only [read, found]
  intro flow after
  rw [apart]
  exact read framed (fun value => write framed slot (change value)) flow after

/-- An instruction that pushes bytes. -/
theorem grow (bytes : List UInt8) :
    Performs machine (some (.append bytes))
      (onStack (Stack.grow bytes) >>= fun _ => pure .next) := by
  rcases Nat.lt_or_ge machine.stack.available bytes.length with full | room
  · have failed : onStack (Stack.grow bytes) machine =
        .error (.stackOverflow bytes.length machine.stack.available) machine := by
      rw [onStack, Stack.grow_of_full full]
    refine of_error (Action.bind_of_error failed) ?_
    rintro _ ⟨⟩ room
    exact absurd full (Nat.not_lt.mpr room)
  · have done : onStack (Stack.grow bytes) machine =
        .ok () { machine with stack := machine.stack.append bytes } := by
      rw [onStack, Stack.grow_of_room room]
    exact of_ok (Action.bind_of_ok done) (.append room)

theorem push {α : Type} [Scalar α] (value : α) :
    Performs machine (some (.append (Scalar.encode value)))
      (onStack (Stack.push value) >>= fun _ => pure .next) := by
  rw [Stack.push_eq_grow]
  exact grow _

theorem reserve (count : Nat) :
    Performs machine (some (.append (List.replicate count 0)))
      (onStack (Stack.reserve count) >>= fun _ => pure .next) := by
  rw [Stack.reserve_eq_grow]
  exact grow _

/-- An instruction that releases locals. -/
theorem release (count : Nat) :
    Performs machine (some (.remove count))
      (checkLocals count >>= fun _ => onStack (Stack.release count) >>= fun _ => pure .next) := by
  rcases Nat.lt_or_ge (machine.stack.top - machine.frame) count with past | locals
  · have failed : checkLocals count machine =
        .error (.stackUnderflow count (machine.stack.top - machine.frame)) machine :=
      if_neg (Nat.not_le.mpr past)
    refine of_error (Action.bind_of_error failed) ?_
    rintro _ ⟨⟩ locals
    exact absurd past (Nat.not_lt.mpr locals)
  · have passed : checkLocals count machine = .ok () machine := if_pos locals
    have enough : ¬machine.stack.isUnderflow count = true := by
      rw [Stack.isUnderflow, decide_eq_true_iff]
      omega
    have done : onStack (Stack.release count) machine =
        .ok () { machine with stack := machine.stack.drop count } := by
      rw [onStack, Stack.release, if_neg enough]
    exact of_ok ((Action.bind_of_ok passed).trans (Action.bind_of_ok done)) (.remove locals)

/-- An instruction that changes the accumulator. -/
theorem accumulate {change : UInt32 → UInt32} {value : UInt32}
    (same : change machine.registers.accumulator = value) :
    Performs machine (some (.accumulate value)) (modifyAccumulator change >>= fun _ => pure .next) := by
  subst same
  have done : (modifyAccumulator change >>= fun _ => (pure .next : Action Flow)) machine =
    .ok .next (machine.accumulating (change machine.registers.accumulator)) := rfl
  exact of_ok done .accumulate

end Performs

/-- A data instruction does what the table says, and succeeds exactly if that can be done. -/
theorem effect_performs (framed : machine.frame ≤ machine.stack.top)
    (data : instruction.isData = true) :
    Performs machine (machine.transfer? instruction) (effect image offset instruction) := by
  cases instruction with
  | push source => exact .read framed fun value => .push value
  | pushWord value => exact .push value
  | pushWide value => exact .push value
  | pushZero cell =>
    cases cell with
    | word => exact .push (0 : UInt32)
    | wide => exact .push (0 : UInt64)
  | pop cell => exact .release cell.size
  | reserve count => exact .reserve count.toNat
  | reserveWord => exact .reserve 4
  | release count => exact .release count.toNat
  | load destination value => exact .write framed destination value
  | loadAcc value => exact .accumulate rfl
  | fetch source => exact .read framed fun value => .accumulate rfl
  | save destination => exact .get (.write framed destination machine.registers.accumulator)
  | move destination source => exact .read framed fun value => .write framed destination value
  | step operation destination =>
    exact .modify framed destination fun value => operation.apply_eq_wrapped value 1
  | update operation destination source =>
    exact .read framed fun right =>
      .modify framed destination fun left => operation.apply_eq_wrapped left right
  | updateBy operation destination right =>
    exact .modify framed destination fun left => operation.apply_eq_wrapped left right
  | accumulate operation source =>
    exact .read framed fun right => .accumulate (operation.apply_eq_wrapped _ right)
  | accumulateBy operation right => exact .accumulate (operation.apply_eq_wrapped _ right)
  | compare reading left right => cases data
  | compareWith reading left right => cases data
  | jump condition width target => cases data
  | call width target => cases data
  | ret => cases data
  | retShort count => cases data
  | retLong count => cases data
  | retWith value => cases data
  | retLongWith count value => cases data
  | nop => cases data
  | skip count => cases data
  | exit => cases data

/-! ## What instructions show -/

theorem Touched.load {start count position size : Nat} (touched : Touched machine after start count)
    (inside : position + size ≤ machine.stack.capacity)
    (apart : position + size ≤ start ∨ start + count ≤ position) :
    after.stack.load position size = machine.stack.load position size :=
  Stack.load_congr fun index _ _ => touched.bytes index (by omega) (by omega)

theorem assigned_of_store {position : Nat} (framed : machine.frame ≤ machine.stack.top)
    (bounded : machine.stack.top ≤ machine.stack.capacity)
    (found : Frame.slotPosition machine.frame machine.stack.top slot = some position)
    (stack : after.stack = machine.stack.store position (Scalar.encode value))
    (others : after = { machine with stack := after.stack, stats := after.stats, trace := after.trace }) :
    Assigned machine after position slot value := by
  have inUse := (slotsApart framed).inUse slot position found
  have written : position + (Scalar.encode value).length ≤ machine.stack.capacity := by
    rw [Scalar.length_encode, Scalar.width_uint32]
    omega
  have touched : Touched machine after position 4 := by
    refine ⟨others, by rw [stack, Stack.capacity_store], by rw [stack, Stack.growth_store], ?_⟩
    intro index read outside
    rw [stack]
    refine Stack.byte_store_of_outside written read ?_
    rwa [Scalar.length_encode, Scalar.width_uint32]
  have top : after.stack.top = machine.stack.top := by rw [stack, Stack.top_store]
  have frame : after.frame = machine.frame := by rw [others]
  refine ⟨touched, top, slot?_eq_some.mpr ⟨position, by rw [frame, top, found], ?_⟩, ?_⟩
  · have readBack := Stack.load_store_self written
    rw [Scalar.length_encode, Scalar.width_uint32] at readBack
    rw [stack, readBack, Scalar.decode_encode]
  · intro other differ
    rw [slot?, slot?, frame, top]
    cases found' : Frame.slotPosition machine.frame machine.stack.top other with
    | none => rfl
    | some otherPosition =>
      have inUse' := (slotsApart framed).inUse other otherPosition found'
      have apart := (slotsApart framed).distinct slot other position otherPosition differ found found'
      rw [Option.map_some, Option.map_some, touched.load (by omega) apart]

/-- What a data instruction shows is its transfer; counting and recording it changes accounts
only. -/
theorem Moves.shows {transfer : Transfer} {middle : Machine}
    (framed : machine.frame ≤ machine.stack.top)
    (bounded : machine.stack.top ≤ machine.stack.capacity)
    (moves : Moves machine.countInstruction transfer middle) :
    transfer.Shows machine (settle offset instruction middle) := by
  cases moves with
  | assign found => exact ⟨_, found, assigned_of_store framed bounded found rfl rfl⟩
  | accumulate => rfl
  | @append bytes room =>
    have fits : machine.stack.top + bytes.length ≤ machine.stack.capacity := by
      have room : bytes.length ≤ machine.stack.capacity - machine.stack.top := room
      omega
    refine ⟨⟨rfl, Stack.capacity_append _ _, Stack.growth_append _ _, ?_⟩,
      Stack.contents_append fits⟩
    exact fun index read outside => Stack.byte_store_of_outside fits read outside
  | @remove count locals =>
    have locals : count ≤ machine.stack.top - machine.frame := locals
    refine ⟨⟨rfl, rfl, rfl, fun _ _ _ => rfl⟩,
      machine.stack.contents.drop (machine.stack.top - count), ?_, ?_⟩
    · rw [List.length_drop, Stack.length_contents]
      omega
    · exact (congrArg (· ++ _) (Stack.contents_drop machine.stack count)).trans
        (List.take_append_drop _ _) |>.symm

end Machine

namespace Transfer.Shows

variable {before after : Machine} {transfer : Transfer}

/-- No data instruction moves the frame, compares, or arms or uses up a branch. -/
theorem control (shows : transfer.Shows before after) :
    after.frame = before.frame ∧ after.registers.flag = before.registers.flag ∧
      after.fused = before.fused := by
  cases transfer with
  | assign slot value =>
    obtain ⟨position, -, assigned⟩ := shows
    rw [assigned.touched.machine]
    exact ⟨rfl, rfl, rfl⟩
  | accumulate value =>
    rw [show after = _ from shows]
    exact ⟨rfl, rfl, rfl⟩
  | append bytes =>
    rw [shows.1.machine]
    exact ⟨rfl, rfl, rfl⟩
  | remove count =>
    rw [shows.1.machine]
    exact ⟨rfl, rfl, rfl⟩

/-- No data instruction touches the header of the current frame. -/
theorem header (framed : before.frame ≤ before.stack.top)
    (bounded : before.stack.top ≤ before.stack.capacity) (enclosed : 16 ≤ before.frame)
    (shows : transfer.Shows before after) :
    after.stack.load (before.frame - 16) 16 = before.stack.load (before.frame - 16) 16 := by
  cases transfer with
  | assign slot value =>
    obtain ⟨position, found, assigned⟩ := shows
    have apart := (Machine.slotsApart framed).header slot position found
    exact assigned.touched.load (by omega) (by omega)
  | accumulate value => rw [show after = _ from shows]
  | append bytes => exact shows.1.load (by omega) (.inl (by omega))
  | remove count => exact shows.1.load (by omega) (.inl (by omega))

end Transfer.Shows

namespace Machine

variable {image : Image} {offset : Nat} {instruction : Instruction} {machine after : Machine}
  {flow : Flow}

/-- An instruction is the one of the table. -/
structure Tabulated (image : Image) (offset : Nat) (instruction : Instruction)
    (machine : Machine) : Prop where
  succeeds : (∃ flow after, execute image offset instruction machine = .ok flow after) ↔
    ∃ transfer, machine.transfer? instruction = some transfer ∧ transfer.Fits machine
  shows : ∀ flow after, execute image offset instruction machine = .ok flow after →
    flow = .next ∧
      ∃ transfer, machine.transfer? instruction = some transfer ∧ transfer.Shows machine after
  control : ∀ flow after, execute image offset instruction machine = .ok flow after →
    after.frame = machine.frame ∧ after.registers.flag = machine.registers.flag ∧
      after.fused = machine.fused
  header : ∀ flow after, execute image offset instruction machine = .ok flow after →
    16 ≤ machine.frame →
      after.stack.load (machine.frame - 16) 16 = machine.stack.load (machine.frame - 16) 16

/-- What a data instruction that succeeds shows is what the table says. -/
theorem transfer_of_done (framed : machine.frame ≤ machine.stack.top)
    (bounded : machine.stack.top ≤ machine.stack.capacity) (data : instruction.isData = true)
    (done : execute image offset instruction machine = .ok flow after) :
    flow = .next ∧
      ∃ transfer, machine.transfer? instruction = some transfer ∧ transfer.Shows machine after := by
  obtain ⟨middle, ran, rfl⟩ := execute_eq_ok_iff.mp done
  have performs : Performs machine.countInstruction (machine.transfer? instruction)
    (effect image offset instruction) := effect_performs framed data
  obtain ⟨next, transfer, known, moves⟩ := (performs _ _).mp ran
  exact ⟨next, transfer, known, moves.shows framed bounded⟩

/-- **Data instructions do what the table says.** In a frame below the top, slots do not overlap each
other nor the header of the frame. A data instruction succeeds if the table has something to do for
it for which there is the slot, the room or the locals, and then that is done, to the bytes that it
is about and to no others. Control goes on just past it, in the same frame. -/
theorem transfers_of_data (framed : machine.frame ≤ machine.stack.top)
    (bounded : machine.stack.top ≤ machine.stack.capacity) (data : instruction.isData = true) :
    SlotsApart machine ∧ Tabulated image offset instruction machine := by
  have performs : Performs machine.countInstruction (machine.transfer? instruction)
    (effect image offset instruction) := effect_performs framed data
  refine ⟨slotsApart framed, ?_, ?_, ?_, ?_⟩
  · constructor
    · rintro ⟨flow, after, done⟩
      obtain ⟨middle, ran, -⟩ := execute_eq_ok_iff.mp done
      obtain ⟨-, transfer, known, moves⟩ := (performs _ _).mp ran
      exact ⟨transfer, known, moves.fits⟩
    · rintro ⟨transfer, known, fits⟩
      have fits : transfer.Fits machine.countInstruction := fits
      obtain ⟨middle, moves⟩ := moves_of_fits fits
      have ran := (performs .next middle).mpr ⟨rfl, transfer, known, moves⟩
      exact ⟨.next, _, execute_eq_ok_iff.mpr ⟨middle, ran, rfl⟩⟩
  · exact fun flow after done => transfer_of_done framed bounded data done
  · intro flow after done
    obtain ⟨-, transfer, -, shows⟩ := transfer_of_done framed bounded data done
    exact shows.control
  · intro flow after done enclosed
    obtain ⟨-, transfer, -, shows⟩ := transfer_of_done framed bounded data done
    exact shows.header framed bounded enclosed

/-- A machine in its first frame, with the argument seven. -/
def entered : Machine :=
  { ofStackSize 20 .downward with
    stack := (Stack.ofCapacity 20 .downward).entered 7
    frame := 20 }

/-- A slot is added to itself: both operands are its value before. -/
theorem transfers_of_data_aliased :
    entered.transfer? (.update .add (-1) (-1)) = some (.assign (-1) 14) ∧
      SlotsApart entered ∧
      Tabulated ⟨#[0], 0, by decide⟩ 0 (.update .add (-1) (-1)) entered :=
  ⟨by decide +kernel, transfers_of_data (by decide +kernel) (by decide +kernel) rfl⟩

end Machine

end Tandem

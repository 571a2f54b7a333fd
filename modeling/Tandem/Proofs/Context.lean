import Mathlib.Algebra.Ring.Int.Defs
import Mathlib.Algebra.Ring.Nat
import Tandem.Instruction.Encoding
import Tandem.Proofs.Instruction.Extent
import Tandem.Proofs.Threaded.Bounds

/-!
# Contexts under any use

A context is a machine with an image, and it is up to its user what is done with it, and when: it
can be prepared or not, run by either strategy and by code of any image, run on after an error or a
halt, and given other registers between two runs. `Context.Reachable` are the contexts that come of
this, seen between any two instructions.

In every one of them the cursors of both stacks are inside the stacks, and the frame pointer is at
most a header above the top of the operand stack (`Context.Sound`). From this it follows that
nothing that the context does next leaves the range of 64-bit words or reaches out of a buffer or a
table (`Context.Safe`): `Context.reachable_safe`. Images and stacks are smaller than `2 ^ 63` bytes.
-/

namespace Tandem

/-! ## Offsets in 64-bit arithmetic -/

namespace Instruction

/-- An instruction has an opcode byte, at most eight bytes of operands, and skips at most 255. -/
theorem length_le (instruction : Instruction) : instruction.length ≤ 264 := by
  have size : instruction.opcode.size ≤ 9 := by
    cases instruction with
    | jump condition width target => cases width <;> exact Nat.le_of_ble_eq_true rfl
    | call width target => cases width <;> exact Nat.le_of_ble_eq_true rfl
    | _ => exact Nat.le_of_ble_eq_true rfl
  have skipped : instruction.skipped ≤ 255 := by
    cases instruction with
    | skip count => exact Nat.le_of_lt_succ count.toNat_lt
    | _ => exact Nat.zero_le _
  rw [length]
  omega

/-- The offsets that an instruction at `offset` works out are in range: the one just past it is a
64-bit word, and where a target lands that leads before the image start is a signed one. -/
structure InRange (instruction : Instruction) (offset : Nat) : Prop where
  next : offset + instruction.length < UInt64.size
  /-- The signed landing of a target may be worked out even if it is not astray, and is of no use
  then. It is in range up to the greatest distance before `2 ^ 63`. -/
  landing : ∀ distance : Int32, instruction.target? = some (.relative distance) →
    offset + instruction.length + 2 ^ 31 ≤ 2 ^ 63 →
    -2 ^ 63 ≤ (offset + instruction.length : Nat) + distance.toInt ∧
      (offset + instruction.length : Nat) + distance.toInt < 2 ^ 63
  astray : ∀ target landing, instruction.target? = some target →
    target.resolve (offset + instruction.length) = .error landing →
    ∃ distance : Int32, target = .relative distance ∧
      landing = (offset + instruction.length : Nat) + distance.toInt ∧
      -2 ^ 63 ≤ landing ∧ landing < 0

end Instruction

/-- From an offset that is no more than an instruction beyond `2 ^ 63`, a target leads astray only
before the image start. -/
theorem Target.resolve_eq_error {target : Target} {next : Nat} {landing : Int}
    (low : next ≤ 2 ^ 63 + 264) (astray : target.resolve next = .error landing) :
    ∃ distance : Int32, target = .relative distance ∧ landing = next + distance.toInt ∧
      -2 ^ 63 ≤ landing ∧ landing < 0 := by
  cases target with
  | absolute offset => cases astray
  | relative distance =>
    have least := distance.le_toInt
    have most := distance.toInt_lt
    have bound : (offsetBound : Int) = 2 ^ 64 := by decide
    unfold resolve at astray
    dsimp only at astray
    split at astray
    · cases astray
    · rename_i outside
      obtain rfl := Except.error.inj astray
      rw [bound] at outside
      have word : Int.bmod next offsetBound = next :=
        Int.bmod_eq_of_le_mul_two (by rw [bound]; omega) (by rw [bound]; omega)
      rw [word]
      exact ⟨distance, rfl, rfl, by omega, by omega⟩

theorem Instruction.inRange_of_lt {instruction : Instruction} {offset : Nat}
    (low : offset < 2 ^ 63) : instruction.InRange offset := by
  have := instruction.length_le
  refine ⟨?_, fun distance _ room => ?_,
    fun target landing _ astray => Target.resolve_eq_error (by omega) astray⟩
  · rw [show UInt64.size = 2 ^ 64 from rfl]
    omega
  · have least := distance.le_toInt
    have most := distance.toInt_lt
    omega

/-- The code of an image is in range: its operations stand at offsets whose instructions are, and
its links and return points lead into its table. -/
structure Threaded.Code.InRange (code : Threaded.Code) : Prop where
  instructions : ∀ op ∈ code.ops, ∀ instruction, op.decoded = .ok instruction →
    instruction.InRange op.offset
  next : ∀ op ∈ code.ops, ∀ index, op.next = some index → index < code.ops.size
  taken : ∀ op ∈ code.ops, ∀ index, op.taken = some index → index < code.ops.size
  resumes : ∀ id resume, code.resume? id = some resume → resume.op < code.ops.size

theorem Threaded.Code.Faithful.inRange {image : Image} {code : Threaded.Code}
    (faithful : code.Faithful image) (small : image.size < 2 ^ 63) : code.InRange := by
  have settled : ∀ op ∈ code.ops, op.Settled image code.ops := by
    intro op member
    obtain ⟨index, found⟩ := Array.mem_iff_getElem?.mp member
    exact faithful.settled index op found
  refine ⟨fun op member instruction decoded => ?_, fun op member index link => ?_,
    fun op member index link => ?_, fun id resume named => (faithful.resumes id resume named).lt⟩
  · have inside := Instruction.lt_size_of_decode ((settled op member).decoded.symm.trans decoded)
    exact Instruction.inRange_of_lt (by omega)
  · have next := (settled op member).next
    rw [link] at next
    revert next
    generalize op.fallThrough? = offset?
    intro next
    cases next with
    | some stands => exact stands.lt
  · have taken := (settled op member).taken
    rw [link] at taken
    revert taken
    generalize op.destination? = offset?
    intro taken
    cases taken with
    | some stands => exact stands.lt

/-- What decoding and linking an image work out is in range. No field of an instruction starts more
than three bytes behind it. -/
structure Image.InRange (image : Image) : Prop where
  fields : ∀ offset, offset < image.size → offset + 3 < UInt64.size
  code : (Threaded.Code.ofImage image).InRange

theorem Image.inRange_of_lt {image : Image} (small : image.size < 2 ^ 63) : image.InRange where
  fields offset inside := by
    rw [show UInt64.size = 2 ^ 64 from rfl]
    omega
  code := (Threaded.faithful_ofImage image).inRange small

/-- The position of a slot in 64-bit arithmetic, if every sum is in range. -/
def Frame.checkedSlotPosition (pointer top : Nat) (slot : Slot) : Option (Option Nat) :=
  match slot.toInt with
  | .ofNat index =>
    (Checked.add pointer (slotSize * index)).bind fun position =>
      (Checked.add position slotSize).map fun stop => if stop ≤ top then some position else none
  | .negSucc index =>
    let below := headerSize + slotSize * (index + 1)
    some (if below ≤ pointer then some (pointer - below) else none)

theorem Frame.checkedSlotPosition_of_lt {pointer top : Nat} {slot : Slot} (low : pointer < 2 ^ 63) :
    checkedSlotPosition pointer top slot = some (slotPosition pointer top slot) := by
  have most := slot.toInt_lt
  unfold checkedSlotPosition slotPosition
  cases number : slot.toInt with
  | ofNat index =>
    rw [number, Int.ofNat_eq_natCast] at most
    have sum : pointer + slotSize * index < UInt64.size := by
      rw [show UInt64.size = 2 ^ 64 from rfl, slotSize]
      omega
    have stop : pointer + slotSize * index + slotSize < UInt64.size := by
      rw [show UInt64.size = 2 ^ 64 from rfl, slotSize]
      omega
    dsimp only
    rw [Checked.add_of_lt sum, Option.bind_some, Checked.add_of_lt stop]
    rfl
  | negSucc index => rfl

/-! ## Counters -/

/-- Counters of at most `count` instructions. -/
structure Tallied (count : Nat) (stats : Stats) : Prop where
  instructions : stats.instructions ≤ count
  flows : stats.calls + stats.returns ≤ stats.instructions

theorem Tallied.mono {count more : Nat} {stats : Stats} (tallied : Tallied count stats)
    (le : count ≤ more) : Tallied more stats :=
  ⟨Nat.le_trans tallied.instructions le, tallied.flows⟩

variable {stackSize count : Nat} {growth : Growth} {image other : Image} {machine : Machine}

namespace Machine

/-- An instruction counts once, and once more at most as a call or a return. -/
theorem execute_tallied (tallied : Tallied count machine.stats) (image : Image) (offset : Nat)
    (instruction : Instruction) :
    Tallied (count + 1) ((execute image offset instruction).final machine).stats := by
  obtain ⟨instructions, flows⟩ := tallied
  have counted := stats_execute image offset instruction machine
  cases ran : execute image offset instruction machine with
  | error fault after =>
    rw [ran] at counted
    dsimp only at counted
    rw [Action.final_of_error ran, counted]
    exact ⟨Nat.succ_le_succ instructions, Nat.le_succ_of_le flows⟩
  | ok flow after =>
    rw [ran] at counted
    dsimp only at counted
    rw [Action.final_of_ok ran, counted]
    have counts : (flow.counted machine.countInstruction.stats).instructions =
        machine.stats.instructions + 1 := by
      cases flow <;> rfl
    have balances : (flow.counted machine.countInstruction.stats).calls +
        (flow.counted machine.countInstruction.stats).returns ≤
          machine.stats.calls + machine.stats.returns + 1 := by
      cases flow <;> simp only [Flow.counted, countInstruction] <;> omega
    constructor
    · show (flow.counted machine.countInstruction.stats).instructions ≤ count + 1
      omega
    · show (flow.counted machine.countInstruction.stats).calls +
        (flow.counted machine.countInstruction.stats).returns ≤
          (flow.counted machine.countInstruction.stats).instructions
      omega

theorem prepare_tallied (image : Image) (argument : UInt32) (machine : Machine) :
    Tallied 0 ((prepare image argument).final machine).stats := by
  cases ran : prepare image argument machine with
  | ok _ prepared =>
    rw [Action.final_of_ok ran]
    obtain ⟨-, rfl⟩ := prepare_eq_ok ran
    exact ⟨Nat.le_refl 0, Nat.le_refl 0⟩
  | error fault refused =>
    rw [Action.final_of_error ran]
    obtain ⟨-, stack, rfl⟩ := prepare_eq_error ran
    exact ⟨Nat.le_refl 0, Nat.le_refl 0⟩

theorem onContinuations_tallied {α : Type} (action : Stack.Action α) :
    Action.Preserves (fun machine => Tallied count machine.stats) (onContinuations action) := by
  intro machine tallied
  unfold Action.final onContinuations
  cases action machine.continuations with
  | ok value stack => exact tallied
  | error fault stack => exact tallied

end Machine

/-! ## Contexts -/

/-- What a context is in the middle of. -/
inductive Activity where
  /-- Nothing: something new can be done with it. -/
  | idle
  | sequential
  /-- A threaded run of the code of an image, at a place of its table. -/
  | threaded (source : Image) (position : Nat)

/-- A machine, what it is doing, and the number of instructions that it has started in its life. -/
structure Context where
  machine : Machine
  activity : Activity
  instructions : Nat

/-- The instructions that the next round starts: one, unless there is none to start. -/
def Activity.starts (image : Image) (machine : Machine) : Activity → Nat
  | .idle => 0
  | .sequential => if (Instruction.decode image machine.cursor).isOk then 1 else 0
  | .threaded source position =>
    if (Threaded.Code.ofImage source).ops[position]?.any (·.decoded.isOk) then 1 else 0

namespace Context

/-- What a context can come to be by any use, between any two instructions. A run can start whenever
none is going on, prepared or not, and threaded code may be that of another image. -/
inductive Reachable (image : Image) (stackSize : Nat) (growth : Growth) : Context → Prop
  | fresh : Reachable image stackSize growth ⟨.ofStackSize stackSize growth, .idle, 0⟩
  | prepare {machine : Machine} {count : Nat} (argument : UInt32)
    (before : Reachable image stackSize growth ⟨machine, .idle, count⟩) :
    Reachable image stackSize growth
      ⟨(Machine.prepare image argument).final machine, .idle, count⟩
  | setRegisters {machine : Machine} {count : Nat} (registers : Registers)
    (before : Reachable image stackSize growth ⟨machine, .idle, count⟩) :
    Reachable image stackSize growth ⟨{ machine with registers }, .idle, count⟩
  | setTrace {machine : Machine} {count : Nat} (trace : Option (List Record))
    (before : Reachable image stackSize growth ⟨machine, .idle, count⟩) :
    Reachable image stackSize growth ⟨{ machine with trace }, .idle, count⟩
  | startSequential {machine : Machine} {count : Nat}
    (before : Reachable image stackSize growth ⟨machine, .idle, count⟩) :
    Reachable image stackSize growth ⟨machine, .sequential, count⟩
  | sequentialRound {machine next : Machine} {count : Nat}
    (before : Reachable image stackSize growth ⟨machine, .sequential, count⟩)
    (goesOn : Sequential.step image machine = .running next) :
    Reachable image stackSize growth
      ⟨next, .sequential, count + Activity.starts image machine .sequential⟩
  | sequentialEnd {machine final : Machine} {count : Nat} {result : Except Fault UInt32}
    (before : Reachable image stackSize growth ⟨machine, .sequential, count⟩)
    (ends : Sequential.step image machine = .done result final) :
    Reachable image stackSize growth
      ⟨final, .idle, count + Activity.starts image machine .sequential⟩
  | startThreaded {machine entered : Machine} {count : Nat} (source : Image)
    (small : source.size < 2 ^ 63)
    (before : Reachable image stackSize growth ⟨machine, .idle, count⟩)
    (rooted : Machine.onContinuations (Stack.push Threaded.rootId) machine = .ok () entered) :
    Reachable image stackSize growth ⟨entered, .threaded source 0, count⟩
  /-- There may be no room for the engine's id, in a machine that was not prepared. -/
  | refuseThreaded {machine refused : Machine} {count : Nat} {fault : Fault}
    (before : Reachable image stackSize growth ⟨machine, .idle, count⟩)
    (full : Machine.onContinuations (Stack.push Threaded.rootId) machine = .error fault refused) :
    Reachable image stackSize growth ⟨refused, .idle, count⟩
  | threadedRound {machine : Machine} {next : Threaded.Thread} {source : Image}
    {position count : Nat}
    (before : Reachable image stackSize growth ⟨machine, .threaded source position, count⟩)
    (goesOn : Threaded.step image (.ofImage source) ⟨position, machine⟩ = .running next) :
    Reachable image stackSize growth ⟨next.machine, .threaded source next.position,
      count + Activity.starts image machine (.threaded source position)⟩
  | threadedEnd {machine : Machine} {final : Threaded.Thread} {source : Image}
    {position count : Nat} {result : Except Fault UInt32}
    (before : Reachable image stackSize growth ⟨machine, .threaded source position, count⟩)
    (ends : Threaded.step image (.ofImage source) ⟨position, machine⟩ = .done result final) :
    Reachable image stackSize growth
      ⟨final.machine, .idle, count + Activity.starts image machine (.threaded source position)⟩

/-- A threaded run is at a place of its table. -/
def Located : Activity → Prop
  | .threaded source position =>
    source.size < 2 ^ 63 ∧ position < (Threaded.Code.ofImage source).ops.size
  | .idle => True
  | .sequential => True

/-- What every use of a context keeps. -/
structure Sound (stackSize : Nat) (context : Context) : Prop where
  bounds : Machine.InBounds stackSize context.machine
  located : Located context.activity
  tallied : Tallied context.instructions context.machine.stats

end Context

/-! ## Rounds -/

theorem Sequential.step_tallied (image : Image) (tallied : Tallied count machine.stats) :
    Tallied (count + Activity.starts image machine .sequential)
      (Sequential.step image machine).state.stats := by
  unfold Activity.starts
  cases decoded : Instruction.decode image machine.cursor with
  | error fault =>
    rw [step_of_undecodable decoded]
    exact tallied
  | ok instruction =>
    have kept := Machine.execute_tallied tallied image machine.cursor instruction
    cases ran : Machine.execute image machine.cursor instruction machine with
    | error fault after =>
      rw [Action.final_of_error ran] at kept
      rw [step_of_failed decoded ran]
      exact kept
    | ok flow after =>
      rw [Action.final_of_ok ran] at kept
      rw [step_of_done decoded ran]
      cases flow <;> exact kept

theorem Threaded.step_tallied {source : Image} {position : Nat} (image : Image)
    (tallied : Tallied count machine.stats)
    (inside : position < (Code.ofImage source).ops.size) :
    Tallied (count + Activity.starts image machine (.threaded source position))
      (Threaded.step image (.ofImage source) ⟨position, machine⟩).state.machine.stats := by
  have place : (Code.ofImage source).ops[position]? = some (Code.ofImage source).ops[position] :=
    Array.getElem?_eq_getElem inside
  have found : (Code.ofImage source).ops[(⟨position, machine⟩ : Thread).position]? =
      some (Code.ofImage source).ops[position] := place
  unfold Activity.starts
  dsimp only
  rw [place, Option.any_some]
  cases decoded : (Code.ofImage source).ops[position].decoded with
  | error fault =>
    rw [step_of_undecodable found decoded]
    exact tallied
  | ok instruction =>
    have counted := Machine.execute_tallied tallied image (Code.ofImage source).ops[position].offset
      instruction
    have kept : Tallied (count + 1)
        ((dispatch image (.ofImage source) (Code.ofImage source).ops[position] instruction).final
          machine).stats := by
      cases ran : Machine.execute image (Code.ofImage source).ops[position].offset instruction
          machine with
      | error fault after =>
        rw [Action.final_of_error ran] at counted
        rwa [Action.final_of_error (dispatch_of_failed ran)]
      | ok flow after =>
        rw [Action.final_of_ok ran] at counted
        rw [Action.final, dispatch_of_done ran]
        exact successor_preserves (P := fun machine => Tallied (count + 1) machine.stats)
          (fun id => Machine.onContinuations_tallied _) (Machine.onContinuations_tallied _) _ _ flow
          after counted
    cases ran : dispatch image (.ofImage source) (Code.ofImage source).ops[position] instruction
        machine with
    | error fault after =>
      rw [Action.final_of_error ran] at kept
      rw [step_of_error found decoded ran]
      exact kept
    | ok next? after =>
      rw [Action.final_of_ok ran] at kept
      cases next? with
      | none =>
        rw [step_of_none found decoded ran]
        exact kept
      | some next =>
        rw [step_of_some found decoded ran]
        exact kept

namespace Context

theorem Reachable.sound {context : Context} (reached : Reachable image stackSize growth context) :
    Sound stackSize context := by
  induction reached with
  | fresh =>
    exact ⟨Machine.inBounds_ofStackSize stackSize growth, trivial, Nat.le_refl 0, Nat.le_refl 0⟩
  | prepare argument before ih =>
    exact ⟨Machine.prepare_inBounds image argument _ ih.bounds, trivial,
      (Machine.prepare_tallied image argument _).mono (Nat.zero_le _)⟩
  | setRegisters registers before ih => exact ⟨{ ih.bounds with }, trivial, ih.tallied⟩
  | setTrace trace before ih => exact ⟨{ ih.bounds with }, trivial, ih.tallied⟩
  | startSequential before ih => exact ⟨ih.bounds, trivial, ih.tallied⟩
  | sequentialRound before goesOn ih =>
    have bounds := ih.bounds.step image
    have tallied := Sequential.step_tallied image ih.tallied
    rw [goesOn] at bounds tallied
    exact ⟨bounds, trivial, tallied⟩
  | sequentialEnd before ends ih =>
    have bounds := ih.bounds.step image
    have tallied := Sequential.step_tallied image ih.tallied
    rw [ends] at bounds tallied
    exact ⟨bounds, trivial, tallied⟩
  | startThreaded source small before rooted ih =>
    have bounds := (Machine.onContinuations_inBounds (Stack.push_bounded _)).of_ok ih.bounds rooted
    have tallied := (Machine.onContinuations_tallied _).of_ok ih.tallied rooted
    exact ⟨bounds, ⟨small, (Threaded.faithful_ofImage source).entry.lt⟩, tallied⟩
  | refuseThreaded before full ih =>
    have bounds := (Machine.onContinuations_inBounds (Stack.push_bounded _)).of_error ih.bounds full
    have tallied := (Machine.onContinuations_tallied _).of_error ih.tallied full
    exact ⟨bounds, trivial, tallied⟩
  | @threadedRound machine next source position count before goesOn ih =>
    obtain ⟨small, inside⟩ := ih.located
    have start : Threaded.InBounds stackSize (.ofImage source) ⟨position, machine⟩ :=
      ⟨inside, ih.bounds⟩
    have bounds := start.step (Threaded.faithful_ofImage source) image
    have tallied := Threaded.step_tallied image ih.tallied inside
    rw [goesOn] at bounds tallied
    exact ⟨bounds.machine, ⟨small, bounds.position⟩, tallied⟩
  | @threadedEnd machine final source position count result before ends ih =>
    obtain ⟨small, inside⟩ := ih.located
    have start : Threaded.InBounds stackSize (.ofImage source) ⟨position, machine⟩ :=
      ⟨inside, ih.bounds⟩
    have bounds := start.step (Threaded.faithful_ofImage source) image
    have tallied := Threaded.step_tallied image ih.tallied inside
    rw [ends] at bounds tallied
    exact ⟨bounds.machine, trivial, tallied⟩

/-! ## Runs -/

/-- The rounds of a sequential run are uses of the context. -/
theorem Reachable.sequentialRounds {n : Nat} {later : Machine}
    (before : Reachable image stackSize growth ⟨machine, .sequential, count⟩)
    (reached : iteration (Sequential.step image) n machine = some later) :
    ∃ more, Reachable image stackSize growth ⟨later, .sequential, more⟩ := by
  induction n generalizing later with
  | zero =>
    cases reached
    exact ⟨count, before⟩
  | succ n ih =>
    obtain ⟨current, reached, goesOn⟩ := iteration_succ_eq_some.mp reached
    obtain ⟨more, earlier⟩ := ih reached
    exact ⟨_, earlier.sequentialRound goesOn⟩

/-- A sequential run that ends is a use of the context. -/
theorem Reachable.run_sequential {fuel : Nat} {outcome : Outcome Machine}
    (before : Reachable image stackSize growth ⟨machine, .idle, count⟩)
    (ended : Sequential.run image fuel machine = some outcome) :
    ∃ more, Reachable image stackSize growth ⟨outcome.state, .idle, more⟩ := by
  obtain ⟨n, last, -, reached, stopped⟩ := iterate_eq_some ended
  obtain ⟨more, earlier⟩ := before.startSequential.sequentialRounds reached
  exact ⟨_, earlier.sequentialEnd stopped⟩

/-- The rounds of a threaded run are uses of the context. -/
theorem Reachable.threadedRounds {n position : Nat} {later : Threaded.Thread}
    (before : Reachable image stackSize growth ⟨machine, .threaded other position, count⟩)
    (reached : iteration (Threaded.step image (.ofImage other)) n ⟨position, machine⟩ =
      some later) :
    ∃ more, Reachable image stackSize growth
      ⟨later.machine, .threaded other later.position, more⟩ := by
  induction n generalizing later with
  | zero =>
    cases reached
    exact ⟨count, before⟩
  | succ n ih =>
    obtain ⟨current, reached, goesOn⟩ := iteration_succ_eq_some.mp reached
    obtain ⟨more, earlier⟩ := ih reached
    exact ⟨_, earlier.threadedRound goesOn⟩

/-- A threaded run that ends is a use of the context, whichever image its code is of. -/
theorem Reachable.run_threaded {fuel : Nat} {outcome : Outcome Machine}
    (before : Reachable image stackSize growth ⟨machine, .idle, count⟩)
    (small : other.size < 2 ^ 63)
    (ended : Threaded.run image (.ofImage other) fuel machine = some outcome) :
    ∃ more, Reachable image stackSize growth ⟨outcome.state, .idle, more⟩ := by
  unfold Threaded.run at ended
  cases rooted : Machine.onContinuations (Stack.push Threaded.rootId) machine with
  | error fault refused =>
    rw [rooted] at ended
    cases ended
    exact ⟨_, before.refuseThreaded rooted⟩
  | ok _ entered =>
    rw [rooted] at ended
    obtain ⟨last, dispatched, rfl⟩ := Option.map_eq_some_iff.mp ended
    obtain ⟨n, thread, -, reached, stopped⟩ := iterate_eq_some dispatched
    obtain ⟨more, earlier⟩ := (before.startThreaded other small rooted).threadedRounds reached
    exact ⟨_, earlier.threadedEnd stopped⟩

/-! ## Safety -/

/-- A context whose cursors are where they belong, and in which nothing that it does next can leave
the range of 64-bit words or reach out of a buffer or a table. -/
structure Safe (image : Image) (context : Context) : Prop where
  top : context.machine.stack.top ≤ context.machine.stack.capacity
  continuationsTop : context.machine.continuations.top ≤ context.machine.continuations.capacity
  frame : context.machine.frame ≤ context.machine.stack.capacity
  near : context.machine.frame ≤ context.machine.stack.top + Frame.headerSize
  depth : context.machine.stats.maxDepth ≤ context.machine.stack.capacity
  /-- Whatever is done to the operand stack, in any number and order. -/
  stack : ∀ operations, (Stack.afterAll operations context.machine.stack).InRange
  continuations : ∀ operations, (Stack.afterAll operations context.machine.continuations).InRange
  slots : ∀ slot,
    Frame.checkedSlotPosition context.machine.frame context.machine.stack.top slot =
      some (Frame.slotPosition context.machine.frame context.machine.stack.top slot)
  /-- A slot that is found can be read and written. -/
  found : ∀ slot position,
    Frame.slotPosition context.machine.frame context.machine.stack.top slot = some position →
    position + 4 ≤ context.machine.stack.top ∧
      (∃ value, context.machine.stack.readWord position = .ok value) ∧
      ∀ value, ∃ after, Stack.writeWord position value context.machine.stack = .ok () after
  reads : ∀ offset slot fault after,
    Machine.readSlot offset slot context.machine = .error fault after →
    fault = .invalidSlot offset slot ∧ after = context.machine
  writes : ∀ offset slot value fault after,
    Machine.writeSlot offset slot value context.machine = .error fault after →
    fault = .invalidSlot offset slot ∧ after = context.machine
  modifies : ∀ offset slot change fault after,
    Machine.modifySlot offset slot change context.machine = .error fault after →
    fault = .invalidSlot offset slot ∧ after = context.machine
  /-- The instruction at the cursor. -/
  sequential : context.activity = .sequential → ∀ instruction,
    Instruction.decode image context.machine.cursor = .ok instruction →
    instruction.InRange context.machine.cursor
  /-- The operation that a thread is at, and the link that it goes along. -/
  threaded : ∀ source position, context.activity = .threaded source position →
    ∃ op, (Threaded.Code.ofImage source).ops[position]? = some op ∧
      ∀ instruction, op.decoded = .ok instruction → instruction.InRange op.offset ∧
        ∀ flow after, Machine.execute image op.offset instruction context.machine = .ok flow after →
          op.Linked (Threaded.Code.ofImage source).ops flow
  counters : context.instructions < UInt64.size →
    context.machine.stats.instructions < UInt64.size ∧
      context.machine.stats.calls < UInt64.size ∧ context.machine.stats.returns < UInt64.size

theorem Sound.safe {context : Context} (sound : Sound stackSize context)
    (imageSmall : image.size < 2 ^ 63) (stackSmall : stackSize < 2 ^ 63) : Safe image context := by
  obtain ⟨⟨⟨bounded, frame, near⟩, continuations, depth⟩, located, tallied⟩ := sound
  have bounds : Machine.InBounds stackSize context.machine :=
    ⟨⟨bounded, frame, near⟩, continuations, depth⟩
  have word : UInt64.size = 2 ^ 64 := rfl
  have ids : Machine.continuationCapacity stackSize < UInt64.size := by
    rw [word, Machine.continuationCapacity, Frame.headerSize, Machine.continuationSize]
    omega
  refine
    { top := by rw [bounded.capacity]; exact bounded.top
      continuationsTop := by rw [continuations.capacity]; exact continuations.top
      frame := by rwa [bounded.capacity]
      near
      depth := by rwa [bounded.capacity]
      stack := fun operations => (bounded.afterAll operations).inRange (by omega)
      continuations := fun operations => (continuations.afterAll operations).inRange ids
      slots := fun slot => Frame.checkedSlotPosition_of_lt (by omega)
      found := fun slot position found => ?_
      reads := fun offset slot fault after failed => (bounds.readSlot failed).2
      writes := fun offset slot value fault after failed => (bounds.writeSlot failed).2
      modifies := fun offset slot change fault after failed => (bounds.modifySlot failed).2
      sequential := fun _ instruction decoded => ?_
      threaded := fun source position activity => ?_
      counters := fun few => ?_ }
  · have inUse := bounds.slot_inUse found
    exact ⟨inUse, ⟨_, Stack.readWord_of_inUse inUse⟩,
      fun value => ⟨_, Stack.writeWord_of_inUse value inUse⟩⟩
  · have inside := Instruction.lt_size_of_decode decoded
    exact Instruction.inRange_of_lt (by omega)
  · rw [activity] at located
    obtain ⟨small, inside⟩ := located
    have faithful := Threaded.faithful_ofImage source
    have place := Array.getElem?_eq_getElem inside
    refine ⟨_, place, fun instruction decoded => ⟨?_, fun flow after done => ?_⟩⟩
    · exact (faithful.inRange small).instructions _ (Array.getElem_mem inside) instruction decoded
    · exact (faithful.settled _ _ place).linked decoded (Machine.execute_completes done)
  · have := tallied.instructions
    have := tallied.flows
    omega

/-- Whatever is done with a context, it is safe at every moment; so is the linking of any image. -/
theorem reachable_safe (imageSmall : image.size < 2 ^ 63) (stackSmall : stackSize < 2 ^ 63)
    (growth : Growth) :
    Machine.continuationCapacity stackSize < UInt64.size ∧
      (∀ other : Image, other.size < 2 ^ 63 → other.InRange) ∧
      ∀ context, Reachable image stackSize growth context → Safe image context := by
  refine ⟨?_, fun other small => Image.inRange_of_lt small,
    fun context reached => reached.sound.safe imageSmall stackSmall⟩
  rw [show UInt64.size = 2 ^ 64 from rfl, Machine.continuationCapacity, Frame.headerSize,
    Machine.continuationSize]
  omega

/-- An image whose function changes the frame pointer that the engine's frame has saved. -/
def toppling : Image where
  bytes := Instruction.assemble [.call .near (.relative 1), .ret, .load (-4) 255, .ret]
  entry := 0
  entry_lt := by decide

/-- Its last return fails with the header off the stack and the frame pointer a header above it. -/
theorem reachable_safe_toppling :
    toppling.size < 2 ^ 63 ∧ 64 < 2 ^ 63 ∧
      ∃ context, Reachable toppling 64 .downward context ∧
        context.machine.frame = context.machine.stack.top + Frame.headerSize ∧
        Safe toppling context := by
  have small : toppling.size < 2 ^ 63 := by decide
  have stackSmall : 64 < 2 ^ 63 := by decide
  have fails : (Sequential.run toppling 4
      ((Machine.prepare toppling 0).final (.ofStackSize 64 .downward))).map
        (fun outcome => (outcome.state.frame, outcome.state.stack.top)) = some (20, 4) := by
    decide +kernel
  obtain ⟨outcome, ended, cursors⟩ := Option.map_eq_some_iff.mp fails
  obtain ⟨count, reached⟩ := (Reachable.fresh.prepare 0).run_sequential ended
  obtain ⟨frame, top⟩ := Prod.mk.inj cursors
  refine ⟨small, stackSmall, _, reached, ?_, (reachable_safe small stackSmall _).2.2 _ reached⟩
  rw [frame, top, Frame.headerSize]

end Context

end Tandem

import Tandem.Proofs.Boundary
import Tandem.Proofs.Instruction.Inverse
import Tandem.Proofs.Stack.Contracts

/-!
# Contracts of instructions

What instructions make of the part of a machine that they work on: the frame pointer, the contents of
the operand stack, the registers and the latch (`Machine.View`). A contract holds for every machine
with a stack of the given size that shows a view, whatever the cells above the top, the trace and the
continuation stack are.

The counters follow from the flows (`Stats.after`), so that contracts of instructions compose to what
a stretch of a sequential run does, counters included: `Sequential.Reaches`.
-/

namespace Tandem

/-- The parts of a machine that instructions work on. -/
structure Machine.View where
  frame : Nat
  contents : List UInt8
  registers : Registers
  fused : Bool := false

namespace Machine

variable {α : Type} {size : Nat} {view : View} {image : Image} {offset : Nat}
  {before behind contents : List UInt8} {slot : Slot} {value : UInt32} {registers : Registers}
  {condition : Condition} {width : Width} {target : Target}

/-- A machine with a stack of the given size that looks like this. -/
structure Shows (size : Nat) (view : View) (machine : Machine) : Prop where
  frame : machine.frame = view.frame
  stack : Stack.Shows size view.contents machine.stack
  registers : machine.registers = view.registers
  fused : machine.fused = view.fused

/-- A slot holds a value, with these bytes before and behind it. -/
structure View.HasSlot (view : View) (slot : Slot) (before : List UInt8) (value : UInt32)
    (behind : List UInt8) : Prop where
  position : Frame.slotPosition view.frame view.contents.length slot = some before.length
  contents : view.contents = before ++ Scalar.encode value ++ behind

/-! ## Parts of instructions -/

theorem onStack_achieves {action : Stack.Action α} {result : α}
    (achieves : Action.Achieves (Stack.Shows size view.contents) action result
      (Stack.Shows size contents)) :
    Action.Achieves (Shows size view) (onStack action) result
      (Shows size { view with contents }) := by
  intro machine shown
  obtain ⟨stack, acted, shown'⟩ := achieves machine.stack shown.stack
  exact ⟨{ machine with stack }, onStack_of_ok acted, shown.frame, shown', shown.registers,
    shown.fused⟩

theorem slotPosition_achieves (holds : view.HasSlot slot before value behind) :
    Action.Achieves (Shows size view) (slotPosition offset slot) before.length (Shows size view) := by
  intro machine shown
  refine ⟨machine, ?_, shown⟩
  rw [slotPosition, shown.frame, shown.stack.top, holds.position]

theorem readWord_achieves (holds : view.HasSlot slot before value behind) :
    Action.Achieves (Shows size view) (readWord before.length) value (Shows size view) := by
  intro machine shown
  have stack := shown.stack
  rw [holds.contents] at stack
  exact ⟨machine, by rw [readWord, stack.readWord], shown⟩

theorem readSlot_achieves (holds : view.HasSlot slot before value behind) :
    Action.Achieves (Shows size view) (readSlot offset slot) value (Shows size view) :=
  .bind (slotPosition_achieves holds) (readWord_achieves holds)

theorem writeWord_achieves (holds : view.HasSlot slot before value behind) (other : UInt32) :
    Action.Achieves (Shows size view) (onStack (Stack.writeWord before.length other)) ()
      (Shows size { view with contents := before ++ Scalar.encode other ++ behind }) := by
  apply onStack_achieves
  rw [holds.contents]
  exact Stack.writeWord_achieves other

theorem writeSlot_achieves (holds : view.HasSlot slot before value behind) (other : UInt32) :
    Action.Achieves (Shows size view) (writeSlot offset slot other) ()
      (Shows size { view with contents := before ++ Scalar.encode other ++ behind }) :=
  .bind (slotPosition_achieves holds) (writeWord_achieves holds other)

theorem modifySlot_achieves (holds : view.HasSlot slot before value behind)
    (change : UInt32 → UInt32) :
    Action.Achieves (Shows size view) (modifySlot offset slot change) ()
      (Shows size { view with contents := before ++ Scalar.encode (change value) ++ behind }) :=
  .bind (slotPosition_achieves holds) (.bind (readWord_achieves holds) (writeWord_achieves holds _))

theorem checkLocals_achieves {count : Nat} (locals : view.frame + count ≤ view.contents.length) :
    Action.Achieves (Shows size view) (checkLocals count) () (Shows size view) := by
  refine .get fun machine shown => .ensure ?_ _
  rw [shown.stack.top, shown.frame]
  omega

theorem modifyAccumulator_achieves (change : UInt32 → UInt32) :
    Action.Achieves (Shows size view) (modifyAccumulator change) ()
      (Shows size { view with
        registers := { view.registers with accumulator := change view.registers.accumulator } }) :=
  .modify fun machine shown =>
    ⟨shown.frame, shown.stack, by rw [shown.registers], shown.fused⟩

/-- Setting the frame pointer. -/
theorem setFrame_achieves (frame : Nat) :
    Action.Achieves (Shows size view) (modify fun machine => { machine with frame }) ()
      (Shows size { view with frame }) :=
  .modify fun _ shown => ⟨rfl, shown.stack, shown.registers, shown.fused⟩

theorem countCall_achieves :
    Action.Achieves (Shows size view) (modify countCall) () (Shows size view) :=
  .modify fun _ shown => ⟨shown.frame, shown.stack, shown.registers, shown.fused⟩

theorem countReturn_achieves :
    Action.Achieves (Shows size view) (modify countReturn) () (Shows size view) :=
  .modify fun _ shown => ⟨shown.frame, shown.stack, shown.registers, shown.fused⟩

theorem fuse_achieves {next : Nat} (left right : Int)
    (branch : image.read UInt8 next = .ok (Opcode.jumpByte condition width)) :
    Action.Achieves (Shows size view) (fuse image next left right) ()
      (Shows size { view with
        registers := { view.registers with flag := condition.holds left right }
        fused := true }) := by
  have known : Opcode.jump? (Opcode.jumpByte condition width) = some (condition, width) := by
    cases condition <;> cases width <;> rfl
  have peeks : Action.Achieves (Shows size view) (ofExcept (image.read UInt8 next))
      (Opcode.jumpByte condition width) (Shows size view) := by
    rw [branch]
    exact .pure _
  refine .bind peeks ?_
  rw [known]
  exact .modify fun machine shown => ⟨shown.frame, shown.stack, by rw [shown.registers], rfl⟩

/-! ## Instructions -/

/-- The accounts of an instruction do not show. -/
theorem execute_achieves {instruction : Instruction} {flow : Flow} {after : View}
    (achieves : Action.Achieves (Shows size view) (effect image offset instruction) flow
      (Shows size after)) :
    Action.Achieves (Shows size view) (execute image offset instruction) flow
      (Shows size after) := by
  have counts : Action.Achieves (Shows size view) (modify countInstruction) () (Shows size view) :=
    .modify fun machine shown => ⟨shown.frame, shown.stack, shown.registers, shown.fused⟩
  have settles : Action.Achieves (Shows size after) (modify (settle offset instruction)) ()
      (Shows size after) :=
    .modify fun machine shown => ⟨shown.frame, shown.stack, shown.registers, shown.fused⟩
  exact .bind counts (.bind achieves (.bind settles (.pure flow)))

theorem push_achieves (holds : view.HasSlot slot before value behind)
    (room : view.contents.length + 4 ≤ size) :
    Action.Achieves (Shows size view) (execute image offset (.push slot)) .next
      (Shows size { view with contents := view.contents ++ Scalar.encode value }) :=
  execute_achieves (.bind (readSlot_achieves holds)
    (.bind (onStack_achieves (Stack.push_achieves room)) (.pure _)))

theorem reserveWord_achieves (room : view.contents.length + 4 ≤ size) :
    Action.Achieves (Shows size view) (execute image offset .reserveWord) .next
      (Shows size { view with contents := view.contents ++ Scalar.encode (0 : UInt32) }) := by
  have zeros : List.replicate 4 0 = Scalar.encode (0 : UInt32) := by decide
  rw [← zeros]
  exact execute_achieves (.bind (onStack_achieves (Stack.reserve_achieves room)) (.pure _))

theorem popWord_achieves (locals : view.frame ≤ contents.length)
    (holds : view.contents = contents ++ Scalar.encode value) :
    Action.Achieves (Shows size view) (execute image offset (.pop .word)) .next
      (Shows size { view with contents }) := by
  have length : (Scalar.encode value).length = Cell.word.size := Scalar.length_encode value
  have enough : view.frame + Cell.word.size ≤ view.contents.length := by
    rw [holds, List.length_append, length]
    omega
  have releases : Action.Achieves (Stack.Shows size view.contents)
      (Stack.release Cell.word.size) () (Stack.Shows size contents) := by
    rw [holds, ← length]
    exact Stack.release_achieves _
  exact execute_achieves (.bind (checkLocals_achieves enough)
    (.bind (onStack_achieves releases) (.pure _)))

theorem save_achieves (holds : view.HasSlot slot before value behind)
    (saved : contents = before ++ Scalar.encode view.registers.accumulator ++ behind) :
    Action.Achieves (Shows size view) (execute image offset (.save slot)) .next
      (Shows size { view with contents }) := by
  refine execute_achieves (.get fun machine shown => ?_)
  rw [shown.registers, saved]
  exact .bind (writeSlot_achieves holds _) (.pure _)

theorem step_achieves {operation : Arithmetic} (holds : view.HasSlot slot before value behind)
    (stepped : contents = before ++ Scalar.encode (operation.apply value 1) ++ behind) :
    Action.Achieves (Shows size view) (execute image offset (.step operation slot)) .next
      (Shows size { view with contents }) := by
  rw [stepped]
  exact execute_achieves
    (.bind (modifySlot_achieves holds fun value => operation.apply value 1) (.pure _))

theorem accumulate_achieves {operation : Arithmetic} {accumulator : UInt32}
    (holds : view.HasSlot slot before value behind)
    (combined : accumulator = operation.apply view.registers.accumulator value) :
    Action.Achieves (Shows size view) (execute image offset (.accumulate operation slot)) .next
      (Shows size { view with registers := { view.registers with accumulator } }) := by
  rw [combined]
  exact execute_achieves (.bind (readSlot_achieves holds)
    (.bind (modifyAccumulator_achieves fun left => operation.apply left value) (.pure _)))

theorem compareWith_achieves {reading : Signedness} {right : UInt32} {flag : Bool}
    (holds : view.HasSlot slot before value behind)
    (branch : image.read UInt8 (offset + (Instruction.compareWith reading slot right).length) =
      .ok (Opcode.jumpByte condition width))
    (decided : condition.holds (reading.read value) (reading.read right) = flag) :
    Action.Achieves (Shows size view) (execute image offset (.compareWith reading slot right)) .next
      (Shows size { view with registers := { view.registers with flag }, fused := true }) := by
  rw [← decided]
  exact execute_achieves
    (.bind (readSlot_achieves holds) (.bind (fuse_achieves _ _ branch) (.pure _)))

/-- Where a jump goes. A conditional one needs an armed latch, and goes by the flag. -/
theorem jump_achieves {taken : Bool} {flow : Flow}
    (decided : condition = .always ∧ taken = true ∨
      view.fused = true ∧ taken = view.registers.flag ∧ condition ≠ .always)
    (goes : if taken then ∃ destination,
        target.resolve (offset + (Instruction.jump condition width target).length) =
          .ok destination ∧ flow = .branch destination
      else flow = .next) :
    Action.Achieves (Shows size view) (execute image offset (.jump condition width target)) flow
      (Shows size { view with fused := false }) := by
  have tested : Action.Achieves (Shows size view) (isTaken offset condition width) taken
      (Shows size view) := by
    intro machine shown
    refine ⟨machine, ?_, shown⟩
    rcases decided with ⟨always, taken⟩ | ⟨armed, taken, conditional⟩
    · rw [isTaken, if_pos always, taken]
    · rw [isTaken, if_neg conditional, if_pos (shown.fused.trans armed), taken, shown.registers]
  have disarms : Action.Achieves (Shows size view)
      (modify fun machine => { machine with fused := false }) ()
      (Shows size { view with fused := false }) :=
    .modify fun machine shown => ⟨shown.frame, shown.stack, shown.registers, rfl⟩
  refine execute_achieves (.bind tested (.bind disarms ?_))
  cases taken with
  | true =>
    obtain ⟨destination, leads, rfl⟩ := goes
    have resolves : resolve offset (offset + (Instruction.jump condition width target).length)
        target = pure destination := by
      rw [resolve, leads]
    rw [if_pos rfl, resolves]
    exact .bind (.pure _) (.pure _)
  | false =>
    obtain rfl : flow = .next := goes
    exact .pure _

theorem call_achieves {destination frame : Nat}
    (leads : target.resolve (offset + (Instruction.call width target).length) = .ok destination)
    (framed : frame = view.contents.length + Frame.headerSize) (room : frame ≤ size)
    (pushed : contents = view.contents ++ Frame.header view.frame
      (offset + (Instruction.call width target).length).toUInt64) :
    Action.Achieves (Shows size view) (execute image offset (.call width target))
      (.call destination) (Shows size { view with frame, contents }) := by
  have resolves : resolve offset (offset + (Instruction.call width target).length) target =
      pure destination := by
    rw [resolve, leads]
  rw [framed] at room
  rw [framed, pushed]
  refine execute_achieves ?_
  show Action.Achieves _ (call offset (offset + (Instruction.call width target).length) target) _ _
  rw [call, resolves]
  refine .bind (.pure _) (.get fun machine shown => ?_)
  rw [shown.frame]
  exact .bind (onStack_achieves (Frame.push_achieves room)) (.bind (setFrame_achieves _)
    (.bind countCall_achieves (.pure _)))

/-! ## Returns -/

/-- Where a return to this address goes. -/
def returnFlow (returnAddress : UInt64) : Flow :=
  if returnAddress = Frame.noCaller then .toEngine else .toCaller returnAddress.toNat

/-- A return from a frame whose header and locals are on top of `contents`. -/
theorem ret_achieves {caller count : Nat} {returnAddress : UInt64} {locals : List UInt8}
    (frame : view.frame = contents.length + Frame.headerSize)
    (holds : view.contents = contents ++ Frame.header caller returnAddress ++ locals)
    (all : count = locals.length) (small : contents.length < UInt64.size)
    (low : caller ≤ contents.length)
    (returns : returnAddress = Frame.noCaller ∨ returnAddress.toNat < image.size) :
    Action.Achieves (Shows size view) (ret image offset count) (returnFlow returnAddress)
      (Shows size { view with frame := caller, contents }) := by
  have unwinds : Action.Achieves (Stack.Shows size view.contents)
      (Frame.pop view.frame count image.size offset) ⟨caller, returnAddress⟩
      (Stack.Shows size contents) := by
    rw [holds, frame, all]
    exact Frame.pop_achieves small low returns
  refine .get fun machine shown => ?_
  rw [shown.frame]
  refine .bind (onStack_achieves unwinds) (.bind (setFrame_achieves caller) ?_)
  unfold returnFlow
  by_cases outermost : returnAddress = Frame.noCaller
  · rw [if_pos outermost, if_pos outermost]
    exact .pure _
  · rw [if_neg outermost, if_neg outermost]
    exact .bind countReturn_achieves (.pure _)

end Machine

/-! ## Functions -/

/-- The frame of a function on top of what its caller has on the stack: the argument and the
header. -/
def Frame.called (below : List UInt8) (argument : UInt32) (caller : Nat) (returnAddress : UInt64) :
    List UInt8 :=
  below ++ Scalar.encode argument ++ header caller returnAddress

@[simp] theorem Frame.length_called (below : List UInt8) (argument : UInt32) (caller : Nat)
    (returnAddress : UInt64) :
    (called below argument caller returnAddress).length = below.length + 20 := by
  simp [called, headerSize]

/-- What the engine enters an image with. -/
theorem Stack.enter_achieves {size : Nat} (room : 20 ≤ size) (argument : UInt32) :
    Action.Achieves (Stack.Shows size []) (Stack.enter argument) 20
      (Stack.Shows size (Frame.called [] argument 0 Frame.noCaller)) := by
  refine .bind (Stack.push_achieves (Nat.le_trans (by decide) room)) ?_
  exact Frame.push_achieves (by simpa [Frame.headerSize] using room)

namespace Machine

variable {size count offset caller : Nat} {contents below locals : List UInt8} {argument : UInt32}
  {registers : Registers} {fused : Bool} {image : Image}

/-- A function returns to its caller, which finds the argument on the stack again. -/
theorem ret_called {address : Nat}
    (split : contents = Frame.called below argument caller address.toUInt64 ++ locals)
    (all : count = locals.length) (inside : address < image.size)
    (addressed : image.size < UInt64.size) (small : below.length + 4 < UInt64.size)
    (low : caller ≤ below.length + 4) :
    Action.Achieves (Shows size ⟨below.length + 20, contents, registers, fused⟩)
      (ret image offset count) (.toCaller address)
      (Shows size ⟨caller, below ++ Scalar.encode argument, registers, fused⟩) := by
  rw [show UInt64.size = 2 ^ 64 from rfl] at addressed
  have number : address.toUInt64.toNat = address := by
    rw [Nat.toUInt64, UInt64.toNat_ofNat']
    exact Nat.mod_eq_of_lt (by omega)
  have inner : address.toUInt64 ≠ Frame.noCaller := by
    intro outermost
    have last := congrArg UInt64.toNat outermost
    rw [number, show Frame.noCaller.toNat = 2 ^ 64 - 1 from rfl] at last
    omega
  have returns : returnFlow address.toUInt64 = .toCaller address := by
    rw [returnFlow, if_neg inner, number]
  have length : (below ++ Scalar.encode argument).length = below.length + 4 := by simp
  rw [← returns]
  refine ret_achieves ?_ split all (by rwa [length]) (by rwa [length]) (.inr (by rwa [number]))
  show below.length + 20 = _
  rw [length, Frame.headerSize]

/-- The function that the engine has entered returns to it. -/
theorem ret_entered
    (split : contents = Frame.called [] argument 0 Frame.noCaller ++ locals)
    (all : count = locals.length) :
    Action.Achieves (Shows size ⟨20, contents, registers, fused⟩) (ret image offset count) .toEngine
      (Shows size ⟨0, Scalar.encode argument, registers, fused⟩) := by
  have returns : returnFlow Frame.noCaller = .toEngine := if_pos rfl
  rw [← returns]
  exact ret_achieves rfl split all (by simp; decide) (Nat.zero_le _) (.inl rfl)

end Machine

/-! ## Stretches of runs -/

/-- The counters after an instruction that came to `flow` and left `depth` bytes on the stack. -/
def Stats.after (flow : Flow) (depth : Nat) (stats : Stats) : Stats :=
  { flow.counted { stats with instructions := stats.instructions + 1 } with
    maxDepth := max stats.maxDepth depth }

namespace Sequential

/-- What shows of a sequential run between two instructions. -/
structure Stage where
  cursor : Nat
  view : Machine.View
  stats : Stats

/-- A machine with a stack of the given size that is at this stage. -/
structure Shows (size : Nat) (stage : Stage) (machine : Machine) : Prop where
  cursor : machine.cursor = stage.cursor
  view : Machine.Shows size stage.view machine
  stats : machine.stats = stage.stats

/-- What every run of an image with this argument starts from. -/
def Stage.entry (image : Image) (argument : UInt32) : Stage :=
  ⟨image.entry, ⟨20, Frame.called [] argument 0 Frame.noCaller, {}, false⟩, { maxDepth := 20 }⟩

/-- From one stage, every run comes to another one. -/
def Reaches (image : Image) (size : Nat) (before after : Stage) : Prop :=
  ∀ machine, Shows size before machine →
    ∃ n later, iteration (step image) n machine = some later ∧ Shows size after later

/-- From a stage, every run halts with a value and with these counters. -/
def Halts (image : Image) (size : Nat) (before : Stage) (value : UInt32) (stats : Stats) : Prop :=
  ∀ machine, Shows size before machine →
    ∃ n final, iterate (step image) n machine = some ⟨.ok value, final⟩ ∧ final.stats = stats

variable {image : Image} {size : Nat} {before middle after : Stage} {value : UInt32} {stats : Stats}
  {instruction : Instruction} {flow : Flow} {view : Machine.View} {machine : Machine}

/-- A prepared machine is at the entry. -/
theorem shows_of_prepared {argument : UInt32} {prepared : Machine}
    (ready : Machine.prepare image argument machine = .ok () prepared) :
    Shows machine.stack.capacity (.entry image argument) prepared := by
  obtain ⟨room, rfl⟩ := Machine.prepare_eq_ok ready
  have empty : Stack.Shows machine.stack.capacity [] machine.stack.reset :=
    ⟨⟨rfl, Nat.zero_le _⟩, rfl⟩
  obtain ⟨stack, entered, shown⟩ := Stack.enter_achieves room argument _ empty
  rw [Stack.enter_of_room (show 20 ≤ machine.stack.reset.available from room)] at entered
  injection entered with _ same
  rw [← same] at shown
  have depth := shown.top
  rw [Frame.length_called] at depth
  exact ⟨rfl, ⟨rfl, shown, rfl, rfl⟩, congrArg (Stats.mk 0 0 0) depth⟩

theorem Reaches.counted {cursor : Nat} {other : Stats}
    (reaches : Reaches image size before ⟨cursor, view, stats⟩) (same : stats = other) :
    Reaches image size before ⟨cursor, view, other⟩ :=
  same ▸ reaches

theorem Reaches.trans (first : Reaches image size before middle)
    (second : Reaches image size middle after) : Reaches image size before after := by
  intro machine shown
  obtain ⟨n, next, reached, shown⟩ := first machine shown
  obtain ⟨m, later, further, shown⟩ := second next shown
  exact ⟨n + m, later, by rw [iteration_add reached, further], shown⟩

instance : Trans (Reaches image size) (Reaches image size) (Reaches image size) :=
  ⟨Reaches.trans⟩

theorem Halts.counted {other : Stats} (halts : Halts image size before value stats)
    (same : stats = other) : Halts image size before value other :=
  same ▸ halts

theorem Reaches.halts (reaches : Reaches image size before after)
    (halts : Halts image size after value stats) : Halts image size before value stats := by
  intro machine shown
  obtain ⟨n, next, reached, shown⟩ := reaches machine shown
  obtain ⟨m, final, ended, counted⟩ := halts next shown
  exact ⟨n + m, final, by rw [iterate_add reached, ended], counted⟩

/-- What an instruction that keeps a contract does to a machine at a stage. -/
theorem Shows.execute (shown : Shows size before machine)
    (achieves : Action.Achieves (Machine.Shows size before.view)
      (Machine.execute image before.cursor instruction) flow (Machine.Shows size view)) :
    ∃ later, Machine.execute image machine.cursor instruction machine = .ok flow later ∧
      Shows size ⟨before.cursor, view, before.stats.after flow view.contents.length⟩ later := by
  obtain ⟨later, done, shown'⟩ := achieves machine shown.view
  rw [← shown.cursor] at done
  have cursor : later.cursor = machine.cursor :=
    congrArg Machine.Surroundings.cursor (Machine.surroundings_of_done done)
  have counted := Machine.stats_execute image machine.cursor instruction machine
  rw [done] at counted
  refine ⟨later, done, cursor.trans shown.cursor, shown', ?_⟩
  rw [counted, shown'.stack.top, Machine.countInstruction, shown.stats]
  rfl

/-- An instruction that goes on takes a run from one stage to the next. -/
theorem Reaches.of_execute {cursor : Nat}
    (decoded : Instruction.decode image before.cursor = .ok instruction)
    (achieves : Action.Achieves (Machine.Shows size before.view)
      (Machine.execute image before.cursor instruction) flow (Machine.Shows size view))
    (leads : flow.destination? (before.cursor + instruction.length) = some cursor) :
    Reaches image size before ⟨cursor, view, before.stats.after flow view.contents.length⟩ := by
  intro machine shown
  obtain ⟨later, done, shown'⟩ := shown.execute achieves
  have goesOn : step image machine = .running { later with cursor } := by
    rw [step_of_done (by rw [shown.cursor]; exact decoded) done]
    have place := shown'.cursor
    cases flow <;> cases leads
    case next => rw [follow, place]
    all_goals rfl
  exact ⟨1, { later with cursor }, by rw [iteration, goesOn]; rfl, rfl,
    ⟨shown'.view.frame, shown'.view.stack, shown'.view.registers, shown'.view.fused⟩, shown'.stats⟩

/-- An instruction that leaves the image ends a run. -/
theorem Halts.of_execute (decoded : Instruction.decode image before.cursor = .ok instruction)
    (achieves : Action.Achieves (Machine.Shows size before.view)
      (Machine.execute image before.cursor instruction) flow (Machine.Shows size view))
    (leaves : ∀ next, flow.destination? next = none) (result : view.registers.accumulator = value) :
    Halts image size before value (before.stats.after flow view.contents.length) := by
  subst result
  intro machine shown
  obtain ⟨later, done, shown'⟩ := shown.execute achieves
  have stops : step image machine = .done (.ok view.registers.accumulator) later := by
    rw [step_of_done (by rw [shown.cursor]; exact decoded) done, ← shown'.view.registers]
    have none := leaves 0
    cases flow <;> first | rfl | cases none
  exact ⟨1, later, by rw [iterate, stops], shown'.stats⟩

/-! ## Compares and their branches -/

variable {reading : Signedness} {slot : Slot} {left right : UInt32} {condition : Condition}
  {width : Width} {target : Target} {next : Nat} {below behind : List UInt8}

/-- A compare arms the branch that stands behind it. -/
theorem Reaches.compare {flag : Bool}
    (compares : Instruction.decode image before.cursor = .ok (.compareWith reading slot right))
    (branches : Instruction.decode image next = .ok (.jump condition width target))
    (adjacent : before.cursor + (Instruction.compareWith reading slot right).length = next)
    (holds : before.view.HasSlot slot below left behind)
    (decided : condition.holds (reading.read left) (reading.read right) = flag) :
    Reaches image size before
      ⟨next, { before.view with registers := { before.view.registers with flag }, fused := true },
        before.stats.after .next before.view.contents.length⟩ := by
  have branch := Instruction.read_of_decode_jump branches
  rw [← adjacent] at branch
  exact .of_execute compares (Machine.compareWith_achieves holds branch decided)
    (congrArg some adjacent)

/-- A compare whose branch is taken. -/
theorem Reaches.taken {destination : Nat}
    (compares : Instruction.decode image before.cursor = .ok (.compareWith reading slot right))
    (branches : Instruction.decode image next = .ok (.jump condition width target))
    (adjacent : before.cursor + (Instruction.compareWith reading slot right).length = next)
    (conditional : condition ≠ .always) (holds : before.view.HasSlot slot below left behind)
    (decided : condition.holds (reading.read left) (reading.read right) = true)
    (leads : target.resolve (next + (Instruction.jump condition width target).length) =
      .ok destination) :
    Reaches image size before
      ⟨destination,
        { before.view with registers := { before.view.registers with flag := true }, fused := false },
        (before.stats.after .next before.view.contents.length).after (.branch destination)
          before.view.contents.length⟩ :=
  (Reaches.compare compares branches adjacent holds decided).trans
    (.of_execute branches (Machine.jump_achieves (.inr ⟨rfl, rfl, conditional⟩)
      ⟨destination, leads, rfl⟩) rfl)

/-- A compare whose branch is passed over. -/
theorem Reaches.passed {past : Nat}
    (compares : Instruction.decode image before.cursor = .ok (.compareWith reading slot right))
    (branches : Instruction.decode image next = .ok (.jump condition width target))
    (adjacent : before.cursor + (Instruction.compareWith reading slot right).length = next)
    (conditional : condition ≠ .always) (holds : before.view.HasSlot slot below left behind)
    (decided : condition.holds (reading.read left) (reading.read right) = false)
    (leads : next + (Instruction.jump condition width target).length = past) :
    Reaches image size before
      ⟨past,
        { before.view with registers := { before.view.registers with flag := false }, fused := false },
        (before.stats.after .next before.view.contents.length).after .next
          before.view.contents.length⟩ :=
  (Reaches.compare compares branches adjacent holds decided).trans
    (.of_execute branches (Machine.jump_achieves (.inr ⟨rfl, rfl, conditional⟩) rfl)
      (congrArg some leads))

end Sequential

end Tandem

import Tandem.Proofs.Capacity
import Tandem.Proofs.Engine.History

/-!
# The stack that a run needs

Engines for one image whose stacks have different sizes. Whatever a run shows on the engine with the
smaller stack, it shows on the other one, by either strategy, unless it overflows. And the depth
mark of a sequential run that halts is the size that the run needs: a stack of that size or more
makes no difference to it, and on any smaller one it overflows (`Engine.depth_is_needed`).

The directions in which the stacks grow, and what was run before on the engines, play no part.
-/

namespace Tandem

/-! ## Reports -/

/-- The dispatch loop of a strategy. -/
def Strategy.dispatch (strategy : Strategy) (image : Image) :
    Nat → Machine → Option (Outcome Machine) :=
  match strategy with
  | .sequential => Sequential.run image
  | .threaded => Threaded.run image (.ofImage image)

namespace Engine

variable {image : Image} {config config' : Config} {engine left right : Engine}
  {strategy : Strategy} {argument : Value} {fuel : Nat} {machine : Machine} {fault : Fault}

/-- What is shown of a dispatch loop that ended. -/
def reportOf (sink : Sink) (outcome : Outcome Machine) : Report :=
  let records := outcome.state.trace.getD []
  .ofMachine (outcome.result.map Value.ofUInt32) outcome.state
    (if sink = .receiver then records else [])
    (if sink = .journal then records.map Record.message else [])

/-- The run ended because a push ran out of room. -/
def Report.Overflowed (report : Report) : Prop :=
  ∃ fault, fault.IsOverflow ∧ report.result = .error fault

theorem overflowed_reportOf {sink : Sink} {outcome : Outcome Machine} :
    (reportOf sink outcome).Overflowed ↔ outcome.Overflowed := by
  obtain ⟨result, state⟩ := outcome
  cases result with
  | ok value =>
    constructor
    · rintro ⟨fault, -, same⟩
      cases same
    · rintro ⟨fault, -, same⟩
      cases same
  | error fault =>
    constructor
    · rintro ⟨other, overflow, same⟩
      cases same
      exact ⟨_, overflow, rfl⟩
    · rintro ⟨other, overflow, same⟩
      cases same
      exact ⟨_, overflow, rfl⟩

/-- What shows of a dispatch loop whose outcome was delivered. -/
theorem ofMachine_finish {before : Engine} {outcome : Outcome Machine}
    (delivered : Delivered engine (before.finish strategy outcome.result outcome.state)
      (outcome.state.trace.getD [])) :
    let after := before.finish strategy outcome.result outcome.state
    Report.ofMachine (outcome.result.map Value.ofUInt32) after.machine
        (added engine.received after.received)
        ((added engine.journal after.journal).filter (·.level = .trace)) =
      reportOf engine.sink outcome := by
  have silent : (before.finish strategy outcome.result outcome.state).machine =
      { outcome.state with trace := none } := machine_deliver _
  dsimp only
  rw [delivered.added_received, delivered.added_messages, silent]
  rfl

theorem Kept.prepare (kept : Kept image config engine) :
    Machine.prepare engine.image argument.word engine.start =
      Machine.prepare image argument.word engine.start := by
  rw [kept.sameImage]

theorem Kept.prepare_linked (kept : Kept image config engine) :
    Machine.prepare engine.linked.1.image argument.word engine.linked.1.start =
      Machine.prepare image argument.word engine.start := by
  rw [linked_image, start_linked, kept.sameImage]

/-- The report on a run of a prepared machine. -/
theorem report_of_prepared (kept : Kept image config engine)
    (ready : Machine.prepare image argument.word engine.start = .ok () machine) :
    engine.report strategy argument fuel =
      (strategy.dispatch image fuel machine).map (reportOf engine.sink) := by
  cases strategy with
  | sequential =>
    rw [report, run, launch_of_prepared (kept.prepare.trans ready), Option.map_map, kept.sameImage]
    exact congrArg (Option.map · _) (funext fun _ => ofMachine_finish (delivered_finish ..))
  | threaded =>
    rw [report, kept.run_threaded, launch_of_prepared (kept.prepare_linked.trans ready),
      Option.map_map]
    exact congrArg (Option.map · _)
      (funext fun _ => ofMachine_finish (delivered_finish ..).of_linked)

/-- The report on a run that cannot be prepared. -/
theorem report_of_refused (kept : Kept image config engine)
    (refused : Machine.prepare image argument.word engine.start = .error fault machine) :
    ∃ report, engine.report strategy argument fuel = some report ∧ report.Overflowed := by
  have overflow := Machine.overflow_of_prepare refused
  cases strategy with
  | sequential =>
    rw [report, run, launch_of_refused (kept.prepare.trans refused)]
    exact ⟨_, rfl, fault, overflow, rfl⟩
  | threaded =>
    rw [report, kept.run_threaded, launch_of_refused (kept.prepare_linked.trans refused)]
    exact ⟨_, rfl, fault, overflow, rfl⟩

/-- Machines that differ in their stacks only, and there not in the depth, show the same. -/
theorem reportOf_congr {sink : Sink} {R S : Stack → Stack → Prop} {one two : Outcome Machine}
    (result : one.result = two.result) (top : one.state.stack.top = two.state.stack.top)
    (twins : Machine.Twins R S one.state two.state) : reportOf sink one = reportOf sink two := by
  rw [reportOf, reportOf, result, show one.state.trace = two.state.trace from twins.trace]
  simp only [Report.ofMachine, twins.stats, twins.registers, twins.cursor, twins.frame, top]

/-! ## A larger stack -/

theorem Kept.stackCapacity_start (kept : Kept image config engine) :
    engine.start.stack.capacity = config.stackSize :=
  kept.machine.stackCapacity

theorem Kept.continuationsCapacity_start (kept : Kept image config engine) :
    engine.start.continuations.capacity = Machine.continuationCapacity config.stackSize :=
  kept.machine.continuationsCapacity

theorem Kept.inBounds (kept : Kept image config engine)
    (ready : Machine.prepare image argument.word engine.start = .ok () machine) :
    Machine.InBounds config.stackSize machine :=
  Machine.inBounds_of_prepared kept.stackCapacity_start kept.continuationsCapacity_start ready

/-- Where the smaller engine can be prepared, so can the larger one. -/
theorem prepared_of_larger (one : Kept image config left) (two : Kept image config' right)
    (sameSink : left.sink = right.sink) (larger : config.stackSize ≤ config'.stackSize)
    (ready : Machine.prepare image argument.word left.start = .ok () machine) :
    ∃ prepared, Machine.prepare image argument.word right.start = .ok () prepared ∧
      Sequential.Sized config.stackSize prepared machine := by
  have stack : left.start.stack.capacity ≤ right.start.stack.capacity := by
    rwa [one.stackCapacity_start, two.stackCapacity_start]
  have continuations : left.start.continuations.capacity ≤ right.start.continuations.capacity := by
    rw [one.continuationsCapacity_start, two.continuationsCapacity_start]
    exact Machine.continuationCapacity_mono larger
  have trace : left.start.trace = right.start.trace := by
    rw [start, start, sameSink]
  obtain ⟨prepared, ready', within⟩ := Machine.prepare_within stack continuations trace ready
  exact ⟨prepared, ready', within, one.inBounds ready⟩

/-- A dispatch loop that does not overflow comes to the same on a larger machine. -/
theorem dispatch_within {small large : Machine} {stackSize : Nat} {outcome : Outcome Machine}
    (sized : Sequential.Sized stackSize large small)
    (ended : strategy.dispatch image fuel small = some outcome) (room : ¬ outcome.Overflowed) :
    ∃ other, strategy.dispatch image fuel large = some other ∧
      outcome.result = other.result ∧ Machine.Within outcome.state other.state := by
  cases strategy with
  | sequential =>
    rw [Strategy.dispatch] at ended ⊢
    rcases Sequential.run_within sized fuel with same | ⟨outcome', ended', overflowed, -⟩
    · rw [ended] at same
      generalize Sequential.run image fuel large = largeEnd at same
      cases same with
      | some related => exact ⟨_, rfl, related.result.symm, related.state.within⟩
    · cases ended.symm.trans ended'
      exact absurd overflowed room
  | threaded =>
    rw [Strategy.dispatch] at ended ⊢
    rcases Threaded.run_within sized.within fuel with same | ⟨outcome', ended', overflowed⟩
    · rw [ended] at same
      generalize Threaded.run image (.ofImage image) fuel large = largeEnd at same
      cases same with
      | some related => exact ⟨_, rfl, related.result.symm, related.state⟩
    · cases ended.symm.trans ended'
      exact absurd overflowed room

/-- What a run shows that does not overflow, it shows on a larger stack. -/
theorem report_of_larger (one : Kept image config left) (two : Kept image config' right)
    (sameSink : left.sink = right.sink) (larger : config.stackSize ≤ config'.stackSize)
    {report : Report} (ended : left.report strategy argument fuel = some report)
    (room : ¬ report.Overflowed) : right.report strategy argument fuel = some report := by
  cases ready : Machine.prepare image argument.word left.start with
  | error fault refused =>
    obtain ⟨other, ended', overflowed⟩ := report_of_refused one ready
    cases ended.symm.trans ended'
    exact absurd overflowed room
  | ok _ small =>
    obtain ⟨large, ready', sized⟩ := prepared_of_larger one two sameSink larger ready
    rw [report_of_prepared one ready] at ended
    obtain ⟨outcome, ran, rfl⟩ := Option.map_eq_some_iff.mp ended
    obtain ⟨other, ran', result, within⟩ :=
      dispatch_within sized ran fun overflowed => room (overflowed_reportOf.mpr overflowed)
    rw [report_of_prepared two ready', ran', Option.map_some, ← sameSink,
      reportOf_congr result within.stack.top within]

/-- A run that halts does not overflow. -/
theorem Report.not_overflowed {report : Report} {value : Value} (halted : report.result = .ok value) :
    ¬ report.Overflowed := by
  rintro ⟨fault, -, failed⟩
  cases halted.symm.trans failed

/-- A run that halts has a prepared machine, and what it shows is shown by the machine that it
leaves. -/
theorem halted_of_report (kept : Kept image config engine) {report : Report} {value : Value}
    (ended : engine.report strategy argument fuel = some report)
    (halted : report.result = .ok value) :
    ∃ prepared outcome word, Machine.prepare image argument.word engine.start = .ok () prepared ∧
      strategy.dispatch image fuel prepared = some outcome ∧ outcome.result = .ok word ∧
      report = reportOf engine.sink outcome := by
  cases ready : Machine.prepare image argument.word engine.start with
  | error fault refused =>
    obtain ⟨other, ended', fault', -, failed⟩ := report_of_refused kept ready
    cases ended.symm.trans ended'
    cases halted.symm.trans failed
  | ok _ prepared =>
    rw [report_of_prepared kept ready] at ended
    obtain ⟨⟨result, state⟩, ran, rfl⟩ := Option.map_eq_some_iff.mp ended
    cases result with
    | ok word => exact ⟨prepared, _, word, rfl, ran, rfl, rfl⟩
    | error fault => cases halted

/-! ## The depth of a sequential run -/

/-- The depth mark of a run that halts counts the bytes that it starts with, and no stack holds more
than its size. -/
theorem depth_of_report (kept : Kept image config engine) {report : Report} {value : Value}
    (ended : engine.report .sequential argument fuel = some report)
    (halted : report.result = .ok value) :
    20 ≤ report.stats.maxDepth ∧ report.stats.maxDepth ≤ config.stackSize := by
  obtain ⟨prepared, outcome, word, ready, ran, -, rfl⟩ := halted_of_report kept ended halted
  constructor
  · exact iterate_invariant (P := fun machine => 20 ≤ machine.stats.maxDepth)
      (fun machine before => Nat.le_trans before (Sequential.depth_step image machine))
      (Nat.le_of_eq (Machine.depth_of_prepared ready).symm) ran
  · have bounds := iterate_invariant (fun machine bounds => bounds.step image) (kept.inBounds ready)
      ran
    exact bounds.depth

/-- On a smaller stack, a sequential run that halts on a larger one shows the same, or it overflows
because it would have to go deeper. -/
theorem report_of_smaller (one : Kept image config left) (two : Kept image config' right)
    (sameSink : left.sink = right.sink) (larger : config.stackSize ≤ config'.stackSize)
    {report : Report} {value : Value}
    (ended : right.report .sequential argument fuel = some report)
    (halted : report.result = .ok value) :
    left.report .sequential argument fuel = some report ∨
      config.stackSize < report.stats.maxDepth ∧
        ∃ other, left.report .sequential argument fuel = some other ∧ other.Overflowed := by
  cases ready : Machine.prepare image argument.word left.start with
  | error fault refused =>
    have small : left.start.stack.capacity < 20 := (Machine.prepare_eq_error ready).1
    rw [one.stackCapacity_start] at small
    have deep := (depth_of_report two ended halted).1
    exact .inr ⟨Nat.lt_of_lt_of_le small deep, report_of_refused one ready⟩
  | ok _ small =>
    obtain ⟨large, ready', sized⟩ := prepared_of_larger one two sameSink larger ready
    obtain ⟨_, outcome, word, prepared, ran, halts, rfl⟩ := halted_of_report two ended halted
    rw [ready'] at prepared
    cases prepared
    rw [Strategy.dispatch] at ran
    rw [report_of_prepared one ready, Strategy.dispatch]
    rcases Sequential.run_within sized fuel with same | ⟨other, ran', overflowed, deeper⟩
    · rw [ran] at same
      generalize Sequential.run image fuel small = smallEnd at same
      cases same with
      | some related =>
        have within := related.state.within
        rw [Option.map_some, sameSink,
          reportOf_congr related.result.symm within.stack.top within]
        exact .inl rfl
    · rw [ran']
      exact .inr ⟨deeper outcome word ran halts, _, rfl, overflowed_reportOf.mpr overflowed⟩

/-- A larger stack changes nothing about a run that does not overflow. The depth mark of a
sequential run that halts is the stack that the run needs: on any other stack it shows the same if
that has as many bytes, and overflows if it has less. -/
theorem depth_is_needed (one : History image config left) (two : History image config' right)
    (sameSink : left.sink = right.sink) (argument : Value) (fuel : Nat) :
    (config.stackSize ≤ config'.stackSize → ∀ strategy report,
      left.report strategy argument fuel = some report → ¬ report.Overflowed →
        right.report strategy argument fuel = some report) ∧
    ∀ report value, right.report .sequential argument fuel = some report →
      report.result = .ok value →
        (report.stats.maxDepth ≤ config.stackSize →
          left.report .sequential argument fuel = some report) ∧
        (config.stackSize < report.stats.maxDepth →
          ∃ other, left.report .sequential argument fuel = some other ∧ other.Overflowed) := by
  refine ⟨fun larger strategy report ended room =>
    report_of_larger one.kept two.kept sameSink larger ended room, ?_⟩
  intro report value ended halted
  rcases Nat.le_total config.stackSize config'.stackSize with larger | smaller
  · rcases report_of_smaller one.kept two.kept sameSink larger ended halted with
      same | ⟨deep, overflows⟩
    · have fits := (depth_of_report one.kept same halted).2
      exact ⟨fun _ => same, fun deep => absurd deep (Nat.not_lt.mpr fits)⟩
    · exact ⟨fun fits => absurd deep (Nat.not_lt.mpr fits), fun _ => overflows⟩
  · have fits := (depth_of_report two.kept ended halted).2
    have room : ¬ report.Overflowed := by
      rintro ⟨fault, -, failed⟩
      cases halted.symm.trans failed
    exact ⟨fun _ => report_of_larger two.kept one.kept sameSink.symm smaller ended room,
      fun deep => absurd deep (by omega)⟩

/-- An image that calls itself. -/
def recursing : Image where
  bytes := Sample.fibonacci.bytes
  entry := 0
  entry_lt := by decide

/-- Sixty-four bytes are enough for the third Fibonacci number, and one byte less is not. -/
theorem depth_is_needed_recursing :
    ∃ report, (ofImage recursing { stackSize := 128 }).report .sequential { word := 3 } 21 =
        some report ∧ report.stats.maxDepth = 64 ∧
      (ofImage recursing { stackSize := 64, growth := .downward }).report .sequential
        { word := 3 } 21 = some report ∧
      ∃ other, (ofImage recursing { stackSize := 63 }).report .sequential { word := 3 } 21 =
        some other ∧ other.Overflowed := by
  have halts : ((ofImage recursing { stackSize := 128 }).report .sequential { word := 3 } 21).map
      (fun report => (report.result, report.stats.maxDepth)) = some (.ok { word := 2 }, 64) := by
    decide +kernel
  obtain ⟨report, ended, shown⟩ := Option.map_eq_some_iff.mp halts
  obtain ⟨halted, depth⟩ := Prod.mk.inj shown
  have large : History recursing { stackSize := 128 } (ofImage recursing { stackSize := 128 }) :=
    .fresh
  have enough : History recursing { stackSize := 64, growth := .downward }
      (ofImage recursing { stackSize := 64, growth := .downward }) := .fresh
  have small : History recursing { stackSize := 63 } (ofImage recursing { stackSize := 63 }) :=
    .fresh
  refine ⟨report, ended, depth, ?_, ?_⟩
  · exact ((depth_is_needed enough large rfl _ _).2 report _ ended halted).1 (Nat.le_of_eq depth)
  · exact ((depth_is_needed small large rfl _ _).2 report _ ended halted).2
      (Nat.lt_of_lt_of_eq (Nat.lt_succ_self 63) depth.symm)

end Engine

end Tandem

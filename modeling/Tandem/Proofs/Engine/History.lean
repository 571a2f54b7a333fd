import Tandem.Crosscheck
import Tandem.Proofs.Engine.Report
import Tandem.Proofs.Threaded.Twins
import Tandem.Sample

/-!
# Engines do not remember

A run on an engine that was used before goes as on a fresh engine (`Engine.report_of_history`).
What an earlier run can leave behind is an armed latch, counters, half-pushed frames, leftover
continuation ids and old bytes above the tops of the stacks; preparing a machine sets all of it
except for the old bytes, and no run reads a byte that it did not write (`Machine.Twins` with
`Stack.Alike`, which asks for the same bytes below the top only). A stack that is too small for the
preparation never lets a run start, so its frame and cursor are those of a fresh machine.
-/

namespace Tandem

namespace Machine

/-- A machine as runs with a configuration leave it. -/
structure Sized (config : Config) (machine : Machine) : Prop where
  stackCapacity : machine.stack.capacity = config.stackSize
  stackGrowth : machine.stack.growth = config.growth
  continuationsCapacity : machine.continuations.capacity = continuationCapacity config.stackSize
  continuationsGrowth : machine.continuations.growth = config.growth
  idle : config.stackSize < 20 → machine.frame = 0 ∧ machine.cursor = 0

/-- Machines of one configuration that no run can tell apart. -/
abbrev Interchangeable (config : Config) : Machine → Machine → Prop :=
  Alike False config.stackSize config.growth config.growth

/-- Interchangeable machines, idle if no run can be prepared on them. -/
structure Matched (config : Config) (left right : Machine) : Prop where
  alike : Interchangeable config left right
  idle : config.stackSize < 20 → left.frame = 0 ∧ left.cursor = 0

variable {config : Config} {left right machine : Machine}

theorem sized_ofStackSize (config : Config) :
    Sized config (ofStackSize config.stackSize config.growth) where
  stackCapacity := Stack.capacity_ofCapacity _ _
  stackGrowth := rfl
  continuationsCapacity := Stack.capacity_ofCapacity _ _
  continuationsGrowth := rfl
  idle _ := ⟨rfl, rfl⟩

/-- Stacks of one size hold the same once they are reset: nothing. -/
theorem alike_reset {capacity : Nat} {growth growth' : Growth} {left right : Stack}
    (leftCapacity : left.capacity = capacity) (leftGrowth : left.growth = growth)
    (rightCapacity : right.capacity = capacity) (rightGrowth : right.growth = growth') :
    Stack.Alike False capacity growth growth' left.reset right.reset where
  leftCapacity := leftCapacity
  rightCapacity := rightCapacity
  leftGrowth := leftGrowth
  rightGrowth := rightGrowth
  top := rfl
  fits := Nat.zero_le _
  byte _ _ known := known.elim (fun below => absurd below (Nat.not_lt_zero _)) False.elim

/-- Whatever ran on two machines of one configuration, preparing them makes them
interchangeable. -/
theorem Sized.prepare (one : Sized config left) (two : Sized config right)
    (trace : left.trace = right.trace) (image : Image) (argument : UInt32) :
    Action.Related Fault.NoneWaived (Matched config) (Machine.prepare image argument left)
      (Machine.prepare image argument right) := by
  have alike : Action.Related Fault.NoneWaived (Interchangeable config)
      (Machine.prepare image argument left) (Machine.prepare image argument right) := by
    refine prepare_related (Stack.Alike.simulation _ _ _ _) ?_ ?_ trace (fun small => ?_) image
      argument
    · exact alike_reset one.stackCapacity one.stackGrowth two.stackCapacity two.stackGrowth
    · exact alike_reset one.continuationsCapacity one.continuationsGrowth
        two.continuationsCapacity two.continuationsGrowth
    · rw [one.stackCapacity] at small
      obtain ⟨frame, cursor⟩ := one.idle small
      obtain ⟨frame', cursor'⟩ := two.idle small
      exact ⟨frame.trans frame'.symm, cursor.trans cursor'.symm⟩
  cases ran : Machine.prepare image argument left with
  | ok _ leftAfter =>
    rw [ran] at alike
    obtain ⟨rightAfter, ran', after⟩ := alike.of_ok
    obtain ⟨room, -⟩ := prepare_eq_ok ran
    have capacity := one.stackCapacity
    rw [ran']
    exact .ok ⟨after, fun small => by omega⟩
  | error fault leftAfter =>
    rw [ran] at alike
    obtain ⟨rightAfter, ran', after⟩ := alike.of_error
    obtain ⟨-, stack, rfl⟩ := prepare_eq_error ran
    rw [ran']
    exact .error ⟨after, one.idle⟩

/-- A machine that can be told from no other one of its configuration has that configuration. -/
theorem Matched.sized (matched : Matched config left right) : Sized config left where
  stackCapacity := matched.alike.stack.leftCapacity
  stackGrowth := matched.alike.stack.leftGrowth
  continuationsCapacity := matched.alike.surroundings.continuations.leftCapacity
  continuationsGrowth := matched.alike.surroundings.continuations.leftGrowth
  idle := matched.idle

theorem Sized.withTrace (sized : Sized config machine) (trace : Option (List Record)) :
    Sized config { machine with trace } :=
  { sized with }

end Machine

namespace Engine

variable {image : Image} {config : Config} {engine left right : Engine}

/-! ## Histories -/

/-- The engines that come from a fresh one by runs of either strategy, whatever they came to, and
by anything that can be done to the sinks. -/
inductive History (image : Image) (config : Config) : Engine → Prop
  | fresh : History image config (ofImage image config)
  | run {engine after : Engine} {strategy : Strategy} {argument : Value} {fuel : Nat}
    {result : Except Fault Value} (before : History image config engine)
    (ran : engine.run strategy argument fuel = some (result, after)) : History image config after
  | attachReceiver {engine : Engine} (before : History image config engine) :
    History image config engine.attachReceiver
  | dropReceiver {engine : Engine} (before : History image config engine) :
    History image config engine.dropReceiver
  | clearSink {engine : Engine} (before : History image config engine) :
    History image config engine.clearSink
  | traceToJournal {engine : Engine} (before : History image config engine) :
    History image config engine.traceToJournal
  | takeRecords {engine : Engine} (before : History image config engine) :
    History image config engine.takeRecords.2
  | takeMessages {engine : Engine} (before : History image config engine) :
    History image config engine.takeMessages.2

/-- What all of this keeps. -/
structure Kept (image : Image) (config : Config) (engine : Engine) : Prop where
  sameImage : engine.image = image
  machine : Machine.Sized config engine.machine
  code : ∀ code, engine.code? = some code → code = Threaded.Code.ofImage image

theorem kept_ofImage (image : Image) (config : Config) : Kept image config (ofImage image config) where
  sameImage := rfl
  machine := Machine.sized_ofStackSize config
  code _ none := nomatch none

/-! ## The same run on two engines -/

/-- A threaded run is one of the threaded form of the image, whenever that was made. -/
theorem Kept.run_threaded (kept : Kept image config engine) (argument : Value) (fuel : Nat) :
    engine.run .threaded argument fuel = engine.linked.1.launch .threaded argument fuel
      (Threaded.run image (Threaded.Code.ofImage image)) := by
  have code : engine.linked.2 = Threaded.Code.ofImage image := by
    rcases linked_code engine with ⟨known, -⟩ | ⟨made, -⟩
    · exact kept.code _ known
    · rw [made, kept.sameImage]
  show engine.linked.1.launch _ _ _ (Threaded.run engine.linked.1.image engine.linked.2) = _
  rw [code, linked_image, kept.sameImage]

theorem matched_traced (config : Config) : Traced (Machine.Matched config) where
  trace matched := matched.alike.trace
  silent matched := {
    alike := { matched.alike with
      surroundings := ⟨matched.alike.cursor, matched.alike.surroundings.continuations, rfl⟩ }
    idle := matched.idle }

/-- A dispatch loop that comes to the same on interchangeable machines does so on engines of one
image and one sink. -/
theorem launch_matched {dispatch : Nat → Machine → Option (Outcome Machine)}
    (one : Machine.Sized config left.machine) (two : Machine.Sized config right.machine)
    (sameImage : left.image = right.image) (sameSink : left.sink = right.sink) (strategy : Strategy)
    (argument : Value) (fuel : Nat)
    (alike : ∀ leftMachine rightMachine, Machine.Interchangeable config leftMachine rightMachine →
      Option.Rel (Outcome.Related (Machine.Interchangeable config)) (dispatch fuel leftMachine)
        (dispatch fuel rightMachine)) :
    Option.Rel (SameRun (Machine.Matched config) left right)
      (left.launch strategy argument fuel dispatch)
      (right.launch strategy argument fuel dispatch) := by
  refine launch_sameRun (matched_traced config) ?_ ?_
  · rw [← sameImage]
    exact (one.withTrace _).prepare (two.withTrace _) (by rw [sameSink]) left.image argument.word
  · intro leftMachine rightMachine ready _ matched
    obtain ⟨room, -⟩ := Machine.prepare_eq_ok ready
    have capacity : left.start.stack.capacity = config.stackSize := one.stackCapacity
    exact (alike leftMachine rightMachine matched.alike).mono fun _ _ outcomes =>
      ⟨outcomes.result, outcomes.state, fun small => by omega⟩

theorem run_sameRun (one : Kept image config left) (two : Kept image config right)
    (sameSink : left.sink = right.sink) (strategy : Strategy) (argument : Value) (fuel : Nat) :
    Option.Rel (SameRun (Machine.Matched config) left right) (left.run strategy argument fuel)
      (right.run strategy argument fuel) := by
  have sameImage : left.image = right.image := one.sameImage.trans two.sameImage.symm
  cases strategy with
  | sequential =>
    rw [run, run, ← sameImage]
    refine launch_matched one.machine two.machine sameImage sameSink _ _ _ ?_
    intro leftMachine rightMachine alike
    exact (Sequential.lockstep_alike left.image).iterate alike fuel
  | threaded =>
    have one' : Machine.Sized config left.linked.1.machine := by
      rw [linked_machine]
      exact one.machine
    have two' : Machine.Sized config right.linked.1.machine := by
      rw [linked_machine]
      exact two.machine
    have same := launch_matched one' two' (by rw [linked_image, linked_image]; exact sameImage)
      (by rw [linked_sink, linked_sink]; exact sameSink) .threaded argument fuel
      (fun leftMachine rightMachine alike =>
        Threaded.run_alike image (Threaded.Code.ofImage image) alike fuel)
    rw [one.run_threaded, two.run_threaded]
    refine same.mono fun leftEnd rightEnd same => { same with delivered := ?_ }
    obtain ⟨records, leftGot, rightGot⟩ := same.delivered
    exact ⟨records, leftGot.of_linked, rightGot.of_linked⟩

/-- Everything that can be done to an engine keeps what runs depend on. -/
theorem History.kept (history : History image config engine) : Kept image config engine := by
  induction history with
  | fresh => exact kept_ofImage image config
  | @run engine after strategy argument fuel result before ran ih =>
    have same := run_sameRun ih ih rfl strategy argument fuel
    rw [ran] at same
    cases same with
    | some same =>
      obtain ⟨records, delivered, -⟩ := same.delivered
      refine ⟨delivered.sameImage.trans ih.sameImage, same.machine.sized, ?_⟩
      intro code known
      rcases delivered.code with kept | made
      · exact ih.code code (kept ▸ known)
      · rw [made, ih.sameImage] at known
        exact (Option.some.inj known).symm
  | attachReceiver _ ih => exact ⟨ih.sameImage, ih.machine, ih.code⟩
  | dropReceiver _ ih => exact ⟨ih.sameImage, ih.machine, ih.code⟩
  | clearSink _ ih => exact ⟨ih.sameImage, ih.machine, ih.code⟩
  | traceToJournal _ ih => exact ⟨ih.sameImage, ih.machine, ih.code⟩
  | takeRecords _ ih => exact ⟨ih.sameImage, ih.machine, ih.code⟩
  | takeMessages _ ih => exact ⟨ih.sameImage, ih.machine, ih.code⟩

/-- A run on an engine with a history shows what it shows on a fresh engine with the same kind of
sink. -/
theorem report_of_history (history : History image config engine) (strategy : Strategy)
    (argument : Value) (fuel : Nat) :
    engine.report strategy argument fuel =
      { ofImage image config with sink := engine.sink }.report strategy argument fuel := by
  have fresh : Kept image config { ofImage image config with sink := engine.sink } :=
    ⟨rfl, Machine.sized_ofStackSize config, fun _ none => nomatch none⟩
  have same := run_sameRun history.kept fresh rfl strategy argument fuel
  have reports := report_rel (Q := Eq) same rfl fun matched result records messages => by
    have alike := matched.alike
    simp only [Report.ofMachine, alike.stats, alike.registers, alike.cursor, alike.frame,
      alike.stack.top]
  revert reports
  generalize engine.report strategy argument fuel = left
  generalize Engine.report { ofImage image config with sink := engine.sink } strategy argument fuel =
    right
  intro reports
  cases reports with
  | none => rfl
  | some equal => rw [equal]

/-- An image that pushes until its stack is full. -/
def pushing : Image where
  bytes := Sample.pushForever.bytes
  entry := 0
  entry_lt := by decide

/-- A run after one that was stopped by a full stack. -/
theorem report_of_history_overflowed :
    ∃ engine, (ofImage pushing { stackSize := 24 }).run .sequential {} 3 =
        some (.error (.stackOverflow 4 0), engine) ∧
      engine.report .threaded {} 3 =
        { ofImage pushing { stackSize := 24 } with sink := engine.sink }.report .threaded {} 3 := by
  have overflows : ((ofImage pushing { stackSize := 24 }).run .sequential {} 3).map Prod.fst =
      some (.error (.stackOverflow 4 0)) := by decide +kernel
  obtain ⟨⟨_, engine⟩, ran, rfl⟩ := Option.map_eq_some_iff.mp overflows
  exact ⟨engine, ran, report_of_history (.run .fresh ran) .threaded {} 3⟩

end Engine

end Tandem

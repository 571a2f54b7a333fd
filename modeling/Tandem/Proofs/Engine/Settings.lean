import Tandem.Proofs.Engine.Capacity
import Tandem.Proofs.Machine.Calls
import Tandem.Proofs.Threaded.Headers

/-!
# What settings change

Engines for one image whose stacks have one size. The direction in which the stacks grow, the sink
and everything that was run before make no difference to the result and the counters of a run, and
neither does the strategy if the image spares its frame headers (`Engine.tally_report`). All of
these runs end after the same number of steps, or none of them does.

Sequential runs are compared with each other (`Machine.Resembles`), and a threaded run with the
sequential one on its own machine (`Engine.dispatch_agrees`).
-/

namespace Tandem

namespace Machine

/-- Machines that a sequential run cannot tell apart, whatever their continuation stacks and their
traces are. -/
abbrev Resembles (stackSize : Nat) (leftGrowth rightGrowth : Growth) : Machine → Machine → Prop :=
  Similar (Stack.Alike False stackSize leftGrowth rightGrowth)
    fun left right => left.cursor = right.cursor

theorem lockstep_resembles (image : Image) (stackSize : Nat) (leftGrowth rightGrowth : Growth) :
    Lockstep (Sequential.step image) (Sequential.step image)
      (Resembles stackSize leftGrowth rightGrowth) (Resembles stackSize leftGrowth rightGrowth) :=
  Sequential.lockstep_similar (Stack.Alike.simulation _ _ _ _)
    ⟨id, fun _ _ => rfl, fun same _ => same⟩ image

/-- Machines of one size are prepared or refused alike. -/
theorem prepare_resembles {config config' : Config} {left right : Machine} (one : Sized config left)
    (two : Sized config' right) (sameSize : config.stackSize = config'.stackSize) (image : Image)
    (argument : UInt32) :
    (∃ leftReady rightReady, prepare image argument left = .ok () leftReady ∧
      prepare image argument right = .ok () rightReady ∧
      Resembles config.stackSize config.growth config'.growth leftReady rightReady) ∨
    ∃ fault leftAfter rightAfter, prepare image argument left = .error fault leftAfter ∧
      prepare image argument right = .error fault rightAfter := by
  have respects : Action.Respects Fault.NoneWaived
      (Stack.Alike False config.stackSize config.growth config'.growth) (Stack.enter argument)
      (Stack.enter argument) := (Stack.Alike.simulation _ _ _ _).enter argument
  have empty := alike_reset one.stackCapacity one.stackGrowth
    (two.stackCapacity.trans sameSize.symm) two.stackGrowth
  rw [prepare_eq, prepare_eq]
  cases entered : Stack.enter argument left.stack.reset with
  | ok frame leftStack =>
    obtain ⟨rightStack, entered', alike⟩ := respects.of_ok empty entered
    rw [entered']
    exact .inl ⟨_, _, rfl, rfl, alike, rfl, rfl, rfl, congrArg (Stats.mk 0 0 0) alike.top, rfl⟩
  | error fault leftStack =>
    obtain ⟨rightStack, entered', -⟩ := respects.of_error empty entered
    rw [entered']
    exact .inr ⟨fault, _, _, rfl, rfl⟩

end Machine

namespace Engine

variable {image : Image} {config config' : Config} {engine left right : Engine} {argument : Value}
  {prepared : Machine}

/-- The result of a run and its counters. -/
def Report.tally (report : Report) : Except Fault Value × Stats := (report.result, report.stats)

/-- What a dispatch loop comes to, without the machine that it leaves. -/
def tallyOf (outcome : Outcome Machine) : Except Fault Value × Stats :=
  (outcome.result.map Value.ofUInt32, outcome.state.stats)

/-- On a prepared machine, the strategies come to the same. -/
theorem dispatch_agrees (kept : Kept image config engine) (fits : Threaded.Fits image config.stackSize)
    (spares : image.SparesHeaders)
    (ready : Machine.prepare image argument.word engine.start = .ok () prepared) (strategy : Strategy)
    (fuel : Nat) :
    Option.Rel (Outcome.Related (Machine.Similar Eq Machine.SameTrace))
      (Sequential.run image fuel prepared) (strategy.dispatch image fuel prepared) := by
  cases strategy with
  | sequential =>
    rw [Strategy.dispatch]
    cases Sequential.run image fuel prepared with
    | none => exact .none
    | some outcome => exact .some ⟨rfl, Threaded.similar_refl _⟩
  | threaded =>
    obtain ⟨entered, rooted, paired⟩ := Threaded.paired_of_prepared kept.stackCapacity_start
      kept.continuationsCapacity_start ready
    rw [← kept.stackCapacity_start] at fits paired
    exact (Threaded.run_headers fits (spares _ _ _ fits.toFits ready) rooted paired).1 fuel

/-- Related outcomes tell the same if their machines have the same counters. -/
theorem map_tallyOf {R : Machine → Machine → Prop} {one two : Option (Outcome Machine)}
    (counted : ∀ left right, R left right → left.stats = right.stats)
    (related : Option.Rel (Outcome.Related R) one two) : one.map tallyOf = two.map tallyOf := by
  cases related with
  | none => rfl
  | some outcomes =>
    rw [Option.map_some, Option.map_some, tallyOf, tallyOf, outcomes.result,
      counted _ _ outcomes.state]

theorem tally_of_prepared (kept : Kept image config engine)
    (fits : Threaded.Fits image config.stackSize) (spares : image.SparesHeaders)
    (ready : Machine.prepare image argument.word engine.start = .ok () prepared) (strategy : Strategy)
    (fuel : Nat) :
    (engine.report strategy argument fuel).map Report.tally =
      (Sequential.run image fuel prepared).map tallyOf := by
  rw [report_of_prepared kept ready, Option.map_map]
  exact (map_tallyOf (fun _ _ similar => similar.stats)
    (dispatch_agrees kept fits spares ready strategy fuel)).symm

theorem tally_of_refused {fault : Fault} {machine : Machine} (kept : Kept image config engine)
    (refused : Machine.prepare image argument.word engine.start = .error fault machine)
    (strategy : Strategy) (fuel : Nat) :
    (engine.report strategy argument fuel).map Report.tally = some (.error fault, {}) := by
  obtain ⟨-, stack, rfl⟩ := Machine.prepare_eq_error refused
  cases strategy with
  | sequential =>
    rw [report, run, launch_of_refused (kept.prepare.trans refused)]
    rfl
  | threaded =>
    rw [report, kept.run_threaded, launch_of_refused (kept.prepare_linked.trans refused)]
    rfl

/-- On stacks of one size, runs with one argument come to the same. -/
theorem tally_report (one : Kept image config left) (two : Kept image config' right)
    (sameSize : config.stackSize = config'.stackSize) (fits : Threaded.Fits image config.stackSize)
    (spares : image.SparesHeaders) (strategy strategy' : Strategy) (argument : Value) (fuel : Nat) :
    (left.report strategy argument fuel).map Report.tally =
      (right.report strategy' argument fuel).map Report.tally := by
  have prepared := Machine.prepare_resembles (one.machine.withTrace left.start.trace)
    (two.machine.withTrace right.start.trace) sameSize image argument.word
  rcases prepared with ⟨leftReady, rightReady, ready, ready', resembles⟩ |
    ⟨fault, leftAfter, rightAfter, refused, refused'⟩
  · rw [tally_of_prepared one fits spares ready, tally_of_prepared two (sameSize ▸ fits) spares ready']
    exact map_tallyOf (fun _ _ similar => similar.stats)
      ((Machine.lockstep_resembles image _ _ _).iterate resembles fuel)
  · rw [tally_of_refused one refused, tally_of_refused two refused']

/-- However many steps it may take, a run that ends comes to one result. -/
theorem tally_unique {strategy : Strategy} {fuel fuel' : Nat} {report report' : Report}
    (kept : Kept image config engine) (fits : Threaded.Fits image config.stackSize)
    (spares : image.SparesHeaders) (ended : engine.report strategy argument fuel = some report)
    (ended' : engine.report strategy argument fuel' = some report') : report.tally = report'.tally := by
  have tally : some report.tally = _ := (congrArg (Option.map Report.tally) ended).symm
  have tally' : some report'.tally = _ := (congrArg (Option.map Report.tally) ended').symm
  cases ready : Machine.prepare image argument.word engine.start with
  | error fault machine =>
    rw [tally_of_refused kept ready] at tally tally'
    exact Option.some.inj (tally.trans tally'.symm)
  | ok _ prepared =>
    rw [tally_of_prepared kept fits spares ready] at tally tally'
    obtain ⟨outcome, ran, same⟩ := Option.map_eq_some_iff.mp tally.symm
    obtain ⟨outcome', ran', same'⟩ := Option.map_eq_some_iff.mp tally'.symm
    rw [← same, ← same', iterate_unique ran ran']

end Engine

end Tandem

import Tandem.Proofs.Engine.Settings
import Tandem.Proofs.Machine.Contracts

/-!
# Runs that halt, on engines

Where contracts show that the sequential run of an image halts on a stack of one size
(`Sequential.Halts`), engines halt with the same value and the same counters on every larger stack,
by either strategy (`Engine.report_of_halts`). On smaller stacks their runs end as well, possibly
with a fault (`Engine.report_ends`).
-/

namespace Tandem.Engine

variable {image : Image} {config : Config} {engine : Engine} {argument : Value} {size : Nat}
  {value : UInt32} {stats : Stats}

/-- A fresh engine with this sink. -/
def withSink (image : Image) (config : Config) (sink : Sink) : Engine :=
  { ofImage image config with sink }

theorem kept_withSink (image : Image) (config : Config) (sink : Sink) :
    Kept image config (withSink image config sink) :=
  ⟨rfl, Machine.sized_ofStackSize config, fun _ none => nomatch none⟩

/-- On a stack of the size that the contracts are about. -/
theorem report_of_halts_fresh (fits : Threaded.Fits image size) (spares : image.SparesHeaders)
    (enough : 20 ≤ size)
    (halts : Sequential.Halts image size (.entry image argument.word) value stats)
    (sink : Sink) (strategy : Strategy) :
    ∃ fuel report,
      (withSink image { stackSize := size } sink).report strategy argument fuel = some report ∧
        report.tally = (.ok (.ofUInt32 value), stats) := by
  have kept := kept_withSink image { stackSize := size } sink
  have capacity := kept.stackCapacity_start
  have ready : Machine.prepare image argument.word
      (withSink image { stackSize := size } sink).start = .ok () _ :=
    Machine.prepare_of_room (Nat.le_trans enough (Nat.le_of_eq capacity.symm))
  have shown := Sequential.shows_of_prepared ready
  rw [capacity] at shown
  obtain ⟨fuel, final, ended, counted⟩ := halts _ shown
  have tally := tally_of_prepared kept fits spares ready strategy fuel
  rw [Sequential.run, ended, Option.map_some, tallyOf, counted] at tally
  obtain ⟨report, shows, told⟩ := Option.map_eq_some_iff.mp tally
  exact ⟨fuel, report, shows, told⟩

/-- On any stack that is not smaller, an engine with any history halts in the same way. -/
theorem report_of_halts (argument : Value) (fits : Threaded.Fits image size)
    (spares : image.SparesHeaders) (enough : 20 ≤ size)
    (halts : Sequential.Halts image size (.entry image argument.word) value stats)
    (kept : Kept image config engine) (room : size ≤ config.stackSize) (strategy : Strategy) :
    ∃ fuel report, engine.report strategy argument fuel = some report ∧
      report.result = .ok (.ofUInt32 value) ∧ report.stats = stats := by
  obtain ⟨fuel, report, ended, tally⟩ :=
    report_of_halts_fresh fits spares enough halts engine.sink strategy
  have halted : report.result = .ok (.ofUInt32 value) := congrArg Prod.fst tally
  have larger := report_of_larger (kept_withSink image { stackSize := size } engine.sink) kept rfl
    room ended (Report.not_overflowed halted)
  exact ⟨fuel, report, larger, halted, congrArg Prod.snd tally⟩

/-- On any stack, the runs of an engine with any history end. -/
theorem report_ends (fits : Threaded.Fits image size)
    (fits' : Threaded.Fits image config.stackSize) (spares : image.SparesHeaders)
    (enough : 20 ≤ size)
    (halts : Sequential.Halts image size (.entry image argument.word) value stats)
    (kept : Kept image config engine) (strategy : Strategy) :
    ∃ fuel report, engine.report strategy argument fuel = some report := by
  rcases Nat.le_total size config.stackSize with room | small
  · obtain ⟨fuel, report, ended, -⟩ :=
      report_of_halts argument fits spares enough halts kept room strategy
    exact ⟨fuel, report, ended⟩
  · obtain ⟨fuel, report, ended, tally⟩ :=
      report_of_halts_fresh fits spares enough halts engine.sink .sequential
    obtain ⟨other, ended'⟩ : ∃ other, engine.report .sequential argument fuel = some other := by
      rcases report_of_smaller kept (kept_withSink image { stackSize := size } engine.sink) rfl small
          ended (congrArg Prod.fst tally) with same | ⟨-, other, ended', -⟩
      · exact ⟨report, same⟩
      · exact ⟨other, ended'⟩
    have told := tally_report kept kept rfl fits' spares .sequential strategy argument fuel
    rw [ended', Option.map_some] at told
    obtain ⟨report, ended, -⟩ := Option.map_eq_some_iff.mp told.symm
    exact ⟨fuel, report, ended⟩

end Tandem.Engine

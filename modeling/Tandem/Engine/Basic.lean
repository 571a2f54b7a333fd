import Tandem.Engine.Config
import Tandem.Engine.Journal
import Tandem.Machine.Printer
import Tandem.Machine.Sequential
import Tandem.Threaded.Dispatch
import Tandem.Threaded.Linking
import Tandem.Value

/-!
# Engines

A loaded image together with the machine that runs it. An engine can be run any number of times,
by either strategy. The threaded form of the image is made by the first threaded run and kept.

Where the trace records of a run go is said by the sink. A sink cannot change what a run does.
-/

namespace Tandem

/-- Where trace records go. -/
inductive Sink where
  /-- No records are made. -/
  | off
  /-- Into the journal. -/
  | journal
  /-- To a receiver, which can take them from the engine. -/
  | receiver
  /-- To a receiver that is gone. -/
  | lost
  deriving Repr, DecidableEq, Inhabited

/-- A loaded image and the machine that runs it. -/
structure Engine where
  image : Image
  config : Config
  machine : Machine
  /-- The threaded form of the image, once a threaded run has made it. -/
  code? : Option Threaded.Code := none
  sink : Sink := .off
  /-- Records that the receiver has not taken yet, the newest first. -/
  received : List Record := []
  journal : Journal := []

namespace Engine

/-- An engine for an image. -/
def ofImage (image : Image) (config : Config) : Engine :=
  { image
    config
    machine := Machine.ofStackSize config.stackSize config.growth
    sink := if config.trace then .journal else .off
    journal := Journal.note []
      ("loaded image of " ++ toString image.size ++ " bytes, entry " ++ Numeral.bareHex image.entry
        ++ ", " ++ config.text) }

/-- An engine for bytes that are entered at `entry`. -/
def load (bytes : Array UInt8) (entry : Nat) (config : Config) : Except Fault Engine :=
  (Image.load bytes entry).map fun image => ofImage image config

/-- Counters of the last run. -/
def stats (engine : Engine) : Stats := engine.machine.stats

/-! ## Sinks -/

/-- Send records to a new receiver from now on. -/
def attachReceiver (engine : Engine) : Engine := { engine with sink := .receiver, received := [] }

/-- Take away the receiver, if there is one. Another sink is not touched. -/
def dropReceiver (engine : Engine) : Engine :=
  { engine with
    sink := if engine.sink = .receiver then .lost else engine.sink
    received := [] }

/-- Make no records from now on. -/
def clearSink (engine : Engine) : Engine := { engine with sink := .off }

/-- Send records to the journal from now on. -/
def traceToJournal (engine : Engine) : Engine := { engine with sink := .journal }

/-- What the receiver has got, in the order in which it was made, and the engine without it. -/
def takeRecords (engine : Engine) : List Record × Engine :=
  (engine.received.reverse, { engine with received := [] })

/-- The messages so far, in their order, and the engine without them. -/
def takeMessages (engine : Engine) : List Message × Engine :=
  (engine.journal.reverse, { engine with journal := [] })

/-- The engine with its trace moved from the machine to where the sink says. -/
def deliver (engine : Engine) : Engine :=
  let records := engine.machine.trace.getD []
  let engine := { engine with machine := { engine.machine with trace := none } }
  match engine.sink with
  | .off => engine
  | .lost => engine
  | .journal => { engine with journal := records.map Record.message ++ engine.journal }
  | .receiver => { engine with received := records ++ engine.received }

/-! ## Runs -/

/-- The engine with the threaded form of its image. -/
def linked (engine : Engine) : Engine × Threaded.Code :=
  match engine.code? with
  | some code => (engine, code)
  | none =>
    let code := Threaded.Code.ofImage engine.image
    ({ engine with
        code? := some code
        journal := engine.journal.note
          s!"translated {code.ops.size} ops with {code.resumes.size} call sites" },
      code)

/-- The message about the end of a run. -/
def endText (strategy : Strategy) (result : Except Fault UInt32) (stats : Stats) : String :=
  match result with
  | .ok value => strategy.name ++ " run finished: " ++ toString value ++ ", " ++ stats.text
  | .error fault => strategy.name ++ " run failed: " ++ fault.message

/-- Run the image on a prepared machine, or fail with the fault of the preparation. A run that
could not be prepared leaves no message. -/
def launch (engine : Engine) (strategy : Strategy) (argument : Value) (fuel : Nat)
    (dispatch : Nat → Machine → Option (Outcome Machine)) :
    Option (Except Fault Value × Engine) :=
  let trace := if engine.sink = .off then none else some []
  match Machine.prepare engine.image argument.word { engine.machine with trace } with
  | .error fault machine =>
    some (.error fault, { engine with machine := { machine with trace := none } })
  | .ok () machine =>
    (dispatch fuel machine).map fun outcome =>
      let engine := deliver { engine with machine := outcome.state }
      (outcome.result.map Value.ofUInt32,
        { engine with
          journal := engine.journal.note (endText strategy outcome.result engine.machine.stats) })

/-- Run the image with `argument` in at most `fuel` steps. -/
def run (engine : Engine) (strategy : Strategy) (argument : Value) (fuel : Nat) :
    Option (Except Fault Value × Engine) :=
  match strategy with
  | .sequential => engine.launch strategy argument fuel (Sequential.run engine.image)
  | .threaded =>
    let (engine, code) := engine.linked
    engine.launch strategy argument fuel (Threaded.run engine.image code)

end Engine

end Tandem

import Tandem.CommandLine.Options
import Tandem.Engine.Basic
import Tandem.Listing
import Tandem.Text.Duration

/-!
# Sessions

What a command line makes the program do: print the listing of a sample, or run the sample the
given number of times on one engine, up to the first run that fails. Repeated runs are timed. The
time that they took is known only after the last one, so the work of a session and what it comes to
are two definitions.
-/

namespace Tandem.CommandLine

/-- How a session ends. -/
inductive Ending where
  /-- With the value of the last run, with no value if nothing was run, or with a fault. -/
  | returned (result : Except Fault (Option Value))
  /-- In the middle of the division that gives the time of one run. -/
  | dividedByZero

/-- What a session came to. -/
structure Session where
  ending : Ending
  /-- What was printed, line breaks included. -/
  printed : String := ""
  /-- What was said about the time of repeated runs. -/
  timing : Option String := none
  journal : Journal := []

/-! ## Work -/

/-- What a session did. -/
inductive Work where
  /-- Nothing, the image cannot be loaded. -/
  | refused (fault : Fault)
  /-- Nothing but look at the image. -/
  | listed (image : Image)
  /-- What the last run came to, and the engine after it. -/
  | ran (result : Except Fault Value) (engine : Engine)

/-- Run an engine, and again `more` times as long as no run fails. -/
def runAgain (strategy : Strategy) (argument : Value) (fuel : Nat) :
    (more : Nat) → Engine → Option (Except Fault Value × Engine)
  | 0, engine => engine.run strategy argument fuel
  | more + 1, engine =>
    match engine.run strategy argument fuel with
    | some (.ok _, engine) => runAgain strategy argument fuel more engine
    | ended => ended

/-- Do what `options` ask for, each run in at most `fuel` steps. -/
def work (options : Options) (fuel : Nat) : Option Work :=
  match Image.load options.program.bytes 0 with
  | .error fault => some (.refused fault)
  | .ok image =>
    if options.disassemble then
      some (.listed image)
    else
      (runAgain options.strategy (Value.ofUInt32 options.argument) fuel (options.repeats - 1)
        (Engine.ofImage image options.config)).map fun (result, engine) => .ran result engine

/-! ## What the work comes to -/

/-- The line that shows the counters of the last run. -/
def statsLine (stats : Stats) : String :=
  s!"instructions: {stats.instructions}, calls: {stats.calls}, returns: {stats.returns}, "
    ++ s!"max stack depth: {stats.maxDepth} bytes\n"

/-- The time of one run of many. The time of all is divided by their number as a 32-bit word, so
there is none where that word is zero. -/
def timePerRun (elapsed repeats : Nat) : Option Nat :=
  let divisor := repeats.toUInt32
  if divisor = 0 then none else some (elapsed / divisor.toNat)

/-- The message that shows the time of all runs and that of one. -/
def timingText (repeats elapsed perRun : Nat) : String :=
  s!"{repeats} runs in {Duration.text elapsed} ({Duration.text perRun} per run)"

/-- What the work of a session comes to that took `elapsed` nanoseconds. The time of repeated runs is
a message, and it is worked out only if the log is `informed`: if it takes messages that inform. -/
def Work.conclude (options : Options) (informed : Bool) (elapsed : Nat) : Work → Session
  | .refused fault => { ending := .returned (.error fault) }
  | .listed image => { ending := .returned (.ok none), printed := image.listing ++ "\n" }
  | .ran (.error fault) engine =>
    { ending := .returned (.error fault), journal := engine.journal }
  | .ran (.ok value) engine =>
    let session : Session :=
      { ending := .returned (.ok (some value))
        printed := if options.stats then statsLine engine.stats else ""
        journal := engine.journal }
    if informed ∧ 1 < options.repeats then
      match timePerRun elapsed options.repeats with
      | some perRun =>
        { session with timing := some (timingText options.repeats elapsed perRun) }
      | none => { ending := .dividedByZero, journal := engine.journal }
    else session

/-- The session that `options` ask for, each run in at most `fuel` steps. -/
def session (options : Options) (informed : Bool) (elapsed fuel : Nat) : Option Session :=
  (work options fuel).map (Work.conclude options informed elapsed)

end Tandem.CommandLine

import Tandem.Engine.Config
import Tandem.Sample

/-!
# Options of the command line

What a command line asks for, once it is read, and why one is refused.
-/

namespace Tandem.CommandLine

/-- What a command line asks for. -/
structure Options where
  /-- The image to run. -/
  program : Sample := .fibonacci
  /-- The argument of the run. -/
  argument : UInt32 := 20
  /-- Use threaded dispatch. -/
  threaded : Bool := false
  /-- The direction in which both stacks grow. -/
  growth : Growth := .upward
  /-- The capacity of the operand stack in bytes, if it is given. -/
  stackSize : Option Nat := none
  /-- Send the trace to the journal. -/
  trace : Bool := false
  /-- How many times to run the image; none counts as once. -/
  repeats : Nat := 1
  /-- Print the listing of the image and do not run it. -/
  disassemble : Bool := false
  /-- Print the counters after the run. -/
  stats : Bool := false
  deriving Repr, DecidableEq

/-- The configuration of the engine. -/
def Options.config (options : Options) : Config :=
  { stackSize := options.stackSize.getD ({} : Config).stackSize
    growth := options.growth
    trace := options.trace }

/-- The strategy of the runs. -/
def Options.strategy (options : Options) : Strategy :=
  if options.threaded then .threaded else .sequential

/-- Why a command line gives no options. The first two are what the user asked for. -/
inductive Refusal where
  | helpRequested
  | versionRequested
  /-- An option without its value, or a word that is not among the values of its option. -/
  | invalidValue
  /-- A number that cannot be read or is out of range. -/
  | unreadableNumber
  /-- A flag with a value. -/
  | unexpectedValue
  /-- An option or a word that has no place. -/
  | unknownArgument
  /-- The same option twice, or two that exclude each other. -/
  | conflict
  deriving Repr, DecidableEq

/-- The exit code of a program whose command line was refused. -/
def Refusal.exitCode : Refusal → UInt32
  | .helpRequested => 0
  | .versionRequested => 0
  | _ => 2

end Tandem.CommandLine

import Tandem.Stack.Basic

/-!
# Configurations

What can be chosen for an engine and for its runs: the size and the direction of the stacks, where
traces go, and the dispatch strategy. Only the size can change what a run comes to.
-/

namespace Tandem

/-- How a run finds its next instruction. -/
inductive Strategy where
  /-- Decode at the cursor. -/
  | sequential
  /-- Follow the links of the threaded form of the image. -/
  | threaded
  deriving Repr, DecidableEq, Inhabited

/-- The name of a strategy in messages. -/
def Strategy.name : Strategy → String
  | .sequential => "generic"
  | .threaded => "threaded"

/-- The configuration of an engine. -/
structure Config where
  /-- The capacity of the operand stack in bytes. -/
  stackSize : Nat := 8 * 1024 * 1024
  /-- The direction in which both stacks grow. -/
  growth : Growth := .upward
  /-- Send the trace of every run to the journal. -/
  trace : Bool := false
  deriving Repr, DecidableEq

/-- A configuration in messages. -/
def Config.text (config : Config) : String :=
  "Config \x7b stack_size: " ++ toString config.stackSize ++ ", growth: " ++ config.growth.name
    ++ ", trace: " ++ toString config.trace ++ " \x7d"

end Tandem

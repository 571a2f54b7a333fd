import Tandem.Engine.Basic
import Tandem.Instruction.Encoding

/-!
# Cross-checking

Running one image in every way that should come to the same: by both strategies and in both growth
directions. What is compared is everything that a run shows: its result, its counters and its trace.
-/

namespace Tandem

/-- Results of runs can be told apart. -/
instance decidableEqResult : DecidableEq (Except Fault Value)
  | .ok left, .ok right => decidable_of_iff (left = right) (by simp)
  | .error left, .error right => decidable_of_iff (left = right) (by simp)
  | .ok _, .error _ => isFalse (by simp)
  | .error _, .ok _ => isFalse (by simp)

/-- Everything that a run shows. -/
structure Observation where
  result : Except Fault Value
  stats : Stats
  /-- The records in the order in which they were made. -/
  trace : List Record
  deriving DecidableEq

namespace Crosscheck

/-- An image that compares `left` with `right` by the compare opcode and branches by the branch
opcode: its value is two if the branch is taken and one if it is not. -/
def compareImage (compare : UInt8) (left right : UInt32) (branch : UInt8) : Array UInt8 :=
  Instruction.assemble [.pushWord left.toInt32, .pushWord right.toInt32]
    ++ #[compare, 0, 1, branch, 7]
    ++ Instruction.assemble [.retLongWith 8 1, .retLongWith 8 2]

/-- Run an image on an engine of its own and observe it. -/
def observe (image : Image) (argument : Value) (config : Config) (strategy : Strategy)
    (fuel : Nat) : Option Observation :=
  ((Engine.ofImage image config).attachReceiver.run strategy argument fuel).map
    fun (result, engine) => ⟨result, engine.stats, engine.received.reverse⟩

/-- The ways to run an image. -/
def ways : List (Growth × Strategy) :=
  [(.upward, .sequential), (.upward, .threaded), (.downward, .sequential), (.downward, .threaded)]

/-- Why a cross-check has no observation to give. -/
inductive Failure where
  | notLoaded (fault : Fault)
  /-- A run that differs from the reference. -/
  | disagreement (growth : Growth) (strategy : Strategy)
  deriving Repr, DecidableEq

/-- Compare each of `ways` with the reference. -/
def compareWays (image : Image) (argument : Value) (config : Config) (fuel : Nat)
    (reference : Observation) : List (Growth × Strategy) → Option (Except Failure Observation)
  | [] => some (.ok reference)
  | (growth, strategy) :: rest =>
    match observe image argument { config with growth } strategy fuel with
    | none => none
    | some observation =>
      if observation = reference then compareWays image argument config fuel reference rest
      else some (.error (.disagreement growth strategy))

/-- The observation that all ways to run the bytes from `entry` share. The reference is the
sequential run in the configuration as it is. -/
def run (bytes : Array UInt8) (entry : Nat) (argument : Value) (config : Config) (fuel : Nat) :
    Option (Except Failure Observation) :=
  match Image.load bytes entry with
  | .error fault => some (.error (.notLoaded fault))
  | .ok image =>
    match observe image argument config .sequential fuel with
    | none => none
    | some reference => compareWays image argument config fuel reference ways

/-- The shared result of an image that is entered at its first byte, in the default
configuration. -/
def result (bytes : Array UInt8) (argument : Value) (fuel : Nat) :
    Option (Except Failure (Except Fault Value)) :=
  (run bytes 0 argument {} fuel).map fun shared => shared.map Observation.result

end Crosscheck

end Tandem

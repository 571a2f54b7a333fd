import Tandem.Instruction.Decoding
import Tandem.Machine.Execute
import Tandem.Machine.Progress

/-!
# Sequential dispatch

The loop that decodes the instruction at the cursor, runs it and moves the cursor. When the run is
over, the cursor is left at the instruction that ended it.
-/

namespace Tandem.Sequential

/-- The machine with its cursor where `flow` leads from an instruction of the given length, or the
end of the run. -/
def follow (length : Nat) (flow : Flow) (machine : Machine) : Progress Machine :=
  match flow with
  | .next => .running { machine with cursor := machine.cursor + length }
  | .branch target => .running { machine with cursor := target }
  | .call target => .running { machine with cursor := target }
  | .toCaller address => .running { machine with cursor := address }
  | .toEngine => .done (.ok machine.registers.accumulator) machine
  | .halt => .done (.ok machine.registers.accumulator) machine

/-- Decode the instruction at the cursor and run it. -/
def step (image : Image) (machine : Machine) : Progress Machine :=
  match Instruction.decode image machine.cursor with
  | .error fault => .done (.error fault) machine
  | .ok instruction =>
    match Machine.execute image machine.cursor instruction machine with
    | .error fault machine => .done (.error fault) machine
    | .ok flow machine => follow instruction.length flow machine

/-- Run a machine from its cursor on. -/
def run (image : Image) (fuel : Nat) (machine : Machine) : Option (Outcome Machine) :=
  iterate (step image) fuel machine

end Tandem.Sequential

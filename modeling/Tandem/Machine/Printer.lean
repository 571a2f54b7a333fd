import Tandem.Machine.Basic

/-!
# Machine state as text

The structural form of counters, registers and machines: a name, and the fields in braces.
-/

namespace Tandem

/-- Counters in messages. -/
def Stats.text (stats : Stats) : String :=
  "ExecStats \x7b instructions: " ++ toString stats.instructions ++ ", calls: "
    ++ toString stats.calls ++ ", returns: " ++ toString stats.returns ++ ", max_stack_depth: "
    ++ toString stats.maxDepth ++ " \x7d"

/-- Registers in messages. -/
def Registers.text (registers : Registers) : String :=
  "RegisterFile \x7b accumulator: " ++ toString registers.accumulator ++ ", flags: "
    ++ toString registers.flag ++ " \x7d"

/-- What can be seen of a machine that runs `image`. The bytes on its stacks are left out. -/
def Machine.text (machine : Machine) (image : Image) : String :=
  "ExecutionContext \x7b image_size: " ++ toString image.size ++ ", registers: "
    ++ machine.registers.text ++ ", ip: " ++ toString machine.cursor ++ ", fp: "
    ++ toString machine.frame ++ ", top: " ++ toString machine.stack.top ++ ", stats: "
    ++ machine.stats.text ++ ", .. \x7d"

end Tandem

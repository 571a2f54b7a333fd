import Tandem.CommandLine.Reader
import Tandem.CommandLine.Session

/-!
# The command line program
-/

namespace Tandem.CommandLine

/-- How the program is called. -/
def usage : String :=
  String.join <|
    ["Usage: tandem [OPTIONS] [fibonacci|countdown|halt]",
      "",
      "Options:",
      "  -a, --arg <ARG>                  argument of the run [default: 20]",
      "      --threaded                   use threaded dispatch",
      "      --growth <upward|downward>   direction in which both stacks grow",
      "      --stack-size <BYTES>         size of the operand stack",
      "      --trace                      show every executed instruction",
      "      --repeat <TIMES>             how many times to run the image",
      "      --disasm                     print the listing of the image and exit",
      "      --stats                      print counters after the run",
      "  -h, --help                       print this text",
      "  -V, --version                    print the version"].map (· ++ "\n")

/-- What is said of a command line that is refused. -/
def Refusal.text : Refusal → String
  | .helpRequested => usage
  | .versionRequested => "tandem 0.1.0\n"
  | .invalidValue => "error: a value is missing or is not among the possible values\n"
  | .unreadableNumber => "error: a number is not readable or out of range\n"
  | .unexpectedValue => "error: a flag takes no value\n"
  | .unknownArgument => "error: unexpected argument\n"
  | .conflict => "error: arguments cannot be used together\n"

/-- Steps that a run may use: days of work. -/
def stepLimit : Nat := UInt32.size * UInt16.size

/-- Report what a session came to; the result is the exit code. -/
def Session.report (session : Session) : IO UInt32 := do
  for message in session.journal.reverse do
    IO.eprintln (message.level.name ++ ": " ++ message.text)
  if let some timing := session.timing then
    IO.eprintln ("info: " ++ timing)
  IO.print session.printed
  match session.ending with
  | .dividedByZero =>
    IO.eprintln "error: divide by zero error when dividing duration by scalar"
    return 101
  | .returned (.error fault) =>
    IO.eprintln ("error: " ++ fault.message)
    return 1
  | .returned (.ok none) => return 0
  | .returned (.ok (some value)) =>
    IO.println value.text
    return 0

/-- Do what the words of a command line ask for; the result is the exit code. -/
def perform (words : List String) : IO UInt32 := do
  match Options.read words with
  | .error refusal =>
    if refusal.exitCode = 0 then IO.print refusal.text else IO.eprint refusal.text
    return refusal.exitCode
  | .ok options =>
    let start ← IO.monoNanosNow
    match work options stepLimit with
    | none => return 1
    | some work =>
      let stop ← IO.monoNanosNow
      (work.conclude options true (stop - start)).report

end Tandem.CommandLine

/-- Run the program. -/
def main (words : List String) : IO UInt32 := Tandem.CommandLine.perform words

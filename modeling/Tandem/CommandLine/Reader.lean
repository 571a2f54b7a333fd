import Tandem.CommandLine.Number
import Tandem.CommandLine.Options

/-!
# Reading a command line

Words are read from left to right. A setting is *pending* from the moment it is named: its value may
be the next word, and it is *closed*, that is, checked and stored, when the next known setting, flag
or program begins, or at the end. So a later word that has no place hides a value that is wrong,
while a value that is attached to the name of its setting is checked at once.

Closing a setting finds a missing value first, then a setting that is given twice, then a value that
cannot be read. Which flags exclude each other is decided after the last word.
-/

namespace Tandem.CommandLine

/-- What takes a value. -/
inductive Setting where
  /-- The program to run, which is given without a name. -/
  | program
  | argument
  | growth
  | stackSize
  | repeats
  deriving Repr, DecidableEq

/-- What takes no value. -/
inductive Flag where
  | threaded
  | trace
  | disassemble
  | stats
  deriving Repr, DecidableEq

/-- What a name on the command line stands for. -/
inductive Name where
  | setting (setting : Setting)
  | flag (flag : Flag)
  | help
  | version
  deriving Repr, DecidableEq

/-- The meaning of a long name, which follows two dashes. -/
def Name.ofLong? : String → Option Name
  | "arg" => some (.setting .argument)
  | "growth" => some (.setting .growth)
  | "stack-size" => some (.setting .stackSize)
  | "repeat" => some (.setting .repeats)
  | "threaded" => some (.flag .threaded)
  | "trace" => some (.flag .trace)
  | "disasm" => some (.flag .disassemble)
  | "stats" => some (.flag .stats)
  | "help" => some .help
  | "version" => some .version
  | _ => none

/-- The meaning of a letter after a single dash. -/
def Name.ofShort? : Char → Option Name
  | 'a' => some (.setting .argument)
  | 'h' => some .help
  | 'V' => some .version
  | _ => none

/-- The programs that can be asked for. -/
def program? : String → Option Sample
  | "fibonacci" => some .fibonacci
  | "countdown" => some .countdown
  | "halt" => some .halt
  | _ => none

/-- The growth directions that can be asked for. -/
def growth? : String → Option Growth
  | "upward" => some .upward
  | "downward" => some .downward
  | _ => none

/-- A value, or the refusal of the word that does not give one. -/
def orRefuse {α : Type} (refusal : Refusal) : Option α → Except Refusal α
  | some value => .ok value
  | none => .error refusal

/-- Set `setting` to the value that `word` gives. -/
def Options.set (options : Options) (setting : Setting) (word : String) :
    Except Refusal Options :=
  match setting with
  | .program => return { options with program := ← orRefuse .invalidValue (program? word) }
  | .argument => return { options with argument := ← orRefuse .unreadableNumber (word? word) }
  | .growth => return { options with growth := ← orRefuse .invalidValue (growth? word) }
  | .stackSize =>
    return { options with stackSize := some (← orRefuse .unreadableNumber (offset? word)) }
  | .repeats => return { options with repeats := ← orRefuse .unreadableNumber (offset? word) }

/-- Raise `flag`. -/
def Options.raise (options : Options) : Flag → Options
  | .threaded => { options with threaded := true }
  | .trace => { options with trace := true }
  | .disassemble => { options with disassemble := true }
  | .stats => { options with stats := true }

/-- How far a command line is read. -/
structure Reading where
  options : Options := {}
  /-- The settings that are stored. -/
  settings : List Setting := []
  /-- The flags that are raised. -/
  flags : List Flag := []
  /-- A program is named; there can be no other. -/
  hasProgram : Bool := false
  /-- The setting that is named and not stored yet, and its value if it has one. -/
  pending : Option (Setting × Option String) := none

namespace Reading

/-- Store a setting, which must not be stored already. -/
def store (reading : Reading) (setting : Setting) (word : String) : Except Refusal Reading :=
  if setting ∈ reading.settings then .error .conflict
  else do
    let options ← reading.options.set setting word
    return { reading with options, settings := setting :: reading.settings }

/-- Close the pending setting. -/
def close (reading : Reading) : Except Refusal Reading :=
  match reading.pending with
  | none => .ok reading
  | some (_, none) => .error .invalidValue
  | some (setting, some word) => { reading with pending := none }.store setting word

/-- A setting is named; its value, if it has one, follows. -/
def announce (reading : Reading) (setting : Setting) (word? : Option String) :
    Except Refusal Reading := do
  let reading ← reading.close
  return { reading with pending := some (setting, word?) }

/-- A setting is given together with its value. -/
def give (reading : Reading) (setting : Setting) (word : String) : Except Refusal Reading := do
  let reading ← reading.close
  reading.store setting word

/-- A flag is given. -/
def raise (reading : Reading) (flag : Flag) : Except Refusal Reading := do
  let reading ← reading.close
  if flag ∈ reading.flags then throw .conflict
  else return { reading with options := reading.options.raise flag, flags := flag :: reading.flags }

/-- Nothing more is read. -/
def stop (reading : Reading) (refusal : Refusal) : Except Refusal Reading := do
  let _ ← reading.close
  throw refusal

/-- A word that begins with two dashes, which are left out here. -/
def readLong (reading : Reading) (word : List Char) : Except Refusal Reading :=
  let (name, rest) := word.span (· != '=')
  match Name.ofLong? (String.ofList name), rest with
  | none, _ => .error .unknownArgument
  | some (.setting setting), [] => reading.announce setting none
  | some (.setting setting), _ :: value => reading.give setting (String.ofList value)
  | some _, _ :: _ => .error .unexpectedValue
  | some (.flag flag), [] => reading.raise flag
  | some .help, [] => reading.stop .helpRequested
  | some .version, [] => reading.stop .versionRequested

/-- A word that begins with one dash, which is left out here: letters, up to one that takes a
value. What follows that letter, and an equals sign if there is one, is the value. -/
def readLetters (reading : Reading) : List Char → Except Refusal Reading
  | [] => .ok reading
  | letter :: rest =>
    match Name.ofShort? letter, rest with
    | none, _ => .error .unknownArgument
    | some (.setting setting), [] => reading.announce setting none
    | some (.setting setting), '=' :: value => reading.give setting (String.ofList value)
    | some (.setting setting), value => reading.give setting (String.ofList value)
    | some (.flag flag), rest => do readLetters (← reading.raise flag) rest
    | some .help, _ => reading.stop .helpRequested
    | some .version, _ => reading.stop .versionRequested

/-- A word without a name. -/
def readPlain (reading : Reading) (word : String) : Except Refusal Reading :=
  if reading.hasProgram then .error .unknownArgument
  else do
    let reading ← reading.announce .program (some word)
    return { reading with hasProgram := true }

/-- Read the words that are left, and close the last setting. After a word of two dashes, no word
is a name or a value. -/
def readWords (named : Bool) (reading : Reading) : List String → Except Refusal Reading
  | [] => reading.close
  | word :: rest =>
    if named then
      match word.toList, reading.pending with
      | ['-', '-'], _ => readWords false reading rest
      | '-' :: '-' :: name, _ => do readWords true (← reading.readLong name) rest
      | '-' :: letter :: letters, _ => do
        readWords true (← reading.readLetters (letter :: letters)) rest
      | _, some (setting, none) =>
        readWords true { reading with pending := some (setting, some word) } rest
      | _, _ => do readWords true (← reading.readPlain word) rest
    else do readWords false (← reading.readPlain word) rest

end Reading

/-- The options that the words of a command line give. The listing and the counters exclude each
other. -/
def Options.read (words : List String) : Except Refusal Options := do
  let reading ← Reading.readWords true {} words
  if reading.options.disassemble ∧ reading.options.stats then throw .conflict
  else return reading.options

end Tandem.CommandLine

import Tandem.Machine.Trace

/-!
# Journals

The messages that an engine leaves about its life: its creation, the linking of its image, the end
of each run, and the trace records if they are sent here.
-/

namespace Tandem

/-- How detailed a message is. -/
inductive Level where
  | debug
  | trace
  deriving Repr, DecidableEq, Inhabited

/-- The name of a level. -/
def Level.name : Level → String
  | .debug => "debug"
  | .trace => "trace"

/-- One message of a journal. -/
structure Message where
  level : Level
  text : String
  deriving Repr, DecidableEq

/-- A trace record as a message. -/
def Record.message (record : Record) : Message := ⟨.trace, record.text⟩

/-- Messages, the newest first. -/
abbrev Journal := List Message

/-- The journal with one more message about the life of an engine. -/
def Journal.note (journal : Journal) (text : String) : Journal := ⟨.debug, text⟩ :: journal

end Tandem

/-!
# Values

What a run is given and what it hands back: one 32-bit word, tagged with its kind.
-/

namespace Tandem

/-- What the word of a value stands for. -/
inductive Value.Kind where
  /-- A plain number. -/
  | basic
  deriving Repr, DecidableEq, Inhabited

/-- A tagged word passed into a run as its argument and handed back as its result. -/
structure Value where
  kind : Value.Kind := .basic
  word : UInt32 := 0
  deriving Repr, DecidableEq, Inhabited

namespace Value

/-- The name of a kind. -/
def Kind.name : Kind → String
  | .basic => "Basic"

/-- A plain number from its unsigned reading. -/
def ofUInt32 (word : UInt32) : Value := { word }

/-- A plain number from its signed reading. -/
def ofInt32 (number : Int32) : Value := { word := number.toUInt32 }

/-- The signed reading of a value. -/
def toInt32 (value : Value) : Int32 := value.word.toInt32

/-- A value as text: its unsigned reading in decimal. -/
def text (value : Value) : String :=
  match value.kind with
  | .basic => toString value.word

end Value

end Tandem

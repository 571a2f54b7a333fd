/-!
# Numbers on the command line

A number is an optional sign and at least one decimal digit; nothing else is allowed, and leading
zeros do not matter. Digits are those of ASCII.
-/

namespace Tandem.CommandLine

/-- The number that decimal digits spell. -/
def digits? (text : List Char) : Option Nat :=
  if text.isEmpty ∨ ¬ text.all Char.isDigit then none
  else some (text.foldl (fun number digit => 10 * number + (digit.toNat - '0'.toNat)) 0)

/-- A number of at most 64 bits. The only sign that it can have is a plus. -/
def offset? (text : String) : Option Nat :=
  let number? := match text.toList with
    | '+' :: digits => digits? digits
    | digits => digits? digits
  number?.filter (· < UInt64.size)

/-- A number of at most 32 bits. It is read as a signed number, so that zero can have a minus. -/
def word? (text : String) : Option UInt32 :=
  let number? := match text.toList with
    | '+' :: digits => digits? digits
    | '-' :: digits => (digits? digits).filter (· == 0)
    | digits => digits? digits
  (number?.filter (· < UInt32.size)).map Nat.toUInt32

end Tandem.CommandLine

/-!
# Numerals

The numerals that listings, trace records and fault messages are written with. Each is built as a
list of digits and turned into a string last, so that what two texts share is read off their
digits.
-/

namespace Tandem.Numeral

/-- Lower-case hexadecimal digits of `n`, padded on the left with zeros to at least `width`. -/
def hex (width n : Nat) : String :=
  String.ofList (List.leftpad width '0' (Nat.toDigits 16 n))

/-- Upper-case hexadecimal digits of `n`, padded on the left with zeros to at least `width`. -/
def upperHex (width n : Nat) : String :=
  String.ofList ((List.leftpad width '0' (Nat.toDigits 16 n)).map Char.toUpper)

/-- A number that is marked as hexadecimal and written with as many digits as it needs. -/
def bareHex (n : Nat) : String := "0x" ++ hex 1 n

/-- A 32-bit word or an offset: marked as hexadecimal, with at least eight digits. -/
def word (n : Nat) : String := "0x" ++ hex 8 n

/-- A 64-bit word: marked as hexadecimal, with at least sixteen digits. -/
def wideWord (n : Nat) : String := "0x" ++ hex 16 n

/-- A decimal number, with a minus sign where it is negative. -/
def decimal (n : Int) : String :=
  if n < 0 then "-" ++ toString n.natAbs else toString n.natAbs

/-- A decimal number that always shows its sign; zero counts as positive. -/
def signed (n : Int) : String :=
  if n < 0 then "-" ++ toString n.natAbs else "+" ++ toString n.natAbs

end Tandem.Numeral

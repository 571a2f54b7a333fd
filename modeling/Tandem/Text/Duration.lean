/-!
# Durations

How long something took, as messages show it. A duration is a number of nanoseconds; it is shown in
the largest of four units that is not above it, exactly.
-/

namespace Tandem.Duration

/-- A part of a unit that is counted in `places` decimal places, behind a point. Zeros at the end
are left out, and the point too if nothing stands behind it. -/
def fraction (places part : Nat) : String :=
  let digits := List.leftpad places '0' (Nat.toDigits 10 part)
  match (digits.reverse.dropWhile (· == '0')).reverse with
  | [] => ""
  | kept => "." ++ String.ofList kept

/-- A duration in a unit of `size` nanoseconds, which has `places` decimal places. -/
def inUnits (unit : String) (size places nanoseconds : Nat) : String :=
  toString (nanoseconds / size) ++ fraction places (nanoseconds % size) ++ unit

/-- A duration in the unit that suits it: 12340000 nanoseconds are `12.34ms`. -/
def text (nanoseconds : Nat) : String :=
  if nanoseconds < 1_000 then inUnits "ns" 1 0 nanoseconds
  else if nanoseconds < 1_000_000 then inUnits "µs" 1_000 3 nanoseconds
  else if nanoseconds < 1_000_000_000 then inUnits "ms" 1_000_000 6 nanoseconds
  else inUnits "s" 1_000_000_000 9 nanoseconds

end Tandem.Duration

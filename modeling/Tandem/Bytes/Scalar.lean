import Tandem.Bytes.LittleEndian

/-!
# Scalars

The fixed-width integers that images hold as operands and stacks hold as values. A scalar has a
width in bytes, and a numeral in the range of that width names it; signed integers are named by
their two's complement. In memory a scalar is its numeral in little-endian order, and reading it
back gives the same scalar (`decode_encode`).
-/

namespace Tandem

/-- A type of fixed-width integers with an exact numbering of its values. -/
class Scalar (α : Type) where
  /-- Bytes that a value takes in memory. -/
  width : Nat
  /-- The numeral of a value. -/
  toNat : α → Nat
  /-- The value of a numeral; digits beyond the width are dropped. -/
  ofNat : Nat → α
  toNat_lt : ∀ a, toNat a < LittleEndian.range width
  ofNat_toNat : ∀ a, ofNat (toNat a) = a
  toNat_ofNat : ∀ n, toNat (ofNat n) = n % LittleEndian.range width

namespace Scalar

variable {α : Type} [Scalar α]

/-- The bytes of a value in memory. -/
def encode (a : α) : List UInt8 := LittleEndian.encode (width α) (toNat a)

/-- The value that `bytes` hold. -/
def decode (α : Type) [Scalar α] (bytes : List UInt8) : α := ofNat (LittleEndian.decode bytes)

@[simp] theorem length_encode (a : α) : (encode a).length = width α := by simp [encode]

@[simp] theorem decode_encode (a : α) : decode α (encode a) = a := by
  simp [decode, encode, LittleEndian.decode_encode, Nat.mod_eq_of_lt (toNat_lt a), ofNat_toNat]

theorem encode_decode {bytes : List UInt8} (fits : bytes.length = width α) :
    encode (decode α bytes) = bytes := by
  have bound := LittleEndian.decode_lt bytes
  rw [encode, decode, toNat_ofNat, ← fits, Nat.mod_eq_of_lt bound, LittleEndian.encode_decode]

instance : Scalar UInt8 where
  width := 1
  toNat := UInt8.toNat
  ofNat := UInt8.ofNat
  toNat_lt a := by simpa [LittleEndian.range] using a.toNat_lt
  ofNat_toNat := by simp
  toNat_ofNat := by simp [LittleEndian.range]

instance : Scalar UInt16 where
  width := 2
  toNat := UInt16.toNat
  ofNat := UInt16.ofNat
  toNat_lt a := by simpa [LittleEndian.range] using a.toNat_lt
  ofNat_toNat := by simp
  toNat_ofNat := by simp [LittleEndian.range]

instance : Scalar UInt32 where
  width := 4
  toNat := UInt32.toNat
  ofNat := UInt32.ofNat
  toNat_lt a := by simpa [LittleEndian.range] using a.toNat_lt
  ofNat_toNat := by simp
  toNat_ofNat := by simp [LittleEndian.range]

instance : Scalar UInt64 where
  width := 8
  toNat := UInt64.toNat
  ofNat := UInt64.ofNat
  toNat_lt a := by simpa [LittleEndian.range] using a.toNat_lt
  ofNat_toNat := by simp
  toNat_ofNat := by simp [LittleEndian.range]

instance : Scalar Int8 where
  width := 1
  toNat a := a.toUInt8.toNat
  ofNat n := (UInt8.ofNat n).toInt8
  toNat_lt a := by simpa [LittleEndian.range] using a.toUInt8.toNat_lt
  ofNat_toNat := by simp
  toNat_ofNat := by simp [LittleEndian.range]

instance : Scalar Int16 where
  width := 2
  toNat a := a.toUInt16.toNat
  ofNat n := (UInt16.ofNat n).toInt16
  toNat_lt a := by simpa [LittleEndian.range] using a.toUInt16.toNat_lt
  ofNat_toNat := by simp
  toNat_ofNat := by simp [LittleEndian.range]

instance : Scalar Int32 where
  width := 4
  toNat a := a.toUInt32.toNat
  ofNat n := (UInt32.ofNat n).toInt32
  toNat_lt a := by simpa [LittleEndian.range] using a.toUInt32.toNat_lt
  ofNat_toNat := by simp
  toNat_ofNat := by simp [LittleEndian.range]

instance : Scalar Int64 where
  width := 8
  toNat a := a.toUInt64.toNat
  ofNat n := (UInt64.ofNat n).toInt64
  toNat_lt a := by simpa [LittleEndian.range] using a.toUInt64.toNat_lt
  ofNat_toNat := by simp
  toNat_ofNat := by simp [LittleEndian.range]

@[simp] theorem width_uint32 : width UInt32 = 4 := rfl

@[simp] theorem width_uint64 : width UInt64 = 8 := rfl

@[simp] theorem width_int32 : width Int32 = 4 := rfl

@[simp] theorem width_int64 : width Int64 = 8 := rfl

end Scalar

end Tandem

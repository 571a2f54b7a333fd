import Tandem.Stack.Basic

/-!
# The cells of a stack

What a write does to the byte of every position, in either growth direction. Different positions
have different cells as long as they lie inside the capacity (`Growth.cell_inj`), so a write changes
the bytes that it covers and no others (`byte_store_of_outside`, `load_store_self`).
-/

namespace Tandem

theorem Growth.cell_lt (growth : Growth) {capacity position : Nat} (inside : position < capacity) :
    growth.cell capacity position < capacity := by
  cases growth with
  | upward => exact inside
  | downward =>
    simp only [cell]
    omega

/-- Positions inside the capacity have cells of their own. -/
theorem Growth.cell_inj (growth : Growth) {capacity first second : Nat} (one : first < capacity)
    (two : second < capacity) :
    growth.cell capacity first = growth.cell capacity second ↔ first = second := by
  cases growth with
  | upward => exact Iff.rfl
  | downward =>
    simp only [cell]
    omega

namespace Stack

variable {stack other : Stack} {position count : Nat} {bytes : List UInt8}

/-! ## What stays as it is -/

@[simp] theorem capacity_setByte (stack : Stack) (position : Nat) (value : UInt8) :
    (stack.setByte position value).capacity = stack.capacity := by
  simp [setByte, capacity]

@[simp] theorem growth_setByte (stack : Stack) (position : Nat) (value : UInt8) :
    (stack.setByte position value).growth = stack.growth := rfl

@[simp] theorem top_setByte (stack : Stack) (position : Nat) (value : UInt8) :
    (stack.setByte position value).top = stack.top := rfl

@[simp] theorem capacity_store (stack : Stack) (position : Nat) (bytes : List UInt8) :
    (stack.store position bytes).capacity = stack.capacity := by
  induction bytes generalizing stack position with
  | nil => rfl
  | cons value rest ih => rw [store, ih, capacity_setByte]

@[simp] theorem growth_store (stack : Stack) (position : Nat) (bytes : List UInt8) :
    (stack.store position bytes).growth = stack.growth := by
  induction bytes generalizing stack position with
  | nil => rfl
  | cons value rest ih => rw [store, ih, growth_setByte]

@[simp] theorem top_store (stack : Stack) (position : Nat) (bytes : List UInt8) :
    (stack.store position bytes).top = stack.top := by
  induction bytes generalizing stack position with
  | nil => rfl
  | cons value rest ih => rw [store, ih, top_setByte]

@[simp] theorem capacity_append (stack : Stack) (bytes : List UInt8) :
    (stack.append bytes).capacity = stack.capacity :=
  capacity_store stack stack.top bytes

@[simp] theorem growth_append (stack : Stack) (bytes : List UInt8) :
    (stack.append bytes).growth = stack.growth :=
  growth_store stack stack.top bytes

@[simp] theorem top_append (stack : Stack) (bytes : List UInt8) :
    (stack.append bytes).top = stack.top + bytes.length := rfl

@[simp] theorem byte_append (stack : Stack) (bytes : List UInt8) (position : Nat) :
    (stack.append bytes).byte position = (stack.store stack.top bytes).byte position := rfl

@[simp] theorem capacity_drop (stack : Stack) (count : Nat) :
    (stack.drop count).capacity = stack.capacity := rfl

@[simp] theorem growth_drop (stack : Stack) (count : Nat) :
    (stack.drop count).growth = stack.growth := rfl

@[simp] theorem top_drop (stack : Stack) (count : Nat) :
    (stack.drop count).top = stack.top - count := rfl

@[simp] theorem byte_drop (stack : Stack) (count position : Nat) :
    (stack.drop count).byte position = stack.byte position := rfl

@[simp] theorem load_drop (stack : Stack) (dropped position count : Nat) :
    (stack.drop dropped).load position count = stack.load position count := rfl

@[simp] theorem capacity_reset (stack : Stack) : stack.reset.capacity = stack.capacity := rfl

@[simp] theorem growth_reset (stack : Stack) : stack.reset.growth = stack.growth := rfl

@[simp] theorem top_reset (stack : Stack) : stack.reset.top = 0 := rfl

@[simp] theorem capacity_ofCapacity (capacity : Nat) (growth : Growth) :
    (ofCapacity capacity growth).capacity = capacity := by
  simp [ofCapacity, Stack.capacity]

@[simp] theorem byte_ofCapacity (capacity : Nat) (growth : Growth) (position : Nat) :
    (ofCapacity capacity growth).byte position = 0 := by
  simp [ofCapacity, byte, Array.getElem?_replicate]
  split <;> rfl

/-! ## What is written -/

theorem byte_setByte {value : UInt8} {index : Nat} (written : position < stack.capacity)
    (read : index < stack.capacity) :
    (stack.setByte position value).byte index =
      if index = position then value else stack.byte index := by
  have bound : stack.growth.cell stack.capacity position < stack.buffer.size :=
    stack.growth.cell_lt written
  simp only [byte, capacity_setByte, growth_setByte]
  by_cases same : index = position
  · rw [if_pos same, same]
    simp [setByte, bound]
  · have apart : stack.growth.cell stack.capacity position ≠ stack.growth.cell stack.capacity index :=
      fun equal => same ((stack.growth.cell_inj written read).mp equal).symm
    rw [if_neg same]
    simp [setByte, apart]

/-- The bytes outside of a write stay as they are. -/
theorem byte_store_of_outside {index : Nat} (fits : position + bytes.length ≤ stack.capacity)
    (read : index < stack.capacity) (outside : index < position ∨ position + bytes.length ≤ index) :
    (stack.store position bytes).byte index = stack.byte index := by
  induction bytes generalizing stack position with
  | nil => rfl
  | cons value rest ih =>
    rw [List.length_cons] at fits outside
    rw [store, ih (by rw [capacity_setByte]; omega) (by rw [capacity_setByte]; exact read) (by omega),
      byte_setByte (by omega) read, if_neg (by omega)]

/-- The bytes inside of a write are the written ones. -/
theorem byte_store_add {index : Nat} (fits : position + bytes.length ≤ stack.capacity)
    (inside : index < bytes.length) :
    (stack.store position bytes).byte (position + index) = bytes[index] := by
  induction bytes generalizing stack position index with
  | nil => exact absurd inside (Nat.not_lt_zero index)
  | cons value rest ih =>
    rw [List.length_cons] at fits inside
    cases index with
    | zero =>
      show (stack.store position (value :: rest)).byte position = value
      rw [store, byte_store_of_outside (by rw [capacity_setByte]; omega)
        (by rw [capacity_setByte]; omega) (by omega), byte_setByte (by omega) (by omega), if_pos rfl]
    | succ index =>
      have fitsRest : position + 1 + rest.length ≤ (stack.setByte position value).capacity := by
        rw [capacity_setByte]
        omega
      rw [store, show position + (index + 1) = position + 1 + index by omega,
        ih fitsRest (by omega)]
      rfl

/-- Two stacks that are written to in the same way agree wherever they did, and where they were
written to. -/
theorem byte_store_congr {left right : Stack} {index : Nat}
    (fitsLeft : position + bytes.length ≤ left.capacity)
    (fitsRight : position + bytes.length ≤ right.capacity) (readLeft : index < left.capacity)
    (readRight : index < right.capacity) (known : left.byte index = right.byte index ∨
      position ≤ index ∧ index < position + bytes.length) :
    (left.store position bytes).byte index = (right.store position bytes).byte index := by
  by_cases inside : position ≤ index ∧ index < position + bytes.length
  · obtain ⟨rest, rfl⟩ := Nat.exists_eq_add_of_le inside.1
    rw [byte_store_add fitsLeft (by omega), byte_store_add fitsRight (by omega)]
  · have same : left.byte index = right.byte index := known.resolve_right inside
    rw [byte_store_of_outside fitsLeft readLeft (by omega),
      byte_store_of_outside fitsRight readRight (by omega), same]

/-! ## What is read -/

@[simp] theorem length_load (stack : Stack) (position count : Nat) :
    (stack.load position count).length = count := by
  simp [load]

/-- Reads of the same bytes are the same. -/
theorem load_congr
    (same : ∀ index, position ≤ index → index < position + count →
      stack.byte index = other.byte index) :
    stack.load position count = other.load position count := by
  refine List.map_congr_left fun index inside => ?_
  rw [List.mem_range'_1] at inside
  exact same index inside.1 inside.2

/-- What was written is read back. -/
theorem load_store_self (fits : position + bytes.length ≤ stack.capacity) :
    (stack.store position bytes).load position bytes.length = bytes := by
  refine List.ext_getElem (length_load _ _ _) fun index one two => ?_
  rw [length_load] at one
  simp only [load, List.getElem_map, List.getElem_range', Nat.one_mul]
  exact byte_store_add fits one

/-- A write leaves reads of other bytes alone. -/
theorem load_store_of_disjoint {start : Nat} (fits : position + bytes.length ≤ stack.capacity)
    (read : start + count ≤ stack.capacity)
    (apart : start + count ≤ position ∨ position + bytes.length ≤ start) :
    (stack.store position bytes).load start count = stack.load start count :=
  load_congr fun _ _ _ => byte_store_of_outside fits (by omega) (by omega)

/-- Pushed bytes are read back. -/
theorem load_append_self (fits : stack.top + bytes.length ≤ stack.capacity) :
    (stack.append bytes).load stack.top bytes.length = bytes :=
  load_store_self fits

/-- The bytes below the top do not change when more are pushed. -/
theorem load_append_of_below (fits : stack.top + bytes.length ≤ stack.capacity)
    (below : position + count ≤ stack.top) :
    (stack.append bytes).load position count = stack.load position count :=
  load_store_of_disjoint fits (by omega) (.inl below)

/-! ## Words -/

theorem checkInUse_of_inUse (inUse : position + count ≤ stack.top) :
    stack.checkInUse position count = .ok () :=
  if_pos inUse

theorem checkInUse_of_outOfUse (outOfUse : stack.top < position + count) :
    stack.checkInUse position count = .error (.stackUnderflow count (stack.top - position)) :=
  if_neg (by omega)

theorem readWord_of_inUse (inUse : position + 4 ≤ stack.top) :
    stack.readWord position = .ok (Scalar.decode UInt32 (stack.load position 4)) := by
  rw [readWord, Scalar.width_uint32, checkInUse_of_inUse inUse]
  rfl

theorem readWord_of_outOfUse (outOfUse : stack.top < position + 4) :
    stack.readWord position = .error (.stackUnderflow 4 (stack.top - position)) := by
  rw [readWord, Scalar.width_uint32, checkInUse_of_outOfUse outOfUse]
  rfl

theorem writeWord_of_inUse (value : UInt32) (inUse : position + 4 ≤ stack.top) :
    writeWord position value stack = .ok () (stack.store position (Scalar.encode value)) := by
  rw [writeWord, Scalar.width_uint32, checkInUse_of_inUse inUse]

theorem writeWord_of_outOfUse (value : UInt32) (outOfUse : stack.top < position + 4) :
    writeWord position value stack = .error (.stackUnderflow 4 (stack.top - position)) stack := by
  rw [writeWord, Scalar.width_uint32, checkInUse_of_outOfUse outOfUse]

end Stack

end Tandem

import Tandem.Proofs.Stack.Simulation
import Tandem.Proofs.Stack.Unwinding

/-!
# Stacks of different capacities

A stack with more room behaves as the smaller one does for as long as that one has room
(`Stack.Within.simulation`): the capacity shows only in a push that overflows. In which direction
the two stacks grow, and what is left above their tops, does not matter.
-/

namespace Tandem

/-- A push ran out of room. -/
def Fault.IsOverflow (fault : Fault) : Prop :=
  ∃ requested available, fault = .stackOverflow requested available

namespace Stack

/-- The smaller stack holds the bytes that the larger one holds. -/
structure Within (small large : Stack) : Prop where
  top : small.top = large.top
  fits : small.top ≤ small.capacity
  room : small.capacity ≤ large.capacity
  byte : ∀ position, position < small.top → small.byte position = large.byte position

namespace Within

variable {small large : Stack}

/-- Empty stacks hold the same. -/
theorem reset (room : small.capacity ≤ large.capacity) : Within small.reset large.reset where
  top := rfl
  fits := Nat.zero_le _
  room := room
  byte _ below := absurd below (Nat.not_lt_zero _)

theorem drop (within : Within small large) (count : Nat) :
    Within (small.drop count) (large.drop count) where
  top := by rw [top_drop, top_drop, within.top]
  fits := Nat.le_trans (Nat.sub_le _ _) within.fits
  room := within.room
  byte position below := by
    rw [top_drop] at below
    rw [byte_drop, byte_drop]
    exact within.byte position (by omega)

theorem store (within : Within small large) {position : Nat} {bytes : List UInt8}
    (inUse : position + bytes.length ≤ small.top) :
    Within (small.store position bytes) (large.store position bytes) where
  top := by rw [top_store, top_store, within.top]
  fits := by
    rw [top_store, capacity_store]
    exact within.fits
  room := by
    rw [capacity_store, capacity_store]
    exact within.room
  byte index below := by
    have fits := within.fits
    have room := within.room
    rw [top_store] at below
    exact byte_store_congr (by omega) (by omega) (by omega) (by omega)
      (.inl (within.byte index below))

theorem append (within : Within small large) {bytes : List UInt8}
    (room : bytes.length ≤ small.available) :
    Within (small.append bytes) (large.append bytes) := by
  have fits := within.fits
  have larger := within.room
  have free : small.top + bytes.length ≤ small.capacity := by
    unfold available at room
    omega
  refine ⟨?_, ?_, ?_, fun index below => ?_⟩
  · rw [top_append, top_append, within.top]
  · rwa [top_append, capacity_append]
  · rwa [capacity_append, capacity_append]
  · rw [top_append] at below
    rw [byte_append, byte_append, ← within.top]
    refine byte_store_congr free (by omega) (by omega) (by omega) ?_
    by_cases old : index < small.top
    · exact .inl (within.byte index old)
    · exact .inr ⟨by omega, below⟩

/-- Operations cannot tell a stack from a larger one until it overflows. -/
theorem simulation : Simulation Fault.IsOverflow Within where
  top within := within.top
  load within inUse := load_congr fun index _ _ => within.byte index (by omega)
  store within inUse := within.store inUse
  drop count within := within.drop count
  grow bytes := by
    intro small large within
    rcases Nat.lt_or_ge small.available bytes.length with full | room
    · rw [grow_of_full full]
      exact .waived ⟨_, _, rfl⟩
    · have room' : bytes.length ≤ large.available := by
        have larger := within.room
        have top := within.top
        unfold available at room ⊢
        omega
      rw [grow_of_room room, grow_of_room room']
      exact .ok (within.append room)

end Within

end Stack

end Tandem

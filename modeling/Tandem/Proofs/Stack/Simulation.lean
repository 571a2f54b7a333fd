import Tandem.Proofs.Respects
import Tandem.Proofs.Stack.Cells
import Tandem.Stack.Frame

/-!
# Relations that stack operations keep

A relation between stacks is a simulation if the five things that are ever done to a stack keep it:
looking at the top, reading and writing in-use bytes, dropping bytes and growing by bytes. Every
operation is built from these, so a simulation is kept by all of them, the frame operations
included (`Stack.Simulation.framePush`, `Stack.Simulation.framePop`).

The simulations here are equality and `Stack.Alike`: the same bytes, on stacks that may grow in
different directions.
-/

namespace Tandem

variable {waived : Fault → Prop} {R : Stack → Stack → Prop}

namespace Stack

/-- Push bytes: what pushing a value and reserving zeros have in common. -/
def grow (bytes : List UInt8) : Stack.Action Unit := fun stack =>
  if stack.isOverflow bytes.length then
    .error (.stackOverflow bytes.length stack.available) stack
  else .ok () (stack.append bytes)

theorem grow_of_room {stack : Stack} {bytes : List UInt8} (room : bytes.length ≤ stack.available) :
    grow bytes stack = .ok () (stack.append bytes) := by
  rw [grow, isOverflow, decide_eq_false (by omega), if_neg Bool.false_ne_true]

theorem grow_of_full {stack : Stack} {bytes : List UInt8} (full : stack.available < bytes.length) :
    grow bytes stack = .error (.stackOverflow bytes.length stack.available) stack := by
  rw [grow, isOverflow, decide_eq_true full, if_pos rfl]

theorem push_eq_grow {α : Type} [Scalar α] (value : α) :
    push value = grow (Scalar.encode value) := by
  funext stack
  simp [push, grow]

theorem reserve_eq_grow (count : Nat) : reserve count = grow (List.replicate count 0) := by
  funext stack
  simp [reserve, grow]

/-- A relation that is kept by everything that is done to stacks. -/
structure Simulation (waived : Fault → Prop) (R : Stack → Stack → Prop) : Prop where
  top : ∀ {left right}, R left right → left.top = right.top
  load : ∀ {left right position count}, R left right → position + count ≤ left.top →
    left.load position count = right.load position count
  store : ∀ {left right position} {bytes : List UInt8}, R left right →
    position + bytes.length ≤ left.top → R (left.store position bytes) (right.store position bytes)
  drop : ∀ {left right} (count : Nat), R left right → R (left.drop count) (right.drop count)
  grow : ∀ bytes : List UInt8, Action.Respects waived R (Stack.grow bytes) (Stack.grow bytes)

namespace Simulation

theorem push (simulation : Simulation waived R) {α : Type} [Scalar α] (value : α) :
    Action.Respects waived R (Stack.push value) (Stack.push value) := by
  rw [push_eq_grow]
  exact simulation.grow _

theorem reserve (simulation : Simulation waived R) (count : Nat) :
    Action.Respects waived R (Stack.reserve count) (Stack.reserve count) := by
  rw [reserve_eq_grow]
  exact simulation.grow _

theorem release (simulation : Simulation waived R) (count : Nat) :
    Action.Respects waived R (Stack.release count) (Stack.release count) := by
  intro left right related
  simp only [Stack.release, Stack.isUnderflow, ← simulation.top related]
  by_cases underflow : left.top < count
  · simp only [underflow, decide_true, if_true]
    exact .error related
  · simp only [underflow, decide_false, Bool.false_eq_true, if_false]
    exact .ok (simulation.drop count related)

theorem pop (simulation : Simulation waived R) (α : Type) [Scalar α] :
    Action.Respects waived R (Stack.pop α) (Stack.pop α) := by
  intro left right related
  simp only [Stack.pop, Stack.isUnderflow, ← simulation.top related]
  by_cases underflow : left.top < Scalar.width α
  · simp only [underflow, decide_true, if_true]
    exact .error related
  · simp only [underflow, decide_false, Bool.false_eq_true, if_false]
    rw [simulation.load related (by omega)]
    exact .ok (simulation.drop _ related)

theorem readWord (simulation : Simulation waived R) {left right : Stack} (related : R left right)
    (position : Nat) : left.readWord position = right.readWord position := by
  have sameTop := simulation.top related
  rcases Nat.lt_or_ge left.top (position + 4) with outOfUse | inUse
  · rw [readWord_of_outOfUse outOfUse, readWord_of_outOfUse (sameTop ▸ outOfUse), sameTop]
  · rw [readWord_of_inUse inUse, readWord_of_inUse (sameTop ▸ inUse), simulation.load related inUse]

theorem writeWord (simulation : Simulation waived R) (position : Nat) (value : UInt32) :
    Action.Respects waived R (Stack.writeWord position value) (Stack.writeWord position value) := by
  intro left right related
  have sameTop := simulation.top related
  rcases Nat.lt_or_ge left.top (position + 4) with outOfUse | inUse
  · rw [writeWord_of_outOfUse value outOfUse, writeWord_of_outOfUse value (sameTop ▸ outOfUse),
      sameTop]
    exact .error related
  · rw [writeWord_of_inUse value inUse, writeWord_of_inUse value (sameTop ▸ inUse)]
    exact .ok (simulation.store related (by rwa [Scalar.length_encode]))

/-! ## Frames -/

theorem framePush (simulation : Simulation waived R) (pointer : Nat) (returnAddress : UInt64) :
    Action.Respects waived R (Frame.push pointer returnAddress)
      (Frame.push pointer returnAddress) := by
  refine .bind (simulation.push _) fun _ => .bind (simulation.push _) fun _ => .get ?_
  intro left right related
  rw [simulation.top related]
  exact .ok related

theorem framePop (simulation : Simulation waived R) (pointer count imageSize offset : Nat) :
    Action.Respects waived R (Frame.pop pointer count imageSize offset)
      (Frame.pop pointer count imageSize offset) := by
  refine .get fun left right related => ?_
  rw [simulation.top related]
  refine Action.Respects.bind (.ensure Iff.rfl _) (fun _ => ?_) left right related
  refine .bind (simulation.release count) fun _ => .get fun left right related => ?_
  rw [simulation.top related]
  refine Action.Respects.bind (.ensure Iff.rfl _) (fun _ => ?_) left right related
  refine .bind (simulation.pop UInt64) fun returnAddress => .bind (simulation.pop UInt64) fun saved =>
    .get fun left right related => ?_
  rw [simulation.top related]
  exact Action.Respects.bind (.ensure Iff.rfl _)
    (fun _ => .bind (.ensure Iff.rfl _) fun _ => .pure _) left right related

/-- Equality is a simulation. -/
theorem eq : Simulation waived Eq where
  top related := by rw [related]
  load related _ := by rw [related]
  store related _ := by rw [related]
  drop _ related := by rw [related]
  grow bytes := by
    rintro left - rfl
    rcases Nat.lt_or_ge left.available bytes.length with full | room
    · rw [grow_of_full full]
      exact .error rfl
    · rw [grow_of_room room]
      exact .ok rfl

end Simulation

/-! ## The same bytes -/

/-- Two stacks of one capacity that hold the same bytes below their tops. The directions in which
they grow need not be the same. With `stale` they also hold the same bytes above the top, where no
operation looks. -/
structure Alike (stale : Prop) (capacity : Nat) (leftGrowth rightGrowth : Growth)
    (left right : Stack) : Prop where
  leftCapacity : left.capacity = capacity
  rightCapacity : right.capacity = capacity
  leftGrowth : left.growth = leftGrowth
  rightGrowth : right.growth = rightGrowth
  top : left.top = right.top
  fits : left.top ≤ capacity
  byte : ∀ position, position < capacity → position < left.top ∨ stale →
    left.byte position = right.byte position

namespace Alike

variable {stale : Prop} {capacity : Nat} {leftGrowth rightGrowth : Growth} {left right : Stack}

theorem ofCapacity (stale : Prop) (capacity : Nat) (leftGrowth rightGrowth : Growth) :
    Alike stale capacity leftGrowth rightGrowth (Stack.ofCapacity capacity leftGrowth)
      (Stack.ofCapacity capacity rightGrowth) where
  leftCapacity := capacity_ofCapacity _ _
  rightCapacity := capacity_ofCapacity _ _
  leftGrowth := rfl
  rightGrowth := rfl
  top := rfl
  fits := Nat.zero_le _
  byte position _ _ := by rw [byte_ofCapacity, byte_ofCapacity]

/-- Bytes below a common top, or stale bytes of two stacks that agree on them, stay the same when
both stacks are written to in the same way. -/
theorem byte_store (alike : Alike stale capacity leftGrowth rightGrowth left right)
    {position index : Nat} {bytes : List UInt8} (fits : position + bytes.length ≤ capacity)
    (read : index < capacity) (known : left.byte index = right.byte index ∨
      position ≤ index ∧ index < position + bytes.length) :
    (left.store position bytes).byte index = (right.store position bytes).byte index := by
  have leftCapacity := alike.leftCapacity
  have rightCapacity := alike.rightCapacity
  exact byte_store_congr (by omega) (by omega) (by omega) (by omega) known

theorem append (alike : Alike stale capacity leftGrowth rightGrowth left right)
    {bytes : List UInt8} (fits : left.top + bytes.length ≤ capacity) :
    Alike stale capacity leftGrowth rightGrowth (left.append bytes) (right.append bytes) where
  leftCapacity := by rw [capacity_append, alike.leftCapacity]
  rightCapacity := by rw [capacity_append, alike.rightCapacity]
  leftGrowth := by rw [growth_append, alike.leftGrowth]
  rightGrowth := by rw [growth_append, alike.rightGrowth]
  top := by rw [top_append, top_append, alike.top]
  fits := by rwa [top_append]
  byte index read known := by
    rw [top_append] at known
    have stored : (left.store left.top bytes).byte index = (right.store left.top bytes).byte index := by
      refine alike.byte_store fits read ?_
      rcases known with inUse | stale
      · by_cases old : index < left.top
        · exact .inl (alike.byte index read (.inl old))
        · exact .inr ⟨by omega, inUse⟩
      · exact .inl (alike.byte index read (.inr stale))
    rw [byte_append, byte_append, ← alike.top]
    exact stored

/-- Stacks with the same bytes in use cannot be told apart by any operation. -/
theorem simulation (stale : Prop) (capacity : Nat) (leftGrowth rightGrowth : Growth) :
    Simulation waived (Alike stale capacity leftGrowth rightGrowth) where
  top alike := alike.top
  load alike inUse :=
    load_congr fun index _ _ => alike.byte index (by have := alike.fits; omega) (.inl (by omega))
  store {left right position bytes} alike inUse :=
    { leftCapacity := by rw [capacity_store, alike.leftCapacity]
      rightCapacity := by rw [capacity_store, alike.rightCapacity]
      leftGrowth := by rw [growth_store, alike.leftGrowth]
      rightGrowth := by rw [growth_store, alike.rightGrowth]
      top := by rw [top_store, top_store, alike.top]
      fits := by rw [top_store]; exact alike.fits
      byte := fun index read known => by
        rw [top_store] at known
        exact alike.byte_store (Nat.le_trans inUse alike.fits) read
          (.inl (alike.byte index read known)) }
  drop {left right} count alike :=
    { leftCapacity := alike.leftCapacity
      rightCapacity := alike.rightCapacity
      leftGrowth := alike.leftGrowth
      rightGrowth := alike.rightGrowth
      top := by rw [top_drop, top_drop, alike.top]
      fits := by rw [top_drop]; have := alike.fits; omega
      byte := fun index read known => by
        rw [top_drop] at known
        exact alike.byte index read (known.imp_left fun below => by omega) }
  grow bytes := by
    intro left right alike
    have sameRoom : left.available = right.available := by
      rw [available, available, alike.leftCapacity, alike.rightCapacity, alike.top]
    rcases Nat.lt_or_ge left.available bytes.length with full | room
    · rw [grow_of_full full, grow_of_full (sameRoom ▸ full), sameRoom]
      exact .error alike
    · rw [grow_of_room room, grow_of_room (sameRoom ▸ room)]
      have fits := alike.fits
      have capacity := alike.leftCapacity
      exact .ok (alike.append (by simp only [available] at room; omega))

end Alike

end Stack

end Tandem

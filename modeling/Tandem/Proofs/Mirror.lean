import Tandem.Proofs.Threaded.Twins
import Tandem.Threaded.Linking

/-!
# Growth directions

Two machines of one size whose stacks grow in opposite directions run in the same way: the byte at
every position is the same, so their buffers are mirror images of each other at every moment, and
nothing else tells them apart (`mirrors`). The byte above the top counts too: what a failed or
finished instruction left there is the same on both sides.
-/

namespace Tandem

namespace Stack

/-- The cell of a position holds its byte. -/
theorem getElem?_cell {stack : Stack} {position : Nat} (inside : position < stack.capacity) :
    stack.buffer[stack.growth.cell stack.capacity position]? = some (stack.byte position) := by
  have bound : stack.growth.cell stack.capacity position < stack.buffer.size :=
    stack.growth.cell_lt inside
  rw [byte, Array.getD_eq_getD_getElem?, Array.getElem?_eq_getElem bound, Option.getD_some]

/-- Two stacks with equally many bytes in use whose buffers are mirror images. -/
structure Mirrored (up down : Stack) : Prop where
  upward : up.growth = .upward
  downward : down.growth = .downward
  capacity : up.capacity = down.capacity
  top : up.top = down.top
  cells : ∀ position, position < up.capacity →
    up.buffer[position]? = down.buffer[down.capacity - 1 - position]?

/-- Stacks that grow in opposite directions hold the same bytes exactly in mirrored buffers. -/
theorem Alike.mirrored {capacity : Nat} {up down : Stack}
    (alike : Alike True capacity .upward .downward up down) : Mirrored up down where
  upward := alike.leftGrowth
  downward := alike.rightGrowth
  capacity := alike.leftCapacity.trans alike.rightCapacity.symm
  top := alike.top
  cells position inside := by
    have inside' : position < down.capacity := by
      rw [alike.rightCapacity, ← alike.leftCapacity]
      exact inside
    have upCell := getElem?_cell inside
    have downCell := getElem?_cell inside'
    rw [alike.leftGrowth, Growth.cell] at upCell
    rw [alike.rightGrowth, Growth.cell] at downCell
    rw [upCell, downCell, alike.byte position (alike.leftCapacity ▸ inside) (.inr trivial)]

end Stack

namespace Machine

/-- Two machines that differ only in the directions of their stacks. -/
structure Mirrored (up down : Machine) : Prop where
  stack : Stack.Mirrored up.stack down.stack
  continuations : Stack.Mirrored up.continuations down.continuations
  registers : up.registers = down.registers
  cursor : up.cursor = down.cursor
  frame : up.frame = down.frame
  fused : up.fused = down.fused
  stats : up.stats = down.stats
  trace : up.trace = down.trace

/-- Machines of one size whose stacks hold the same bytes and grow in opposite directions. -/
abbrev Opposed (stackSize : Nat) : Machine → Machine → Prop :=
  Alike True stackSize .upward .downward

theorem Twins.mirrored {stackSize : Nat} {up down : Machine} (opposed : Opposed stackSize up down) :
    Mirrored up down where
  stack := opposed.stack.mirrored
  continuations := opposed.surroundings.continuations.mirrored
  registers := opposed.registers
  cursor := opposed.cursor
  frame := opposed.frame
  fused := opposed.fused
  stats := opposed.stats
  trace := opposed.surroundings.trace

end Machine

/-- Two threads at one operation, on mirrored machines. -/
structure Threaded.Mirrored (up down : Thread) : Prop where
  position : up.position = down.position
  machine : Machine.Mirrored up.machine down.machine

/-- The runs of an image on two machines mirror each other, from the preparation on: they are
prepared or refused alike, they reach the same rounds in mirrored states, and they end with one
result in mirrored states, if they end at all. -/
structure Mirrors (image : Image) (argument : UInt32) (up down : Machine) : Prop where
  prepare : Action.Related Fault.NoneWaived Machine.Mirrored
    (Machine.prepare image argument up) (Machine.prepare image argument down)
  sequential {upReady downReady : Machine} :
    Machine.prepare image argument up = .ok () upReady →
    Machine.prepare image argument down = .ok () downReady →
    (∀ n, Option.Rel Machine.Mirrored (iteration (Sequential.step image) n upReady)
      (iteration (Sequential.step image) n downReady)) ∧
    ∀ fuel, Option.Rel (Outcome.Related Machine.Mirrored) (Sequential.run image fuel upReady)
      (Sequential.run image fuel downReady)
  threaded {upReady downReady upEntered downEntered : Machine} :
    Machine.prepare image argument up = .ok () upReady →
    Machine.prepare image argument down = .ok () downReady →
    Machine.onContinuations (Stack.push Threaded.rootId) upReady = .ok () upEntered →
    Machine.onContinuations (Stack.push Threaded.rootId) downReady = .ok () downEntered →
    (∀ n, Option.Rel Threaded.Mirrored
      (iteration (Threaded.step image (Threaded.Code.ofImage image)) n ⟨0, upEntered⟩)
      (iteration (Threaded.step image (Threaded.Code.ofImage image)) n ⟨0, downEntered⟩)) ∧
    ∀ fuel, Option.Rel (Outcome.Related Machine.Mirrored)
      (Threaded.run image (Threaded.Code.ofImage image) fuel upReady)
      (Threaded.run image (Threaded.Code.ofImage image) fuel downReady)

variable {stackSize : Nat} {image : Image} {argument : UInt32} {up down : Machine}

theorem Threaded.Twins.mirrored {up down : Thread}
    (twins : Threaded.Alike True stackSize .upward .downward up down) :
    Threaded.Mirrored up down :=
  ⟨twins.position, twins.machine.mirrored⟩

theorem sequential_mirrored (opposed : Machine.Opposed stackSize up down) :
    (∀ n, Option.Rel Machine.Mirrored (iteration (Sequential.step image) n up)
      (iteration (Sequential.step image) n down)) ∧
    ∀ fuel, Option.Rel (Outcome.Related Machine.Mirrored) (Sequential.run image fuel up)
      (Sequential.run image fuel down) := by
  have lockstep : Lockstep (Sequential.step image) (Sequential.step image)
      (Machine.Opposed stackSize) (Machine.Opposed stackSize) :=
    Sequential.lockstep_alike image
  constructor
  · intro n
    exact (lockstep.iteration opposed n).mono fun _ _ => Machine.Twins.mirrored
  · intro fuel
    exact (lockstep.iterate opposed fuel).mono fun _ _ => .mono fun _ _ => Machine.Twins.mirrored

theorem threaded_mirrored {code : Threaded.Code} {upEntered downEntered : Machine}
    (opposed : Machine.Opposed stackSize up down)
    (upEnters : Machine.onContinuations (Stack.push Threaded.rootId) up = .ok () upEntered)
    (downEnters : Machine.onContinuations (Stack.push Threaded.rootId) down = .ok () downEntered) :
    (∀ n, Option.Rel Threaded.Mirrored (iteration (Threaded.step image code) n ⟨0, upEntered⟩)
      (iteration (Threaded.step image code) n ⟨0, downEntered⟩)) ∧
    ∀ fuel, Option.Rel (Outcome.Related Machine.Mirrored) (Threaded.run image code fuel up)
      (Threaded.run image code fuel down) := by
  constructor
  · intro n
    have pushed : Action.Respects Fault.NoneWaived (Machine.Opposed stackSize)
        (Machine.onContinuations (Stack.push Threaded.rootId))
        (Machine.onContinuations (Stack.push Threaded.rootId)) :=
      Threaded.onContinuations_twins ((Stack.Alike.simulation True _ _ _).push Threaded.rootId)
    obtain ⟨entered, downEnters', twins⟩ := pushed.of_ok opposed upEnters
    obtain rfl : entered = downEntered := by
      rw [downEnters'] at downEnters
      cases downEnters
      rfl
    have start : Threaded.Alike True stackSize .upward .downward ⟨0, upEntered⟩ ⟨0, entered⟩ :=
      ⟨rfl, twins⟩
    have rounds := (Threaded.lockstep_alike image code).iteration start n
    exact rounds.mono fun _ _ => Threaded.Twins.mirrored
  · intro fuel
    exact (Threaded.run_alike image code opposed fuel).mono fun _ _ => .mono fun _ _ => Machine.Twins.mirrored

/-- Machines that are prepared to opposed machines mirror each other. -/
theorem mirrors_of_related
    (prepared : Action.Related Fault.NoneWaived (Machine.Opposed stackSize)
      (Machine.prepare image argument up) (Machine.prepare image argument down)) :
    Mirrors image argument up down where
  prepare := prepared.mono fun _ _ => Machine.Twins.mirrored
  sequential upPrepared downPrepared := by
    rw [upPrepared, downPrepared] at prepared
    cases prepared with
    | ok opposed => exact sequential_mirrored opposed
  threaded upPrepared downPrepared upEnters downEnters := by
    rw [upPrepared, downPrepared] at prepared
    cases prepared with
    | ok opposed => exact threaded_mirrored opposed upEnters downEnters

theorem reset_ofCapacity (capacity : Nat) (growth : Growth) :
    (Stack.ofCapacity capacity growth).reset = Stack.ofCapacity capacity growth := rfl

/-- Fresh machines of one size that grow in opposite directions run in the same way. -/
theorem mirrors (image : Image) (argument : UInt32) (stackSize : Nat)
    (trace : Option (List Record)) :
    Mirrors image argument { Machine.ofStackSize stackSize .upward with trace }
      { Machine.ofStackSize stackSize .downward with trace } := by
  have stack := Stack.Alike.ofCapacity True stackSize .upward .downward
  have continuations :=
    Stack.Alike.ofCapacity True (Machine.continuationCapacity stackSize) .upward .downward
  rw [← reset_ofCapacity, ← reset_ofCapacity stackSize .downward] at stack
  rw [← reset_ofCapacity, ← reset_ofCapacity _ .downward] at continuations
  have prepared : Action.Related Fault.NoneWaived (Machine.Opposed stackSize)
      (Machine.prepare image argument { Machine.ofStackSize stackSize .upward with trace })
      (Machine.prepare image argument { Machine.ofStackSize stackSize .downward with trace }) := by
    refine Machine.prepare_related (Stack.Alike.simulation _ _ _ _) ?_ ?_ ?_ ?_ image argument
    · exact stack
    · exact continuations
    · rfl
    · exact fun _ => ⟨rfl, rfl⟩
  exact mirrors_of_related prepared

end Tandem

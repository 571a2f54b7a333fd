import Tandem.Proofs.Stack.Unwinding

/-!
# Stacks of words

A stack that is only pushed to and popped by whole words, as the continuation stack is, holds a list
of them. Only the bytes below the top matter (`Stack.Holds.congr`), so what is left behind by pops
does not.
-/

namespace Tandem.Stack

variable {words : List UInt32} {stack other : Stack} {value : UInt32}

/-- The words on a stack that holds nothing else, the newest first. -/
def Holds : (words : List UInt32) → (stack : Stack) → Prop
  | [], stack => stack.top = 0
  | word :: rest, stack =>
    4 ≤ stack.top ∧ Scalar.decode UInt32 (stack.load (stack.top - 4) 4) = word ∧
      Holds rest (stack.drop 4)

theorem Holds.top (holds : Holds words stack) : stack.top = 4 * words.length := by
  induction words generalizing stack with
  | nil => exact holds
  | cons word rest ih =>
    obtain ⟨inUse, -, below⟩ := holds
    have := ih below
    rw [top_drop] at this
    rw [List.length_cons]
    omega

theorem Holds.congr (sameTop : stack.top = other.top)
    (sameBytes : ∀ position, position < stack.top → stack.byte position = other.byte position)
    (holds : Holds words stack) : Holds words other := by
  induction words generalizing stack other with
  | nil => exact sameTop.symm.trans holds
  | cons word rest ih =>
    obtain ⟨inUse, last, below⟩ := holds
    refine ⟨sameTop ▸ inUse, ?_, ih ?_ (fun position under => ?_) below⟩
    · rw [← last, ← sameTop]
      exact congrArg _ (load_congr fun index _ under => (sameBytes index (by omega)).symm)
    · rw [top_drop, top_drop, sameTop]
    · rw [top_drop] at under
      exact sameBytes position (by omega)

theorem Holds.reset (stack : Stack) : Holds [] stack.reset := rfl

/-- Pushing a word puts it in front of the list. -/
theorem Holds.push (holds : Holds words stack) (done : push value stack = .ok () other) :
    Holds (value :: words) other := by
  obtain ⟨room, rfl⟩ := push_eq_ok done
  rw [Scalar.width_uint32, available] at room
  have fits : stack.top + (Scalar.encode value).length ≤ stack.capacity := by
    rw [Scalar.length_encode, Scalar.width_uint32]
    omega
  have sameTop : ((stack.append (Scalar.encode value)).drop 4).top = stack.top := by simp
  refine ⟨by simp, ?_, holds.congr sameTop.symm fun position under => ?_⟩
  · have last := load_append_self fits
    rw [Scalar.length_encode, Scalar.width_uint32] at last
    rw [top_append, Scalar.length_encode, Scalar.width_uint32, Nat.add_sub_cancel, last,
      Scalar.decode_encode]
  · exact (byte_store_of_outside fits (by omega) (.inl under)).symm

/-- Popping a word takes the first one off the list. -/
theorem Holds.pop (holds : Holds (value :: words) stack) :
    pop UInt32 stack = .ok value (stack.drop 4) ∧ Holds words (stack.drop 4) := by
  obtain ⟨inUse, last, below⟩ := holds
  refine ⟨?_, below⟩
  rw [pop_of_inUse (by rwa [Scalar.width_uint32]), Scalar.width_uint32, last]

/-- A word can be pushed exactly if the list is shorter than the stack has room for words. -/
theorem Holds.available (holds : Holds words stack) :
    stack.available = stack.capacity - 4 * words.length := by
  rw [Stack.available, holds.top]

end Tandem.Stack

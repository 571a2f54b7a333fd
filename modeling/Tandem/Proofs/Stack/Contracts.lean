import Tandem.Proofs.Stack.Bounds
import Tandem.Proofs.Stack.Unwinding

/-!
# Contracts of stack operations

What the operations of a stack do to its contents where they succeed, for every stack of a given
size that holds these contents. The cells above the top, and the direction in which the stack grows,
have no part in it.

`Action.Achieves` is the form of these contracts. They are put together along the ways to combine
actions, as the actions are.
-/

namespace Tandem

variable {σ α β : Type} {P Q R : σ → Prop}

/-- From every state that `before` allows, the action succeeds with `value` and leaves a state that
`after` allows. -/
def Action.Achieves (before : σ → Prop) (action : Action σ α) (value : α) (after : σ → Prop) : Prop :=
  ∀ state, before state → ∃ later, action state = .ok value later ∧ after later

namespace Action.Achieves

theorem pure (value : α) : Achieves P (pure value) value P :=
  fun state holds => ⟨state, rfl, holds⟩

theorem bind {first : Action σ α} {rest : α → Action σ β} {middle : α} {value : β}
    (firstPart : Achieves P first middle Q) (secondPart : Achieves Q (rest middle) value R) :
    Achieves P (first >>= rest) value R := by
  intro state holds
  obtain ⟨next, begun, holds⟩ := firstPart state holds
  obtain ⟨later, ended, holds⟩ := secondPart next holds
  exact ⟨later, bind_eq_ok.mpr ⟨middle, next, begun, ended⟩, holds⟩

/-- An action that looks at its state first is considered at each state. -/
theorem get {rest : σ → Action σ β} {value : β}
    (achieves : ∀ state, P state → Achieves P (rest state) value Q) :
    Achieves P (MonadState.get >>= rest) value Q :=
  fun state holds => achieves state holds state holds

theorem modify {change : σ → σ} (keeps : ∀ state, P state → Q (change state)) :
    Achieves P (modify change) () Q :=
  fun state holds => ⟨change state, rfl, keeps state holds⟩

theorem ensure {condition : Prop} [Decidable condition] (holds : condition) (fault : Fault) :
    Achieves P (ensure condition fault) () P :=
  fun state allowed => ⟨state, if_pos holds, allowed⟩

end Action.Achieves

namespace Stack

variable [Scalar α] {size : Nat} {contents before behind : List UInt8} {stack : Stack}

/-- A stack of the given size that holds these bytes. -/
structure Shows (size : Nat) (contents : List UInt8) (stack : Stack) : Prop where
  bounded : Bounded size stack
  contents : stack.contents = contents

theorem Shows.top (shown : Shows size contents stack) : stack.top = contents.length := by
  rw [← length_contents, shown.contents]

theorem Shows.available (shown : Shows size contents stack) :
    stack.available = size - contents.length := by
  rw [Stack.available, shown.bounded.capacity, shown.top]

theorem grow_achieves {bytes : List UInt8} (room : contents.length + bytes.length ≤ size) :
    Action.Achieves (Shows size contents) (grow bytes) () (Shows size (contents ++ bytes)) := by
  intro stack shown
  have available := shown.available
  have fits : stack.top + bytes.length ≤ stack.capacity := by
    rw [shown.top, shown.bounded.capacity]
    exact room
  refine ⟨_, grow_of_room (by omega), shown.bounded.append (by omega), ?_⟩
  rw [contents_append fits, shown.contents]

theorem push_achieves {value : α} (room : contents.length + Scalar.width α ≤ size) :
    Action.Achieves (Shows size contents) (push value) ()
      (Shows size (contents ++ Scalar.encode value)) := by
  rw [push_eq_grow]
  exact grow_achieves (by rwa [Scalar.length_encode])

theorem reserve_achieves {count : Nat} (room : contents.length + count ≤ size) :
    Action.Achieves (Shows size contents) (reserve count) ()
      (Shows size (contents ++ List.replicate count 0)) := by
  rw [reserve_eq_grow]
  exact grow_achieves (by rwa [List.length_replicate])

theorem Shows.drop (shown : Shows size (contents ++ behind) stack) :
    Shows size contents (stack.drop behind.length) := by
  refine ⟨shown.bounded.drop _, ?_⟩
  rw [contents_drop, shown.contents, shown.top, List.length_append, Nat.add_sub_cancel,
    List.take_left]

theorem release_achieves (behind : List UInt8) :
    Action.Achieves (Shows size (contents ++ behind)) (release behind.length) ()
      (Shows size contents) := by
  intro stack shown
  have top := shown.top
  rw [List.length_append] at top
  refine ⟨stack.drop behind.length, ?_, shown.drop⟩
  rw [release, isUnderflow, if_neg (by simpa using by omega)]

theorem pop_achieves (value : α) :
    Action.Achieves (Shows size (contents ++ Scalar.encode value)) (pop α) value
      (Shows size contents) := by
  intro stack shown
  have top := shown.top
  rw [List.length_append, Scalar.length_encode] at top
  have dropped := shown.drop
  rw [Scalar.length_encode] at dropped
  refine ⟨_, ?_, dropped⟩
  rw [pop_of_inUse (by omega), load_of_inUse (by omega), shown.contents,
    show stack.top - Scalar.width α = contents.length by omega, List.drop_left,
    List.take_of_length_le (Nat.le_of_eq (Scalar.length_encode value)), Scalar.decode_encode]

/-! ## Words inside -/

theorem Shows.readWord {value : UInt32}
    (shown : Shows size (before ++ Scalar.encode value ++ behind) stack) :
    stack.readWord before.length = .ok value := by
  have top := shown.top
  rw [List.length_append, List.length_append, Scalar.length_encode, Scalar.width_uint32] at top
  have inUse : before.length + 4 ≤ stack.top := by omega
  have length : (Scalar.encode value).length = 4 := Scalar.length_encode value
  rw [readWord_of_inUse inUse, load_of_inUse inUse, shown.contents, List.append_assoc,
    List.drop_left, List.take_left' length, Scalar.decode_encode]

theorem writeWord_achieves {old : UInt32} (value : UInt32) :
    Action.Achieves (Shows size (before ++ Scalar.encode old ++ behind))
      (writeWord before.length value) ()
      (Shows size (before ++ Scalar.encode value ++ behind)) := by
  intro stack shown
  have top := shown.top
  rw [List.length_append, List.length_append, Scalar.length_encode, Scalar.width_uint32] at top
  have inUse : before.length + 4 ≤ stack.top := by omega
  refine ⟨_, writeWord_of_inUse value inUse, shown.bounded.store _ _, ?_⟩
  have fits : stack.top ≤ stack.capacity := by
    rw [shown.bounded.capacity]
    exact shown.bounded.top
  have length : (before ++ Scalar.encode old).length = before.length + (Scalar.encode value).length := by
    simp
  rw [contents_store (by rwa [Scalar.length_encode]) fits, shown.contents, List.drop_left' length,
    List.append_assoc before (Scalar.encode old), List.take_left]

end Stack

/-! ## Frames -/

namespace Frame

variable {size : Nat} {contents locals : List UInt8}

/-- The bytes of a frame header. -/
def header (caller : Nat) (returnAddress : UInt64) : List UInt8 :=
  Scalar.encode caller.toUInt64 ++ Scalar.encode returnAddress

@[simp] theorem length_header (caller : Nat) (returnAddress : UInt64) :
    (header caller returnAddress).length = headerSize := by
  simp [header, headerSize]

theorem push_achieves {caller : Nat} {returnAddress : UInt64}
    (room : contents.length + headerSize ≤ size) :
    Action.Achieves (Stack.Shows size contents) (push caller returnAddress)
      (contents.length + headerSize) (Stack.Shows size (contents ++ header caller returnAddress)) := by
  rw [headerSize] at room
  have first : contents.length + Scalar.width UInt64 ≤ size := by
    rw [Scalar.width_uint64]
    omega
  have second : (contents ++ Scalar.encode caller.toUInt64).length + Scalar.width UInt64 ≤ size := by
    rw [List.length_append, Scalar.length_encode, Scalar.width_uint64]
    omega
  rw [header, ← List.append_assoc]
  refine .bind (Stack.push_achieves first) (.bind (Stack.push_achieves second) (.get ?_))
  intro stack shown
  have top : stack.top = contents.length + headerSize := by
    rw [shown.top]
    simp [headerSize]
  rw [top]
  exact .pure _

/-- A frame whose header is in place is unwound, down to what lay below the header. -/
theorem pop_achieves {caller imageSize offset : Nat} {returnAddress : UInt64}
    (small : contents.length < UInt64.size) (low : caller ≤ contents.length)
    (returns : returnAddress = noCaller ∨ returnAddress.toNat < imageSize) :
    Action.Achieves (Stack.Shows size (contents ++ header caller returnAddress ++ locals))
      (pop (contents.length + headerSize) locals.length imageSize offset) ⟨caller, returnAddress⟩
      (Stack.Shows size contents) := by
  have saved : caller.toUInt64.toNat = caller := by
    rw [Nat.toUInt64, UInt64.toNat_ofNat']
    exact Nat.mod_eq_of_lt (Nat.lt_of_le_of_lt low small)
  refine .get fun stack shown => ?_
  have top := shown.top
  rw [List.length_append, List.length_append, length_header] at top
  refine .bind (.ensure (by omega) _) (.bind (Stack.release_achieves locals) (.get ?_))
  intro stack shown
  have top := shown.top
  rw [List.length_append, length_header] at top
  rw [header, ← List.append_assoc]
  refine .bind (.ensure top _) (.bind (Stack.pop_achieves returnAddress)
    (.bind (Stack.pop_achieves caller.toUInt64) (.get ?_)))
  intro stack shown
  have base := shown.top
  refine .bind (.ensure (by omega) _) (.bind (.ensure returns _) ?_)
  rw [saved]
  exact .pure _

end Frame

end Tandem

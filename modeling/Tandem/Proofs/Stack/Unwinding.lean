import Tandem.Proofs.Respects
import Tandem.Proofs.Stack.Simulation

/-!
# Successful stack operations

What a stack operation that succeeded found and did, read backwards from its success. The result
of an unwinding comes from the sixteen bytes below the frame pointer, and nothing of the frame is
left on the stack (`Frame.pop_eq_ok`). An unwinding that fails breaks off in one of six places, and
what it had taken off the stack by then stays off (`Frame.pop_breaks`); if there is a header at the
frame pointer, it fails over the first of four checks (`Frame.pop_eq_error`).
-/

namespace Tandem

namespace Stack

variable {α : Type} [Scalar α] {stack after : Stack}

theorem push_of_room (value : α) (room : Scalar.width α ≤ stack.available) :
    push value stack = .ok () (stack.append (Scalar.encode value)) := by
  rw [push_eq_grow, grow_of_room (by rwa [Scalar.length_encode])]

theorem push_of_full (value : α) (full : stack.available < Scalar.width α) :
    push value stack = .error (.stackOverflow (Scalar.width α) stack.available) stack := by
  rw [push_eq_grow, grow_of_full (by rwa [Scalar.length_encode]), Scalar.length_encode]

theorem drop_drop (stack : Stack) (first second : Nat) :
    (stack.drop first).drop second = stack.drop (first + second) := by
  rw [drop, drop, drop, Nat.sub_sub]

theorem grow_eq_ok {bytes : List UInt8} (done : grow bytes stack = .ok () after) :
    bytes.length ≤ stack.available ∧ after = stack.append bytes := by
  rcases Nat.lt_or_ge stack.available bytes.length with full | room
  · rw [grow_of_full full] at done
    cases done
  · rw [grow_of_room room] at done
    cases done
    exact ⟨room, rfl⟩

theorem push_eq_ok {value : α} (done : push value stack = .ok () after) :
    Scalar.width α ≤ stack.available ∧ after = stack.append (Scalar.encode value) := by
  rw [push_eq_grow] at done
  simpa only [Scalar.length_encode] using grow_eq_ok done

theorem release_eq_ok {count : Nat} (done : release count stack = .ok () after) :
    count ≤ stack.top ∧ after = stack.drop count := by
  rw [release, isUnderflow] at done
  by_cases underflow : stack.top < count
  · rw [if_pos (decide_eq_true underflow)] at done
    cases done
  · rw [if_neg (by simpa using underflow)] at done
    cases done
    exact ⟨by omega, rfl⟩

theorem grow_eq_error {bytes : List UInt8} {fault : Fault}
    (failed : grow bytes stack = .error fault after) :
    stack.available < bytes.length ∧
      fault = .stackOverflow bytes.length stack.available ∧ after = stack := by
  rcases Nat.lt_or_ge stack.available bytes.length with full | room
  · rw [grow_of_full full] at failed
    cases failed
    exact ⟨full, rfl, rfl⟩
  · rw [grow_of_room room] at failed
    cases failed

theorem push_eq_error {value : α} {fault : Fault}
    (failed : push value stack = .error fault after) :
    stack.available < Scalar.width α ∧
      fault = .stackOverflow (Scalar.width α) stack.available ∧ after = stack := by
  rw [push_eq_grow] at failed
  simpa only [Scalar.length_encode] using grow_eq_error failed

theorem release_eq_error {count : Nat} {fault : Fault}
    (failed : release count stack = .error fault after) : stack.top < count := by
  rw [release, isUnderflow] at failed
  by_cases underflow : stack.top < count
  · exact underflow
  · rw [if_neg (by simpa using underflow)] at failed
    cases failed

theorem pop_of_inUse (inUse : Scalar.width α ≤ stack.top) :
    pop α stack = .ok (Scalar.decode α (stack.load (stack.top - Scalar.width α) (Scalar.width α)))
      (stack.drop (Scalar.width α)) := by
  rw [pop, isUnderflow, if_neg (by simpa using inUse)]

theorem pop_eq_ok {value : α} (done : pop α stack = .ok value after) :
    Scalar.width α ≤ stack.top ∧
      value = Scalar.decode α (stack.load (stack.top - Scalar.width α) (Scalar.width α)) ∧
      after = stack.drop (Scalar.width α) := by
  rcases Nat.lt_or_ge stack.top (Scalar.width α) with underflow | inUse
  · rw [pop, isUnderflow, if_pos (decide_eq_true underflow)] at done
    cases done
  · rw [pop_of_inUse inUse] at done
    cases done
    exact ⟨inUse, rfl, rfl⟩

theorem pop_eq_error {fault : Fault} (failed : pop α stack = .error fault after) :
    stack.top < Scalar.width α ∧
      fault = .stackUnderflow (Scalar.width α) stack.top ∧ after = stack := by
  rcases Nat.lt_or_ge stack.top (Scalar.width α) with underflow | inUse
  · rw [pop, isUnderflow, if_pos (decide_eq_true underflow)] at failed
    cases failed
    exact ⟨underflow, rfl, rfl⟩
  · rw [pop_of_inUse inUse] at failed
    cases failed

end Stack

theorem Action.ensure_eq_ok {σ : Type} {condition : Prop} [Decidable condition] {fault : Fault}
    {state after : σ} (done : Action.ensure condition fault state = .ok () after) :
    condition ∧ state = after := by
  by_cases holds : condition
  · rw [ensure, if_pos holds] at done
    cases done
    exact ⟨holds, rfl⟩
  · rw [ensure, if_neg holds] at done
    cases done

theorem Action.ensure_eq_error {σ : Type} {condition : Prop} [Decidable condition]
    {fault failure : Fault} {state after : σ}
    (failed : Action.ensure condition fault state = .error failure after) :
    ¬ condition ∧ failure = fault ∧ after = state := by
  by_cases holds : condition
  · rw [ensure, if_pos holds] at failed
    cases failed
  · rw [ensure, if_neg holds] at failed
    cases failed
    exact ⟨holds, rfl, rfl⟩

namespace Frame

variable {stack after : Stack} {pointer : Nat}

/-- Where a slot stands: locals four bytes apart from the frame pointer on and below the top, and
arguments four bytes apart down from the header. -/
theorem slotPosition_eq_some_iff {top position : Nat} {slot : Slot} :
    slotPosition pointer top slot = some position ↔
      (0 ≤ slot.toInt ∧ (position : Int) = pointer + 4 * slot.toInt ∧ position + 4 ≤ top) ∨
      (slot.toInt < 0 ∧ (position : Int) = pointer - 16 + 4 * slot.toInt) := by
  unfold slotPosition headerSize slotSize
  cases slot.toInt with
  | ofNat index =>
    dsimp only
    split
    · simp only [Option.some.injEq, Int.ofNat_eq_natCast]
      omega
    · simp only [reduceCtorEq, false_iff, Int.ofNat_eq_natCast]
      omega
  | negSucc index =>
    dsimp only
    split
    · simp only [Option.some.injEq]
      omega
    · simp only [reduceCtorEq, false_iff]
      omega

/-- The two words of a frame header at a frame pointer. -/
structure Header (stack : Stack) (pointer saved : Nat) (returnAddress : UInt64) : Prop where
  fits : headerSize ≤ pointer
  saved : (Scalar.decode UInt64 (stack.load (pointer - 16) 8)).toNat = saved
  returnAddress : Scalar.decode UInt64 (stack.load (pointer - 8) 8) = returnAddress

/-- A frame that can be unwound after the release of `count` bytes of locals. -/
structure Unwinds (stack : Stack) (pointer count imageSize : Nat) (unwound : Unwound) : Prop where
  locals : stack.top = pointer + count
  header : Header stack pointer unwound.pointer unwound.returnAddress
  pointer_le : unwound.pointer ≤ pointer - headerSize
  returns : unwound.returnAddress = noCaller ∨ unwound.returnAddress.toNat < imageSize

/-- The stack with a frame header on top. -/
def pushed (stack : Stack) (pointer : Nat) (returnAddress : UInt64) : Stack :=
  (stack.append (Scalar.encode pointer.toUInt64)).append (Scalar.encode returnAddress)

@[simp] theorem top_pushed (stack : Stack) (pointer : Nat) (returnAddress : UInt64) :
    (pushed stack pointer returnAddress).top = stack.top + headerSize := by
  simp [pushed, headerSize]

@[simp] theorem capacity_pushed (stack : Stack) (pointer : Nat) (returnAddress : UInt64) :
    (pushed stack pointer returnAddress).capacity = stack.capacity := by
  simp [pushed]

theorem push_of_room {returnAddress : UInt64} (room : headerSize ≤ stack.available) :
    push pointer returnAddress stack =
      .ok (stack.top + headerSize) (pushed stack pointer returnAddress) := by
  rw [headerSize, Stack.available] at room
  rw [push, Action.bind_of_ok (Stack.push_of_room _ _), Action.bind_of_ok (Stack.push_of_room _ _)]
  · show EStateM.Result.ok (pushed stack pointer returnAddress).top _ = _
    rw [top_pushed]
    rfl
  · simp only [Scalar.width_uint64, Stack.available, Stack.capacity_append, Stack.top_append,
      Scalar.length_encode]
    omega
  · rw [Scalar.width_uint64, Stack.available]
    omega

/-- A header that was pushed lies on top of what was there. -/
theorem push_eq_ok {returnAddress : UInt64} {frame : Nat}
    (done : push pointer returnAddress stack = .ok frame after) :
    headerSize ≤ stack.available ∧ frame = stack.top + headerSize ∧
      after = pushed stack pointer returnAddress := by
  simp only [push, Action.bind_eq_ok, Action.get_bind] at done
  obtain ⟨_, lower, first, _, upper, second, result⟩ := done
  obtain ⟨room, rfl⟩ := Stack.push_eq_ok first
  obtain ⟨room', rfl⟩ := Stack.push_eq_ok second
  cases result
  simp only [Scalar.width_uint64, Stack.available, Stack.capacity_append, Stack.top_append,
    Scalar.length_encode] at room room' ⊢
  refine ⟨?_, rfl, rfl⟩
  unfold headerSize
  omega

/-- A header that cannot be pushed has room for its first word or for nothing. -/
theorem push_eq_error {returnAddress : UInt64} {fault : Fault}
    (failed : push pointer returnAddress stack = .error fault after) :
    stack.available < 8 ∧ fault = .stackOverflow 8 stack.available ∧ after = stack ∨
      8 ≤ stack.available ∧ stack.available < headerSize ∧
        fault = .stackOverflow 8 (stack.available - 8) ∧
        after = stack.append (Scalar.encode pointer.toUInt64) := by
  rcases Action.bind_eq_error.mp failed with first | ⟨_, _, first, rest⟩
  · exact .inl (Stack.push_eq_error first)
  obtain ⟨room, rfl⟩ := Stack.push_eq_ok first
  rcases Action.bind_eq_error.mp rest with second | ⟨_, _, -, never⟩
  · obtain ⟨short, rfl, rfl⟩ := Stack.push_eq_error second
    have left : (stack.append (Scalar.encode pointer.toUInt64)).available =
        stack.available - 8 := by
      simp only [Stack.available, Stack.capacity_append, Stack.top_append, Scalar.length_encode,
        Scalar.width_uint64, Nat.sub_sub]
    rw [left, Scalar.width_uint64] at short ⊢
    exact .inr ⟨room, by rw [headerSize]; omega, rfl, rfl⟩
  · cases never

/-- What an unwinding found. -/
theorem pop_eq_ok {count imageSize offset : Nat} {unwound : Unwound}
    (done : pop pointer count imageSize offset stack = .ok unwound after) :
    Unwinds stack pointer count imageSize unwound ∧ after = stack.drop (count + headerSize) := by
  simp only [pop, Action.bind_eq_ok, Action.get_bind] at done
  obtain ⟨_, _, enough, _, _, release, _, _, noLocals, returnAddress, _, upper, saved, _, lower,
    _, _, below, _, _, known, result⟩ := done
  obtain ⟨releasable, rfl⟩ := Action.ensure_eq_ok enough
  obtain ⟨inUse, rfl⟩ := Stack.release_eq_ok release
  obtain ⟨atFrame, rfl⟩ := Action.ensure_eq_ok noLocals
  obtain ⟨inUse', address, rfl⟩ := Stack.pop_eq_ok upper
  obtain ⟨inUse'', found, rfl⟩ := Stack.pop_eq_ok lower
  obtain ⟨inside, rfl⟩ := Action.ensure_eq_ok below
  obtain ⟨returns, rfl⟩ := Action.ensure_eq_ok known
  cases result
  simp only [Scalar.width_uint64, Stack.top_drop, Stack.load_drop] at *
  have upperAt : stack.top - count - 8 = pointer - 8 := by omega
  have lowerAt : stack.top - count - 8 - 8 = pointer - 16 := by omega
  rw [upperAt] at address
  rw [lowerAt] at found inside
  refine ⟨⟨by omega, ⟨?_, by rw [found], address.symm⟩, inside, returns⟩, ?_⟩
  · unfold headerSize
    omega
  · simp only [Stack.drop, headerSize, Nat.sub_sub]

/-- Where an unwinding breaks off: the fault and the stack that it leaves. -/
inductive Breaks (stack : Stack) (pointer count imageSize offset : Nat) : Fault → Stack → Prop
  | pastFrame (past : stack.top - pointer < count) :
    Breaks stack pointer count imageSize offset
      (.malformedFrame offset (.releasePastFrame count (stack.top - pointer))) stack
  | locals (enough : count ≤ stack.top - pointer) (left : stack.top - count ≠ pointer) :
    Breaks stack pointer count imageSize offset
      (.malformedFrame offset (.localsRemaining (stack.top - count - pointer))) (stack.drop count)
  | noAddress (locals : stack.top = pointer + count) (short : pointer < 8) :
    Breaks stack pointer count imageSize offset (.stackUnderflow 8 pointer) (stack.drop count)
  | noPointer (locals : stack.top = pointer + count) (address : 8 ≤ pointer)
    (short : pointer < headerSize) :
    Breaks stack pointer count imageSize offset (.stackUnderflow 8 (pointer - 8))
      (stack.drop (count + 8))
  | savedPointer {word returnAddress : UInt64} (locals : stack.top = pointer + count)
    (header : Header stack pointer word.toNat returnAddress)
    (above : pointer - headerSize < word.toNat) :
    Breaks stack pointer count imageSize offset (.malformedFrame offset (.savedFramePointer word))
      (stack.drop (count + headerSize))
  | returnAddress {saved : Nat} {returnAddress : UInt64} (locals : stack.top = pointer + count)
    (header : Header stack pointer saved returnAddress) (below : saved ≤ pointer - headerSize)
    (inner : returnAddress ≠ noCaller) (outside : imageSize ≤ returnAddress.toNat) :
    Breaks stack pointer count imageSize offset
      (.malformedFrame offset (.returnAddress returnAddress)) (stack.drop (count + headerSize))

/-- An unwinding that fails breaks off in one of these places. -/
theorem pop_breaks {count imageSize offset : Nat} {fault : Fault}
    (failed : pop pointer count imageSize offset stack = .error fault after) :
    Breaks stack pointer count imageSize offset fault after := by
  rw [pop, Action.get_bind] at failed
  rcases Action.bind_eq_error.mp failed with unchecked | ⟨_, _, checked, failed⟩
  · obtain ⟨past, rfl, rfl⟩ := Action.ensure_eq_error unchecked
    exact .pastFrame (by omega)
  obtain ⟨enough, rfl⟩ := Action.ensure_eq_ok checked
  rcases Action.bind_eq_error.mp failed with short | ⟨_, _, released, failed⟩
  · have := Stack.release_eq_error short
    omega
  obtain ⟨-, rfl⟩ := Stack.release_eq_ok released
  rw [Action.get_bind] at failed
  rcases Action.bind_eq_error.mp failed with unchecked | ⟨_, _, checked', failed⟩
  · obtain ⟨left, rfl, rfl⟩ := Action.ensure_eq_error unchecked
    exact .locals enough left
  obtain ⟨atFrame, rfl⟩ := Action.ensure_eq_ok checked'
  have atFrame : stack.top - count = pointer := atFrame
  have locals : stack.top = pointer + count := by omega
  -- The stack ends with the header now, if there is one.
  rcases Action.bind_eq_error.mp failed with refused | ⟨address, _, popped, failed⟩
  · obtain ⟨short, rfl, rfl⟩ := Stack.pop_eq_error refused
    rw [Stack.top_drop, Scalar.width_uint64, atFrame] at *
    exact .noAddress locals short
  obtain ⟨inUse, upper, rfl⟩ := Stack.pop_eq_ok popped
  simp only [Scalar.width_uint64, Stack.top_drop, Stack.load_drop, atFrame] at inUse upper
  rcases Action.bind_eq_error.mp failed with refused | ⟨word, _, popped', failed⟩
  · obtain ⟨short, rfl, rfl⟩ := Stack.pop_eq_error refused
    simp only [Scalar.width_uint64, Stack.top_drop, atFrame] at short ⊢
    rw [Stack.drop_drop]
    exact .noPointer locals inUse (by rw [headerSize]; omega)
  obtain ⟨inUse', lower, rfl⟩ := Stack.pop_eq_ok popped'
  simp only [Scalar.width_uint64, Stack.top_drop, Stack.load_drop, atFrame] at inUse' lower
  rw [show pointer - 8 - 8 = pointer - 16 by omega] at lower
  have header : Header stack pointer word.toNat address :=
    ⟨by rw [headerSize]; omega, by rw [lower], upper.symm⟩
  have whole : ((stack.drop count).drop 8).drop 8 = stack.drop (count + headerSize) := by
    rw [Stack.drop_drop, Stack.drop_drop, headerSize]
  have base : pointer - 8 - 8 = pointer - headerSize := by rw [headerSize, Nat.sub_sub]
  rw [Action.get_bind] at failed
  rcases Action.bind_eq_error.mp failed with unchecked | ⟨_, _, checked, failed⟩
  · obtain ⟨above, rfl, rfl⟩ := Action.ensure_eq_error unchecked
    simp only [Scalar.width_uint64, Stack.top_drop, atFrame, base, Nat.not_le] at above
    rw [Scalar.width_uint64, whole]
    exact .savedPointer locals header above
  obtain ⟨below, rfl⟩ := Action.ensure_eq_ok checked
  simp only [Scalar.width_uint64, Stack.top_drop, atFrame, base] at below
  rcases Action.bind_eq_error.mp failed with unchecked | ⟨_, _, -, failed⟩
  · obtain ⟨unknown, rfl, rfl⟩ := Action.ensure_eq_error unchecked
    obtain ⟨inner, outside⟩ := not_or.mp unknown
    rw [Scalar.width_uint64, whole]
    exact .returnAddress locals header below inner (Nat.not_lt.mp outside)
  · cases failed

/-- Why a frame cannot be unwound, given what its header says. -/
inductive Refused (stack : Stack) (pointer count imageSize saved : Nat) (returnAddress : UInt64) :
    FrameFault → Prop
  | pastFrame (past : stack.top - pointer < count) :
    Refused stack pointer count imageSize saved returnAddress
      (.releasePastFrame count (stack.top - pointer))
  | locals (enough : count ≤ stack.top - pointer) (left : stack.top - count ≠ pointer) :
    Refused stack pointer count imageSize saved returnAddress
      (.localsRemaining (stack.top - count - pointer))
  | savedPointer {word : UInt64} (value : word.toNat = saved) (above : pointer - headerSize < saved) :
    Refused stack pointer count imageSize saved returnAddress (.savedFramePointer word)
  | returnAddress (inner : returnAddress ≠ noCaller) (outside : imageSize ≤ returnAddress.toNat) :
    Refused stack pointer count imageSize saved returnAddress (.returnAddress returnAddress)

/-- An unwinding that finds a header fails over one of its checks. -/
theorem pop_eq_error {count imageSize offset saved : Nat} {returnAddress : UInt64} {fault : Fault}
    (header : Header stack pointer saved returnAddress)
    (failed : pop pointer count imageSize offset stack = .error fault after) :
    ∃ cause, fault = .malformedFrame offset cause ∧
      Refused stack pointer count imageSize saved returnAddress cause := by
  have fits := header.fits
  cases pop_breaks failed with
  | pastFrame past => exact ⟨_, rfl, .pastFrame past⟩
  | locals enough left => exact ⟨_, rfl, .locals enough left⟩
  | noAddress _ short =>
    rw [headerSize] at fits
    omega
  | noPointer _ _ short => omega
  | savedPointer _ found above =>
    have value := found.saved.symm.trans header.saved
    exact ⟨_, rfl, .savedPointer value (value ▸ above)⟩
  | returnAddress _ found _ inner outside =>
    obtain rfl := found.returnAddress.symm.trans header.returnAddress
    exact ⟨_, rfl, .returnAddress inner outside⟩

end Frame

end Tandem

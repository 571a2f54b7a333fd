import Tandem.Proofs.Stack.Headers
import Tandem.Proofs.Stack.Reference

/-!
# Frames are unwound as they were pushed

An unwinding checks a stack that it lowers between its checks. What it comes to can be read off the
stack that it starts with all the same: of the objections to a frame, in their order, the first one
that applies is raised, and the frame is unwound if there is none (`Frame.pop_eq`). So the frames
that are unwound are the well-formed ones (`Frame.Unwinds`), and a frame that was pushed is one of
them, whatever locals were pushed on top of it in the meantime
(`Frame.pop_exact_and_undoes_push`).
-/

namespace Tandem

/-! ## Stacks with something on top -/

/-- A stack with `count` more bytes on top of another one, which is as it was below them. -/
structure Stack.Extends (stack : Stack) (count : Nat) (after : Stack) : Prop where
  top : after.top = stack.top + count
  capacity : after.capacity = stack.capacity
  growth : after.growth = stack.growth
  below : ∀ index < stack.top, after.byte index = stack.byte index

namespace Stack.Extends

variable {stack middle after : Stack} {first second : Nat}

theorem refl (stack : Stack) : Extends stack 0 stack :=
  ⟨rfl, rfl, rfl, fun _ _ => rfl⟩

theorem trans (lower : Extends stack first middle) (upper : Extends middle second after) :
    Extends stack (first + second) after where
  top := by rw [upper.top, lower.top, Nat.add_assoc]
  capacity := upper.capacity.trans lower.capacity
  growth := upper.growth.trans lower.growth
  below index inside := by
    have := lower.top
    rw [upper.below index (by omega), lower.below index inside]

theorem append {bytes : List UInt8} (room : bytes.length ≤ stack.available)
    (inside : stack.top ≤ stack.capacity) : Extends stack bytes.length (stack.append bytes) where
  top := Stack.top_append ..
  capacity := Stack.capacity_append ..
  growth := Stack.growth_append ..
  below index below := by
    rw [Stack.available] at room
    rw [Stack.byte_append, Stack.byte_store_of_outside (by omega) (by omega) (.inl below)]

/-- The stack of before is back when what is on top of it is taken off. -/
theorem drop (extended : Extends stack first after) : Extends stack 0 (after.drop first) where
  top := by rw [Stack.top_drop, extended.top, Nat.add_sub_cancel, Nat.add_zero]
  capacity := extended.capacity
  growth := extended.growth
  below := extended.below

end Stack.Extends

namespace Frame

variable {stack after : Stack} {pointer count imageSize offset : Nat} {unwound : Unwound}

/-! ## Objections to a frame -/

/-- The word at the place of the saved frame pointer. -/
def savedWord (stack : Stack) (pointer : Nat) : UInt64 :=
  Scalar.decode UInt64 (stack.load (pointer - 16) 8)

/-- The word at the place of the return address. -/
def addressWord (stack : Stack) (pointer : Nat) : UInt64 :=
  Scalar.decode UInt64 (stack.load (pointer - 8) 8)

/-- What can be wrong with a frame that is to be unwound. -/
inductive Objection where
  /-- The locals to release reach below the frame pointer. -/
  | pastFrame
  /-- The top is not at the frame pointer once they are released. -/
  | locals
  /-- Nothing can lie below the frame pointer but a part of a return address. -/
  | noAddress
  /-- Nothing can lie below the return address but a part of a saved pointer. -/
  | noPointer
  /-- The saved pointer points above the header. -/
  | savedPointer
  /-- The return address lies outside of the image and is not the engine's mark. -/
  | returnAddress
  deriving Repr, DecidableEq, Inhabited

namespace Objection

/-- All objections, in the order in which they are looked at. -/
def all : List Objection :=
  [pastFrame, locals, noAddress, noPointer, savedPointer, returnAddress]

/-- When an objection applies to the frame at `pointer`. All of it is said of the stack that the
unwinding starts with. -/
def Applies (stack : Stack) (pointer count imageSize : Nat) : Objection → Prop
  | pastFrame => stack.top - pointer < count
  | locals => stack.top - count ≠ pointer
  | noAddress => pointer < 8
  | noPointer => pointer < headerSize
  | savedPointer => pointer - headerSize < (savedWord stack pointer).toNat
  | returnAddress =>
    addressWord stack pointer ≠ noCaller ∧ imageSize ≤ (addressWord stack pointer).toNat

instance (stack : Stack) (pointer count imageSize : Nat) :
    DecidablePred (Applies stack pointer count imageSize)
  | pastFrame => inferInstanceAs (Decidable (_ < _))
  | locals => inferInstanceAs (Decidable (_ ≠ _))
  | noAddress => inferInstanceAs (Decidable (_ < _))
  | noPointer => inferInstanceAs (Decidable (_ < _))
  | savedPointer => inferInstanceAs (Decidable (_ < _))
  | returnAddress => inferInstanceAs (Decidable (_ ∧ _))

/-- The fault that tells of an objection. -/
def fault (stack : Stack) (pointer count offset : Nat) : Objection → Fault
  | pastFrame => .malformedFrame offset (.releasePastFrame count (stack.top - pointer))
  | locals => .malformedFrame offset (.localsRemaining (stack.top - count - pointer))
  | noAddress => .stackUnderflow 8 pointer
  | noPointer => .stackUnderflow 8 (pointer - 8)
  | savedPointer => .malformedFrame offset (.savedFramePointer (savedWord stack pointer))
  | returnAddress => .malformedFrame offset (.returnAddress (addressWord stack pointer))

/-- Where the top is left when an objection is raised. -/
def top (stack : Stack) (pointer count : Nat) : Objection → Nat
  | pastFrame => stack.top
  | locals => stack.top - count
  | noAddress => pointer
  | noPointer => pointer - 8
  | savedPointer | returnAddress => pointer - headerSize

/-- The first objection that applies. -/
def first? (stack : Stack) (pointer count imageSize : Nat) : Option Objection :=
  all.find? fun objection => decide (Applies stack pointer count imageSize objection)

end Objection

/-- The stack that an unwinding leaves. -/
theorem Unwinds.drop (unwinds : Unwinds stack pointer count imageSize unwound) :
    stack.drop (count + headerSize) = { stack with top := pointer - headerSize } := by
  rw [Stack.drop, unwinds.locals, Nat.add_comm pointer, Nat.add_sub_add_left]

theorem Unwinds.objections (unwinds : Unwinds stack pointer count imageSize unwound) :
    Objection.first? stack pointer count imageSize = none := by
  have locals := unwinds.locals
  have fits := unwinds.header.fits
  have saved : (savedWord stack pointer).toNat = unwound.pointer := unwinds.header.saved
  have address : addressWord stack pointer = unwound.returnAddress := unwinds.header.returnAddress
  refine List.find?_eq_none.mpr fun objection _ => ?_
  rw [decide_eq_true_eq]
  cases objection <;> unfold Objection.Applies
  case pastFrame => omega
  case locals => omega
  case noAddress =>
    rw [headerSize] at fits
    omega
  case noPointer => omega
  case savedPointer =>
    rw [saved]
    exact Nat.not_lt.mpr unwinds.pointer_le
  case returnAddress =>
    rw [address]
    rintro ⟨inner, outside⟩
    rcases unwinds.returns with engine | inside
    · exact inner engine
    · omega

/-- An objection is the first one if it applies and those before it do not. -/
theorem Objection.first?_eq_some {objection : Objection} (before : List Objection)
    {behind : List Objection} (split : all = before ++ objection :: behind)
    (applies : objection.Applies stack pointer count imageSize)
    (not : ∀ earlier ∈ before, ¬ earlier.Applies stack pointer count imageSize) :
    first? stack pointer count imageSize = some objection :=
  List.find?_eq_some_iff_append.mpr ⟨decide_eq_true applies, before, behind, split,
    fun earlier member => by simpa using not earlier member⟩

/-- Where an unwinding breaks off, the first objection is raised. -/
theorem Breaks.raised {fault : Fault}
    (breaks : Breaks stack pointer count imageSize offset fault after) :
    ∃ objection, Objection.first? stack pointer count imageSize = some objection ∧
      fault = objection.fault stack pointer count offset ∧
      after = { stack with top := objection.top stack pointer count } := by
  have lowered : ∀ {taken top : Nat}, stack.top - taken = top →
      stack.drop taken = { stack with top } := fun equal => equal ▸ rfl
  cases breaks with
  | pastFrame past =>
    refine ⟨.pastFrame, Objection.first?_eq_some [] rfl past ?_, rfl, rfl⟩
    exact List.forall_mem_nil _
  | locals enough left =>
    refine ⟨.locals, Objection.first?_eq_some [.pastFrame] rfl left ?_, rfl, rfl⟩
    simpa only [List.forall_mem_singleton, Objection.Applies, Nat.not_lt] using enough
  | noAddress locals short =>
    refine ⟨.noAddress, Objection.first?_eq_some [.pastFrame, .locals] rfl short ?_, rfl,
      lowered (show _ = pointer by omega)⟩
    simp only [List.forall_mem_cons, List.not_mem_nil, false_implies, implies_true, and_true,
      Objection.Applies]
    omega
  | noPointer locals address short =>
    refine ⟨.noPointer, Objection.first?_eq_some [.pastFrame, .locals, .noAddress] rfl short ?_, rfl,
      lowered (show _ = pointer - 8 by omega)⟩
    simp only [List.forall_mem_cons, List.not_mem_nil, false_implies, implies_true, and_true,
      Objection.Applies]
    omega
  | @savedPointer word _ locals header above =>
    have fits := header.fits
    have found : savedWord stack pointer = word := UInt64.toNat_inj.mp header.saved
    subst found
    refine ⟨.savedPointer, Objection.first?_eq_some
      [.pastFrame, .locals, .noAddress, .noPointer] rfl above ?_, rfl,
      lowered (show _ = pointer - headerSize by omega)⟩
    simp only [List.forall_mem_cons, List.not_mem_nil, false_implies, implies_true, and_true,
      Objection.Applies, headerSize] at fits ⊢
    omega
  | @returnAddress _ address locals header below inner outside =>
    have fits := header.fits
    have found : addressWord stack pointer = address := header.returnAddress
    have saved : (savedWord stack pointer).toNat = _ := header.saved
    subst found
    refine ⟨.returnAddress, Objection.first?_eq_some
      [.pastFrame, .locals, .noAddress, .noPointer, .savedPointer] rfl ⟨inner, outside⟩ ?_, rfl,
      lowered (show _ = pointer - headerSize by omega)⟩
    simp only [List.forall_mem_cons, List.not_mem_nil, false_implies, implies_true, and_true,
      Objection.Applies, headerSize] at fits below ⊢
    omega

/-- What an unwinding comes to, said of the stack that it starts with. -/
theorem pop_eq (stack : Stack) (pointer count imageSize offset : Nat) :
    pop pointer count imageSize offset stack =
      match Objection.first? stack pointer count imageSize with
      | none => .ok ⟨(savedWord stack pointer).toNat, addressWord stack pointer⟩
          { stack with top := pointer - headerSize }
      | some objection => .error (objection.fault stack pointer count offset)
          { stack with top := objection.top stack pointer count } := by
  cases popped : pop pointer count imageSize offset stack with
  | ok unwound after =>
    obtain ⟨unwinds, rfl⟩ := pop_eq_ok popped
    rw [unwinds.objections, unwinds.drop, savedWord, addressWord, unwinds.header.saved,
      unwinds.header.returnAddress]
  | error fault after =>
    obtain ⟨objection, first, rfl, rfl⟩ := (pop_breaks popped).raised
    rw [first]

/-- The frames that are unwound are the well-formed ones. -/
theorem pop_eq_ok_iff : pop pointer count imageSize offset stack = .ok unwound after ↔
    Unwinds stack pointer count imageSize unwound ∧
      after = { stack with top := pointer - headerSize } := by
  constructor
  · intro done
    obtain ⟨unwinds, rfl⟩ := pop_eq_ok done
    exact ⟨unwinds, unwinds.drop⟩
  · rintro ⟨unwinds, rfl⟩
    rw [pop_eq, unwinds.objections, savedWord, addressWord, unwinds.header.saved,
      unwinds.header.returnAddress]

/-- An unwinding fails over the first objection to the frame. -/
theorem pop_eq_error_iff {fault : Fault} :
    pop pointer count imageSize offset stack = .error fault after ↔
      ∃ objection, Objection.first? stack pointer count imageSize = some objection ∧
        fault = objection.fault stack pointer count offset ∧
        after = { stack with top := objection.top stack pointer count } := by
  constructor
  · exact fun failed => (pop_breaks failed).raised
  · rintro ⟨objection, first, rfl, rfl⟩
    rw [pop_eq, first]

/-! ## Frames with locals -/

/-- What a callee puts on top of its frame header: a value, or room for more. -/
inductive Local where
  | value (kind : Stack.Kind) (content : kind.Value)
  | room (count : Nat)

/-- The bytes of a local. -/
def Local.bytes : Local → List UInt8
  | .value _ content => Scalar.encode content
  | .room count => List.replicate count 0

/-- Put a local on top. -/
def Local.push : Local → Stack.Action Unit
  | .value _ content => Stack.push content
  | .room count => Stack.reserve count

/-- Put locals on top, one after the other. -/
def pushLocals : List Local → Stack.Action Unit
  | [] => pure ()
  | first :: rest => do
    first.push
    pushLocals rest

/-- The bytes of locals. -/
def localsSize (locals : List Local) : Nat := (locals.flatMap Local.bytes).length

theorem Local.push_eq_grow (item : Local) : item.push = Stack.grow item.bytes := by
  cases item with
  | value kind content => exact Stack.push_eq_grow content
  | room count => exact Stack.reserve_eq_grow count

/-- Locals that there is room for leave what is below them alone. -/
theorem pushLocals_of_room (stack : Stack) (locals : List Local)
    (room : localsSize locals ≤ stack.available) (inside : stack.top ≤ stack.capacity) :
    ∃ after, pushLocals locals stack = .ok () after ∧
      Stack.Extends stack (localsSize locals) after := by
  induction locals generalizing stack with
  | nil => exact ⟨stack, rfl, .refl stack⟩
  | cons first rest ih =>
    have size : localsSize (first :: rest) = first.bytes.length + localsSize rest := by
      rw [localsSize, List.flatMap_cons, List.length_append, localsSize]
    rw [size] at room ⊢
    have lower : Stack.Extends stack first.bytes.length (stack.append first.bytes) :=
      .append (by omega) inside
    have top := lower.top
    have capacity := lower.capacity
    have left : (stack.append first.bytes).available = stack.available - first.bytes.length := by
      rw [Stack.available, top, capacity, Stack.available, Nat.sub_sub]
    have available : stack.available = stack.capacity - stack.top := rfl
    obtain ⟨after, done, upper⟩ :=
      ih (stack.append first.bytes) (by omega) (by omega)
    refine ⟨after, ?_, lower.trans upper⟩
    rw [pushLocals, Local.push_eq_grow, Action.bind_of_ok (Stack.grow_of_room (by omega)), done]

theorem extends_pushed (caller : Nat) (returnAddress : UInt64)
    (room : headerSize ≤ stack.available) :
    Stack.Extends stack headerSize (pushed stack caller returnAddress) :=
  ⟨top_pushed .., capacity_pushed .., by rw [pushed, Stack.growth_append, Stack.growth_append],
    fun _ below => byte_pushed room below⟩

/-- Push a frame header, put locals on top of it and unwind the frame with all of them. -/
def pushAndPop (caller : Nat) (returnAddress : UInt64) (locals : List Local)
    (imageSize offset : Nat) : Stack.Action Unwound := do
  let frame ← push caller returnAddress
  pushLocals locals
  pop frame (localsSize locals) imageSize offset

/-- A frame that was pushed is unwound to what it was pushed with. -/
theorem pop_undoes_push {caller : Nat} {returnAddress : UInt64} {locals : List Local}
    (word : caller < UInt64.size) (low : caller ≤ stack.top)
    (room : headerSize + localsSize locals ≤ stack.available)
    (returns : returnAddress = noCaller ∨ returnAddress.toNat < imageSize) :
    ∃ after, pushAndPop caller returnAddress locals imageSize offset stack =
        .ok ⟨caller, returnAddress⟩ after ∧ Stack.Extends stack 0 after := by
  have available : stack.available = stack.capacity - stack.top := rfl
  have free : headerSize ≤ stack.available := by omega
  have lower := extends_pushed caller returnAddress free
  have top := lower.top
  have capacity := lower.capacity
  have left : (pushed stack caller returnAddress).available = stack.available - headerSize := by
    rw [Stack.available, top, capacity, Stack.available, Nat.sub_sub]
  obtain ⟨filled, done, upper⟩ := pushLocals_of_room (pushed stack caller returnAddress)
    locals (by omega) (by rw [headerSize] at *; omega)
  -- The locals lie above the header, so that it can still be read.
  have header : Header filled (stack.top + headerSize) caller returnAddress :=
    (header_pushed word free).congr fun index _ inside => (upper.below index (by omega)).symm
  have unwinds : Unwinds filled (stack.top + headerSize) (localsSize locals) imageSize
      ⟨caller, returnAddress⟩ := by
    refine ⟨?_, header, ?_, returns⟩
    · rw [upper.top, top]
    · rw [Nat.add_sub_cancel]
      exact low
  have back := (lower.trans upper).drop
  rw [Nat.add_comm headerSize, unwinds.drop] at back
  refine ⟨_, ?_, back⟩
  rw [pushAndPop, Action.bind_of_ok (push_of_room free), Action.bind_of_ok done]
  exact pop_eq_ok_iff.mpr ⟨unwinds, rfl⟩

/-- Exactly the well-formed frames are unwound: to the two words of their header, with the top below
it and every byte as it was. Any other frame is refused over the first objection to it, with the top
where that objection leaves it. A frame that was pushed, with its caller's frame not above it and a
return address that is the engine's mark or lies inside of the image, is unwound to what it was
pushed with, whatever locals were put on top of it, and the stack is as it was before. -/
theorem pop_exact_and_undoes_push :
    (∀ (stack : Stack) (pointer count imageSize offset : Nat),
      (∀ unwound after, pop pointer count imageSize offset stack = .ok unwound after ↔
        Unwinds stack pointer count imageSize unwound ∧
          after = { stack with top := pointer - headerSize }) ∧
      ∀ fault after, pop pointer count imageSize offset stack = .error fault after ↔
        ∃ objection, Objection.first? stack pointer count imageSize = some objection ∧
          fault = objection.fault stack pointer count offset ∧
          after = { stack with top := objection.top stack pointer count }) ∧
    ∀ (stack : Stack) (caller : Nat) (returnAddress : UInt64) (locals : List Local)
      (imageSize offset : Nat), caller < UInt64.size → caller ≤ stack.top →
      headerSize + localsSize locals ≤ stack.available →
      (returnAddress = noCaller ∨ returnAddress.toNat < imageSize) →
      ∃ after, pushAndPop caller returnAddress locals imageSize offset stack =
          .ok ⟨caller, returnAddress⟩ after ∧ Stack.Extends stack 0 after :=
  ⟨fun _ _ _ _ _ => ⟨fun _ _ => pop_eq_ok_iff, fun _ _ => pop_eq_error_iff⟩,
    fun _ _ _ _ _ _ word low room returns => pop_undoes_push word low room returns⟩

/-- A stack that grows downward, with the argument and the frame of the engine on it. -/
def entered : Stack :=
  pushed ((Stack.ofCapacity 64 .downward).append (Scalar.encode (7 : UInt32))) 0 noCaller

/-- A call from the engine's frame that leaves a word and four bytes of room behind is unwound; with
less released, it is refused over what remains. -/
theorem entered_call_unwound :
    (∃ after, pushAndPop 20 9 [.value .word (5 : UInt32), .room 4] 11 3 entered =
        .ok ⟨20, 9⟩ after ∧ Stack.Extends entered 0 after) ∧
      pop 20 8 11 3 (entered.append [1, 2, 3, 4, 5, 6, 7, 8, 9]) =
        .error (.malformedFrame 3 (.localsRemaining 1))
          { entered.append [1, 2, 3, 4, 5, 6, 7, 8, 9] with top := 21 } :=
  ⟨pop_exact_and_undoes_push.2 entered 20 9 [.value .word (5 : UInt32), .room 4] 11 3
      (by decide) (by decide) (by decide +kernel) (.inr (by decide)),
    ((pop_exact_and_undoes_push.1 (entered.append [1, 2, 3, 4, 5, 6, 7, 8, 9]) 20 8 11 3).2 _ _).mpr
      ⟨.locals, by decide, rfl, rfl⟩⟩

end Frame

end Tandem

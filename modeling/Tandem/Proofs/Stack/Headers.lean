import Tandem.Proofs.Stack.Unwinding

/-!
# Chains of frame headers

The headers of the outstanding calls lie on the operand stack in the order of the calls, each with
the frame pointer of its caller, down to the engine's own frame. The chain depends on nothing but the
bytes of the headers (`Frame.Chain.congr`), and it bounds how many calls can be outstanding
(`Frame.Chain.length_le`). The saved frame pointers alone are enough for that (`Frame.Linked`).
-/

namespace Tandem.Frame

variable {stack other : Stack} {pointer saved saved' : Nat} {address address' : UInt64}

/-! ## One header -/

/-- A header is what its sixteen bytes say. -/
theorem Header.congr (header : Header stack pointer saved address)
    (same : ∀ index, pointer - headerSize ≤ index → index < pointer →
      stack.byte index = other.byte index) :
    Header other pointer saved address := by
  have fits := header.fits
  rw [headerSize] at fits same
  refine ⟨header.fits, ?_, ?_⟩
  · rw [← header.saved]
    congr 2
    exact Stack.load_congr fun index low high => (same index low (by omega)).symm
  · rw [← header.returnAddress]
    congr 1
    exact Stack.load_congr fun index low high => (same index (by omega) (by omega)).symm

theorem Header.unique (one : Header stack pointer saved address)
    (two : Header stack pointer saved' address') : saved = saved' ∧ address = address' :=
  ⟨one.saved.symm.trans two.saved, one.returnAddress.symm.trans two.returnAddress⟩

/-- A pushed header can be read back if its frame pointer is a 64-bit word. -/
theorem header_pushed (word : pointer < UInt64.size) (room : headerSize ≤ stack.available) :
    Header (pushed stack pointer address) (stack.top + headerSize) pointer address := by
  have size : ∀ value : UInt64, (Scalar.encode value).length = 8 := fun value =>
    Scalar.length_encode value
  rw [Stack.available, headerSize] at room
  let lower := stack.append (Scalar.encode pointer.toUInt64)
  have first : stack.top + (Scalar.encode pointer.toUInt64).length ≤ stack.capacity := by
    rw [size]
    omega
  have second : lower.top + (Scalar.encode address).length ≤ lower.capacity := by
    rw [Stack.top_append, Stack.capacity_append, size, size]
    omega
  have lowerTop : lower.top = stack.top + 8 := by rw [Stack.top_append, size]
  refine ⟨Nat.le_add_left _ _, ?_, ?_⟩
  · have kept : (pushed stack pointer address).load stack.top 8 = lower.load stack.top 8 :=
      Stack.load_append_of_below second (Nat.le_of_eq lowerTop.symm)
    have written := Stack.load_append_self first
    rw [size] at written
    rw [headerSize, Nat.add_sub_cancel, kept, written, Scalar.decode_encode]
    exact Nat.mod_eq_of_lt word
  · have written := Stack.load_append_self second
    rw [size, lowerTop] at written
    rw [headerSize, show stack.top + 16 - 8 = stack.top + 8 by omega]
    show Scalar.decode UInt64 ((lower.append (Scalar.encode address)).load _ 8) = address
    rw [written, Scalar.decode_encode]

/-- Nothing below the top changes. -/
theorem byte_pushed (room : headerSize ≤ stack.available) {index : Nat} (below : index < stack.top) :
    (pushed stack pointer address).byte index = stack.byte index := by
  have size : ∀ value : UInt64, (Scalar.encode value).length = 8 := fun value =>
    Scalar.length_encode value
  rw [Stack.available, headerSize] at room
  rw [pushed, Stack.byte_append, Stack.byte_store_of_outside, Stack.byte_append,
    Stack.byte_store_of_outside]
  · rw [size]
    omega
  · omega
  · exact .inl below
  · rw [Stack.top_append, Stack.capacity_append, size, size]
    omega
  · rw [Stack.capacity_append]
    omega
  · rw [Stack.top_append]
    omega

/-! ## The headers of all outstanding calls -/

/-- The headers of the outstanding calls, the newest first, with their return addresses. The last
one is the engine's. -/
inductive Chain (stack : Stack) : (frames : List Nat) → (addresses : List UInt64) → Prop
  | engine (header : Header stack 20 0 noCaller) : Chain stack [20] [noCaller]
  | call {frame caller : Nat} {frames : List Nat} {address : UInt64} {addresses : List UInt64}
    (header : Header stack frame caller address) (above : caller + headerSize ≤ frame)
    (inner : address ≠ noCaller) (below : Chain stack (caller :: frames) addresses) :
    Chain stack (frame :: caller :: frames) (address :: addresses)

namespace Chain

variable {frames : List Nat} {addresses : List UInt64} {frame : Nat}

theorem congr (chain : Chain stack frames addresses)
    (same : ∀ frame ∈ frames, ∀ index, frame - headerSize ≤ index → index < frame →
      stack.byte index = other.byte index) :
    Chain other frames addresses := by
  induction chain with
  | engine header => exact .engine (header.congr (same 20 (List.mem_singleton.mpr rfl)))
  | call header above inner _ ih =>
    refine .call (header.congr (same _ (List.mem_cons_self ..))) above inner (ih ?_)
    intro frame member
    exact same frame (List.mem_cons_of_mem _ member)

/-- What is on top of an older frame is a call. -/
theorem newest {caller : Nat} (chain : Chain stack (frame :: caller :: frames) addresses) :
    ∃ address older, addresses = address :: older ∧ Header stack frame caller address ∧
      caller + headerSize ≤ frame ∧ address ≠ noCaller ∧ Chain stack (caller :: frames) older := by
  cases chain with
  | call header above inner below => exact ⟨_, _, rfl, header, above, inner, below⟩

/-- No header lies above that of the newest call. -/
theorem le_newest (chain : Chain stack (frame :: frames) addresses) {older : Nat}
    (member : older ∈ frame :: frames) : older ≤ frame := by
  generalize listed : frame :: frames = all at chain member
  induction chain generalizing frame frames with
  | engine header =>
    cases listed
    exact Nat.le_of_eq (List.mem_singleton.mp member)
  | call header above inner below ih =>
    cases listed
    rcases List.mem_cons.mp member with rfl | older
    · exact Nat.le_refl _
    · have := ih rfl older
      omega

/-- Sixteen bytes for each call, and four for the argument of the engine. -/
theorem length_le (chain : Chain stack (frame :: frames) addresses) :
    headerSize * (frames.length + 1) + 4 ≤ frame := by
  generalize listed : frame :: frames = all at chain
  induction chain generalizing frame frames with
  | engine header =>
    cases listed
    exact Nat.le_refl _
  | call header above inner below ih =>
    cases listed
    have := ih rfl
    rw [List.length_cons, headerSize] at *
    omega

theorem length_addresses (chain : Chain stack frames addresses) :
    addresses.length = frames.length := by
  induction chain with
  | engine header => rfl
  | call header above inner below ih => rw [List.length_cons, List.length_cons, ih]

/-! ## What leaves a chain as it is -/

theorem drop (chain : Chain stack frames addresses) (count : Nat) :
    Chain (stack.drop count) frames addresses :=
  chain.congr fun _ _ _ _ _ => rfl

/-- One more call. -/
theorem push (chain : Chain stack (frame :: frames) addresses) (below : frame ≤ stack.top)
    (word : frame < UInt64.size) (room : headerSize ≤ stack.available) (inner : address ≠ noCaller) :
    Chain (pushed stack frame address) ((stack.top + headerSize) :: frame :: frames)
      (address :: addresses) := by
  refine .call (header_pushed word room) (Nat.add_le_add_right below _) inner ?_
  refine chain.congr fun older member index low high => ?_
  have := chain.le_newest member
  exact (byte_pushed room (by omega)).symm

end Chain

/-! ## The saved frame pointers alone -/

/-- The frame pointer that the header at a frame pointer holds. -/
def savedPointer (stack : Stack) (pointer : Nat) : Nat :=
  (Scalar.decode UInt64 (stack.load (pointer - 16) 8)).toNat

/-- The saved pointers lead from the current frame through `frames`, one below the other, to the
engine's frame. Nothing is said of the return addresses. -/
def Linked (stack : Stack) : (frames : List Nat) → (current : Nat) → Prop
  | [], current => current = 20
  | frame :: older, current =>
    current = frame ∧ savedPointer stack frame + headerSize ≤ frame ∧
      Linked stack older (savedPointer stack frame)

namespace Linked

variable {frames : List Nat} {current frame : Nat}

theorem congr (linked : Linked stack frames current)
    (same : ∀ frame ∈ frames, ∀ index, frame - headerSize ≤ index → index < frame - 8 →
      stack.byte index = other.byte index) :
    Linked other frames current := by
  induction frames generalizing current with
  | nil => exact linked
  | cons frame older ih =>
    obtain ⟨rfl, above, below⟩ := linked
    have saved : savedPointer stack current = savedPointer other current := by
      unfold savedPointer
      congr 2
      rw [headerSize] at above same
      exact Stack.load_congr fun index low high =>
        same current (List.mem_cons_self ..) index low (by omega)
    refine ⟨rfl, saved ▸ above, saved ▸ ih below fun frame member => ?_⟩
    exact same frame (List.mem_cons_of_mem _ member)

/-- No frame lies above the current one. -/
theorem le_current (linked : Linked stack frames current) (member : frame ∈ frames) :
    frame ≤ current := by
  induction frames generalizing current with
  | nil => cases member
  | cons newest older ih =>
    obtain ⟨rfl, above, below⟩ := linked
    rcases List.mem_cons.mp member with rfl | older
    · exact Nat.le_refl _
    · have := ih below older
      omega

/-- Sixteen bytes for each call, and twenty for the engine. -/
theorem length_le (linked : Linked stack frames current) :
    headerSize * frames.length + 20 ≤ current := by
  induction frames generalizing current with
  | nil => exact Nat.le_of_eq linked.symm
  | cons frame older ih =>
    obtain ⟨rfl, above, below⟩ := linked
    have := ih below
    rw [List.length_cons, headerSize] at *
    omega

/-- One more call. -/
theorem push (linked : Linked stack frames current) (below : current ≤ stack.top)
    (word : current < UInt64.size) (room : headerSize ≤ stack.available) :
    Linked (pushed stack current address) ((stack.top + headerSize) :: frames)
      (stack.top + headerSize) := by
  have saved : savedPointer (pushed stack current address) (stack.top + headerSize) = current :=
    (header_pushed word room).saved
  refine ⟨rfl, ?_, ?_⟩
  · rw [saved]
    exact Nat.add_le_add_right below _
  · rw [saved]
    refine linked.congr fun frame member index low high => ?_
    have := linked.le_current member
    exact (byte_pushed room (by omega)).symm

end Linked

end Tandem.Frame

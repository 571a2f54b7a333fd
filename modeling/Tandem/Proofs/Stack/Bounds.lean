import Tandem.Proofs.Stack.Reference

/-!
# Stack operations in 64-bit arithmetic

Positions and tops are natural numbers here, and 64-bit words in a machine that runs images. The
checked form of an operation takes every sum and every difference of positions in 64 bits, reaches
for its bytes through a range of cells of the buffer, and gives nothing if a sum or a difference is
out of range or a range is not inside the buffer. On a stack whose top is not above its capacity
that never happens, and the checked operation does what the operation does (`Stack.InRange`,
`Stack.Bounded.inRange`). No operation lets the top rise above the capacity, so this goes on for
ever (`Stack.Bounded.afterAll`).
-/

namespace Tandem

/-! ## Actions that keep a property -/

/-- The state that an action leaves, also where it fails. -/
def Action.final {σ α : Type} (action : Action σ α) (state : σ) : σ :=
  match action state with
  | .ok _ after => after
  | .error _ after => after

/-- What holds of the state holds after the action, also where it fails. -/
def Action.Preserves {σ α : Type} (P : σ → Prop) (action : Action σ α) : Prop :=
  ∀ state, P state → P (action.final state)

theorem Action.final_of_ok {σ α : Type} {action : Action σ α} {state after : σ} {value : α}
    (done : action state = .ok value after) : action.final state = after := by
  rw [final, done]

theorem Action.final_of_error {σ α : Type} {action : Action σ α} {state after : σ} {fault : Fault}
    (failed : action state = .error fault after) : action.final state = after := by
  rw [final, failed]

namespace Action.Preserves

variable {σ α β : Type} {P : σ → Prop}

theorem pure (value : α) : Preserves P (pure value : Action σ α) := fun _ holds => holds

theorem throw (fault : Fault) : Preserves P (throw fault : Action σ α) := fun _ holds => holds

theorem get : Preserves P (get : Action σ σ) := fun _ holds => holds

theorem bind {first : Action σ α} {rest : α → Action σ β} (firstPart : Preserves P first)
    (secondPart : ∀ value, Preserves P (rest value)) : Preserves P (first >>= rest) := by
  intro state holds
  have begun := firstPart state holds
  cases ran : first state with
  | error fault next =>
    rw [final_of_error ran] at begun
    rwa [final_of_error (bind_of_error ran)]
  | ok value next =>
    rw [final_of_ok ran] at begun
    have ended := secondPart value next begun
    rw [final] at ended ⊢
    rwa [bind_of_ok ran]

theorem of_ok {action : Action σ α} (preserves : Preserves P action) {state after : σ} {value : α}
    (holds : P state) (done : action state = .ok value after) : P after := by
  have kept := preserves state holds
  rwa [final_of_ok done] at kept

theorem of_error {action : Action σ α} (preserves : Preserves P action) {state after : σ}
    {fault : Fault} (holds : P state) (failed : action state = .error fault after) : P after := by
  have kept := preserves state holds
  rwa [final_of_error failed] at kept

/-- An action that changes nothing when it fails needs a look at its successes only. -/
theorem of_atomic {action : Action σ α} (atomic : action.Atomic)
    (kept : ∀ state value after, P state → action state = .ok value after → P after) :
    Preserves P action := by
  intro state holds
  cases ran : action state with
  | ok value after =>
    rw [final_of_ok ran]
    exact kept state value after holds ran
  | error fault after =>
    rw [final_of_error ran, atomic state fault after ran]
    exact holds

end Action.Preserves

namespace Stack

variable {size : Nat} {stack after : Stack}

/-! ## Tops below the capacity -/

/-- A stack of the given capacity with its top inside it. -/
structure Bounded (size : Nat) (stack : Stack) : Prop where
  capacity : stack.capacity = size
  top : stack.top ≤ size

theorem bounded_ofCapacity (size : Nat) (growth : Growth) :
    Bounded size (ofCapacity size growth) :=
  ⟨capacity_ofCapacity size growth, Nat.zero_le _⟩

theorem Bounded.reset (bounded : Bounded size stack) : Bounded size stack.reset :=
  ⟨bounded.capacity, Nat.zero_le _⟩

theorem Bounded.drop (bounded : Bounded size stack) (count : Nat) :
    Bounded size (stack.drop count) :=
  ⟨bounded.capacity, Nat.le_trans (Nat.sub_le _ _) bounded.top⟩

theorem Bounded.store (bounded : Bounded size stack) (position : Nat) (bytes : List UInt8) :
    Bounded size (stack.store position bytes) :=
  ⟨by rw [capacity_store, bounded.capacity], by rw [top_store]; exact bounded.top⟩

theorem Bounded.append (bounded : Bounded size stack) {bytes : List UInt8}
    (room : bytes.length ≤ stack.available) : Bounded size (stack.append bytes) where
  capacity := by rw [capacity_append, bounded.capacity]
  top := by
    have := bounded.top
    rw [available, bounded.capacity] at room
    rw [top_append]
    omega

theorem grow_bounded (bytes : List UInt8) : Action.Preserves (Bounded size) (grow bytes) :=
  .of_atomic (atomic_grow bytes) fun _ _ _ bounded done => by
    obtain ⟨room, rfl⟩ := grow_eq_ok done
    exact bounded.append room

theorem push_bounded {α : Type} [Scalar α] (value : α) :
    Action.Preserves (Bounded size) (push value) := by
  rw [push_eq_grow]
  exact grow_bounded _

theorem pop_bounded (α : Type) [Scalar α] : Action.Preserves (Bounded size) (pop α) :=
  .of_atomic (atomic_pop α) fun _ _ _ bounded done => by
    obtain ⟨-, -, rfl⟩ := pop_eq_ok done
    exact bounded.drop _

theorem release_bounded (count : Nat) : Action.Preserves (Bounded size) (release count) :=
  .of_atomic (atomic_release count) fun _ _ _ bounded done => by
    obtain ⟨-, rfl⟩ := release_eq_ok done
    exact bounded.drop _

theorem writeWord_bounded (position : Nat) (value : UInt32) :
    Action.Preserves (Bounded size) (writeWord position value) :=
  .of_atomic (atomic_writeWord position value) fun stack _ _ bounded done => by
    rcases Nat.lt_or_ge stack.top (position + 4) with outOfUse | inUse
    · rw [writeWord_of_outOfUse value outOfUse] at done
      cases done
    · rw [writeWord_of_inUse value inUse] at done
      cases done
      exact bounded.store _ _

theorem wordAt_bounded (position : Nat) : Action.Preserves (Bounded size) (wordAt position) :=
  .of_atomic (atomic_wordAt position) fun stack _ _ bounded done => by
    rw [wordAt, Action.get_bind, Action.ofExcept_apply] at done
    split at done
    · cases done
      exact bounded
    · cases done

/-- No operation moves the top above the capacity. -/
theorem perform_bounded (operation : Operation) :
    Action.Preserves (Bounded size) (perform operation) := by
  cases operation with
  | push kind value => exact .bind (push_bounded value) fun _ => .pure _
  | pop kind => exact .bind (pop_bounded kind.Value) fun _ => .pure _
  | reserve count =>
    rw [perform, reserve_eq_grow]
    exact .bind (grow_bounded _) fun _ => .pure _
  | release count => exact .bind (release_bounded count) fun _ => .pure _
  | readWord position => exact .bind (wordAt_bounded position) fun _ => .pure _
  | writeWord position value => exact .bind (writeWord_bounded position value) fun _ => .pure _
  | isOverflow count => exact .bind .get fun _ => .pure _
  | isUnderflow count => exact .bind .get fun _ => .pure _
  | reset => exact fun stack bounded => bounded.reset

end Stack

/-! ## Arithmetic in 64 bits -/

namespace Checked

/-- The sum of two words, if it is one. -/
def add (a b : Nat) : Option Nat := if a + b < UInt64.size then some (a + b) else none

/-- The difference of two words, if it is one. -/
def sub (a b : Nat) : Option Nat := if b ≤ a then some (a - b) else none

theorem add_of_lt {a b : Nat} (fits : a + b < UInt64.size) : add a b = some (a + b) := if_pos fits

theorem sub_of_le {a b : Nat} (enough : b ≤ a) : sub a b = some (a - b) := if_pos enough

end Checked

namespace Stack

variable {size : Nat} {stack : Stack}

/-- The range of cells of `count` bytes from `position` on, from its first cell to the one after its
last, if it is computed in range and lies inside the buffer. -/
def cells? (stack : Stack) (position count : Nat) : Option (Nat × Nat) :=
  let range := match stack.growth with
    | .upward => (Checked.add position count).map fun stop => (position, stop)
    | .downward => (Checked.sub stack.capacity position).bind fun stop =>
      (Checked.sub stop count).map fun start => (start, stop)
  range.filter fun (start, stop) => start ≤ stop ∧ stop ≤ stack.capacity

theorem cells?_of_fits {position count : Nat} (fits : position + count ≤ stack.capacity)
    (bound : stack.capacity < UInt64.size) : ∃ range, stack.cells? position count = some range := by
  unfold cells?
  cases stack.growth with
  | upward =>
    refine ⟨(position, position + count), ?_⟩
    rw [Checked.add_of_lt (by omega)]
    simp [fits]
  | downward =>
    refine ⟨(stack.capacity - position - count, stack.capacity - position), ?_⟩
    rw [Checked.sub_of_le (by omega)]
    simp [Checked.sub_of_le (show count ≤ stack.capacity - position by omega)]

/-- The cells of a range are those of its positions. -/
theorem cell_mem_of_cells? {position count index start stop : Nat}
    (range : stack.cells? position count = some (start, stop)) (inside : index < count) :
    start ≤ stack.growth.cell stack.capacity (position + index) ∧
      stack.growth.cell stack.capacity (position + index) < stop := by
  unfold cells? Checked.add Checked.sub at range
  cases growth : stack.growth with
  | upward =>
    simp only [growth, Option.filter_eq_some_iff, Option.map_eq_some_iff,
      Option.ite_none_right_eq_some, Option.some.injEq, Prod.mk.injEq] at range
    simp only [Growth.cell]
    omega
  | downward =>
    simp only [growth, Option.filter_eq_some_iff, Option.map_eq_some_iff, Option.bind_eq_some_iff,
      Option.ite_none_right_eq_some, Option.some.injEq, Prod.mk.injEq] at range
    simp only [Growth.cell]
    omega

/-! ## Checked operations -/

/-- What an action on a stack comes to. -/
abbrev Result (α : Type) : Type := EStateM.Result Fault Stack α

/-- Pushing bytes. -/
def checkedGrow (bytes : List UInt8) (stack : Stack) : Option (Result Unit) :=
  (Checked.sub stack.capacity stack.top).bind fun free =>
    if free < bytes.length then some (.error (.stackOverflow bytes.length free) stack)
    else
      (stack.cells? stack.top bytes.length).bind fun _ =>
        (Checked.add stack.top bytes.length).map fun top =>
          .ok () { stack.store stack.top bytes with top }

/-- Popping a value. -/
def checkedPop (α : Type) [Scalar α] (stack : Stack) : Option (Result α) :=
  if stack.top < Scalar.width α then
    some (.error (.stackUnderflow (Scalar.width α) stack.top) stack)
  else
    (Checked.sub stack.top (Scalar.width α)).bind fun base =>
      (stack.cells? base (Scalar.width α)).map fun _ =>
        .ok (Scalar.decode α (stack.load base (Scalar.width α))) { stack with top := base }

/-- Releasing bytes. -/
def checkedRelease (count : Nat) (stack : Stack) : Option (Result Unit) :=
  if stack.top < count then some (.error (.stackUnderflow count stack.top) stack)
  else (Checked.sub stack.top count).map fun top => .ok () { stack with top }

/-- Using the word at a position. A position whose end is no 64-bit word is not in use. -/
def checkedWord {α : Type} (position : Nat) (use : Result α) (stack : Stack) : Option (Result α) :=
  let unused := .error (.stackUnderflow 4 (stack.top - position)) stack
  match Checked.add position 4 with
  | none => some unused
  | some stop =>
    if stop ≤ stack.top then (stack.cells? position 4).map fun _ => use else some unused

/-- No operation on a stack leaves the range of 64-bit words or reaches out of the buffer. -/
structure InRange (stack : Stack) : Prop where
  available : Checked.sub stack.capacity stack.top = some stack.available
  grow : ∀ bytes, stack.checkedGrow bytes = some (Stack.grow bytes stack)
  pop : ∀ (α : Type) [Scalar α], stack.checkedPop α = some (Stack.pop α stack)
  release : ∀ count, stack.checkedRelease count = some (Stack.release count stack)
  read : ∀ position,
    stack.checkedWord position (.ok (Scalar.decode UInt32 (stack.load position 4)) stack) =
      some (wordAt position stack)
  write : ∀ position (value : UInt32),
    stack.checkedWord position (.ok () (stack.store position (Scalar.encode value))) =
      some (writeWord position value stack)

theorem Bounded.checkedWord (bounded : Bounded size stack) (fits : size < UInt64.size) {α : Type}
    {action : Stack.Action α} {position : Nat} {use : Result α}
    (inUse : position + 4 ≤ stack.top → action stack = use)
    (outOfUse : stack.top < position + 4 →
      action stack = .error (.stackUnderflow 4 (stack.top - position)) stack) :
    stack.checkedWord position use = some (action stack) := by
  have top := bounded.top
  have capacity := bounded.capacity
  rcases Nat.lt_or_ge stack.top (position + 4) with beyond | below
  · rw [outOfUse beyond, Stack.checkedWord, Checked.add]
    by_cases wide : position + 4 < UInt64.size
    · rw [if_pos wide]
      exact if_neg (Nat.not_le.mpr beyond)
    · rw [if_neg wide]
  · obtain ⟨range, found⟩ := cells?_of_fits (show position + 4 ≤ stack.capacity by omega)
      (by rwa [capacity])
    rw [inUse below, Stack.checkedWord, Checked.add_of_lt (by omega), found]
    exact if_pos below

/-- A stack with its top inside its capacity is in range. -/
theorem Bounded.inRange (bounded : Bounded size stack) (fits : size < UInt64.size) :
    stack.InRange := by
  have top := bounded.top
  have capacity := bounded.capacity
  have room : Checked.sub stack.capacity stack.top = some stack.available :=
    Checked.sub_of_le (by omega)
  refine ⟨room, fun bytes => ?_, fun α _ => ?_, fun count => ?_, fun position => ?_,
    fun position value => ?_⟩
  · rw [checkedGrow, room, Option.bind_some]
    rcases Nat.lt_or_ge stack.available bytes.length with full | enough
    · rw [grow_of_full full, if_pos full]
    · have within : stack.top + bytes.length ≤ stack.capacity := by
        rw [Stack.available] at enough
        omega
      obtain ⟨range, found⟩ := cells?_of_fits within (by rwa [capacity])
      rw [grow_of_room enough, if_neg (Nat.not_lt.mpr enough), found,
        Checked.add_of_lt (by omega)]
      rfl
  · rcases Nat.lt_or_ge stack.top (Scalar.width α) with short | inUse
    · rw [checkedPop, if_pos short, Stack.pop, isUnderflow, if_pos (decide_eq_true short)]
    · obtain ⟨range, found⟩ := cells?_of_fits
        (show stack.top - Scalar.width α + Scalar.width α ≤ stack.capacity by omega)
        (by rwa [capacity])
      rw [checkedPop, if_neg (Nat.not_lt.mpr inUse), Checked.sub_of_le inUse, pop_of_inUse inUse,
        Option.bind_some, found]
      rfl
  · rcases Nat.lt_or_ge stack.top count with short | inUse
    · rw [checkedRelease, if_pos short, Stack.release, isUnderflow, if_pos (decide_eq_true short)]
    · rw [checkedRelease, if_neg (Nat.not_lt.mpr inUse), Checked.sub_of_le inUse, Stack.release,
        isUnderflow, if_neg (by simpa using inUse)]
      rfl
  · refine bounded.checkedWord fits (fun inUse => ?_) fun outOfUse => ?_
    · rw [wordAt, Action.get_bind, Action.ofExcept_apply, readWord_of_inUse inUse]
    · rw [wordAt, Action.get_bind, Action.ofExcept_apply, readWord_of_outOfUse outOfUse]
  · exact bounded.checkedWord fits (writeWord_of_inUse value) (writeWord_of_outOfUse value)

/-! ## Any operations -/

/-- The stack after operations, whatever they come to. -/
def afterAll (operations : List Operation) (stack : Stack) : Stack :=
  operations.foldl (fun stack operation => (behavior.reply operation stack).2) stack

theorem Bounded.reply (bounded : Bounded size stack) (operation : Operation) :
    Bounded size (behavior.reply operation stack).2 := by
  unfold Behavior.reply behavior
  cases performed : perform operation stack with
  | ok answer after =>
    simp only [performed]
    exact (perform_bounded operation).of_ok bounded performed
  | error fault after =>
    simp only [performed]
    exact (perform_bounded operation).of_error bounded performed

/-- Operations in any number and order keep the top inside the capacity. -/
theorem Bounded.afterAll (bounded : Bounded size stack) (operations : List Operation) :
    Bounded size (Stack.afterAll operations stack) := by
  induction operations generalizing stack with
  | nil => exact bounded
  | cons operation rest ih => exact ih (bounded.reply operation)

end Stack

end Tandem

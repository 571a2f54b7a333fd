import Mathlib.Data.List.Forall2
import Tandem.Proofs.Stack.Unwinding

/-!
# A stack is a bounded list of bytes

The reference here is a list of at most `capacity` bytes (`ByteList`): pushing writes at its end,
popping and releasing cut it there, words are read and overwritten in its middle, and there is
nothing beyond its end. Any number of stacks that are worked on and copied in any order answer as
such lists do, and keep holding what the lists hold (`replies_eq_reference`). The direction in which
a stack grows and the cells above its top have no part in that, so that a value that was popped,
released or reset away is never seen again (`replies_congr`).
-/

namespace Tandem

namespace Stack

/-! ## The bytes in use -/

section Contents

variable {stack : Stack} {bytes : List UInt8} {position count : Nat}

@[simp] theorem length_contents (stack : Stack) : stack.contents.length = stack.top :=
  length_load stack 0 stack.top

theorem load_add (stack : Stack) (position first second : Nat) :
    stack.load position (first + second) =
      stack.load position first ++ stack.load (position + first) second := by
  rw [load, load, load, ← List.map_append, List.range'_append_1]

/-- The bytes below a position in use. -/
theorem take_contents (inUse : position ≤ stack.top) :
    stack.contents.take position = stack.load 0 position := by
  have split := load_add stack 0 position (stack.top - position)
  rw [Nat.add_sub_cancel' inUse] at split
  rw [contents, split, List.take_left' (length_load _ _ _)]

/-- The bytes from a position in use on. -/
theorem drop_contents (inUse : position ≤ stack.top) :
    stack.contents.drop position = stack.load position (stack.top - position) := by
  have split := load_add stack 0 position (stack.top - position)
  rw [Nat.add_sub_cancel' inUse, Nat.zero_add] at split
  rw [contents, split, List.drop_left' (length_load _ _ _)]

/-- What is loaded from below the top is a part of the contents. -/
theorem load_of_inUse (inUse : position + count ≤ stack.top) :
    stack.load position count = (stack.contents.drop position).take count := by
  have split := load_add stack position count (stack.top - position - count)
  rw [Nat.add_sub_cancel' (by omega)] at split
  rw [drop_contents (by omega), split, List.take_left' (length_load _ _ _)]

@[simp] theorem contents_reset (stack : Stack) : stack.reset.contents = [] := rfl

@[simp] theorem contents_ofCapacity (capacity : Nat) (growth : Growth) :
    (ofCapacity capacity growth).contents = [] := rfl

theorem contents_drop (stack : Stack) (count : Nat) :
    (stack.drop count).contents = stack.contents.take (stack.top - count) := by
  rw [take_contents (Nat.sub_le _ _)]
  rfl

theorem contents_append (fits : stack.top + bytes.length ≤ stack.capacity) :
    (stack.append bytes).contents = stack.contents ++ bytes := by
  rw [contents, top_append, load_add, Nat.zero_add, load_append_self fits,
    load_append_of_below fits (by omega), contents]

theorem contents_store (inUse : position + bytes.length ≤ stack.top)
    (fits : stack.top ≤ stack.capacity) :
    (stack.store position bytes).contents =
      stack.contents.take position ++ bytes ++ stack.contents.drop (position + bytes.length) := by
  have room : position + bytes.length ≤ stack.capacity := by omega
  have split := load_add (stack.store position bytes) 0 (position + bytes.length)
    (stack.top - (position + bytes.length))
  rw [Nat.add_sub_cancel' inUse, Nat.zero_add, load_add, Nat.zero_add] at split
  have below : (stack.store position bytes).load 0 position = stack.load 0 position :=
    load_store_of_disjoint room (by omega) (.inl (by omega))
  have above : (stack.store position bytes).load (position + bytes.length)
      (stack.top - (position + bytes.length)) =
      stack.load (position + bytes.length) (stack.top - (position + bytes.length)) :=
    load_store_of_disjoint room (by omega) (.inr (Nat.le_refl _))
  rw [contents, top_store, split, below, load_store_self room, above, take_contents (by omega),
    drop_contents inUse]

end Contents

/-! ## Operations and answers -/

/-- The kinds of values that are pushed and popped. -/
inductive Kind where
  | word
  | signedWord
  | wide
  | signedWide
  /-- A saved frame pointer or a return address. -/
  | address
  deriving Repr, DecidableEq, Inhabited

namespace Kind

/-- The values of a kind. -/
def Value : Kind → Type
  | word => UInt32
  | signedWord => Int32
  | wide => UInt64
  | signedWide => Int64
  | address => UInt64

instance : (kind : Kind) → Scalar kind.Value
  | word => inferInstanceAs (Scalar UInt32)
  | signedWord => inferInstanceAs (Scalar Int32)
  | wide => inferInstanceAs (Scalar UInt64)
  | signedWide => inferInstanceAs (Scalar Int64)
  | address => inferInstanceAs (Scalar UInt64)

instance : (kind : Kind) → DecidableEq kind.Value
  | word => inferInstanceAs (DecidableEq UInt32)
  | signedWord => inferInstanceAs (DecidableEq Int32)
  | wide => inferInstanceAs (DecidableEq UInt64)
  | signedWide => inferInstanceAs (DecidableEq Int64)
  | address => inferInstanceAs (DecidableEq UInt64)

end Kind

/-- An operation on a stack, with its arguments. -/
inductive Operation where
  | push (kind : Kind) (value : kind.Value)
  | pop (kind : Kind)
  | reserve (count : Nat)
  | release (count : Nat)
  | readWord (position : Nat)
  | writeWord (position : Nat) (value : UInt32)
  | isOverflow (count : Nat)
  | isUnderflow (count : Nat)
  | reset

/-- What an operation that does not fail answers. -/
inductive Answer where
  | done
  | value (kind : Kind) (value : kind.Value)
  | truth (holds : Bool)
  deriving DecidableEq

/-- The word at `position`, as an action. -/
def wordAt (position : Nat) : Stack.Action UInt32 := do
  ofExcept ((← get).readWord position)

/-- Do an operation on a stack. -/
def perform : Operation → Stack.Action Answer
  | .push _ value => do
    Stack.push value
    return .done
  | .pop kind => return .value kind (← Stack.pop kind.Value)
  | .reserve count => do
    Stack.reserve count
    return .done
  | .release count => do
    Stack.release count
    return .done
  | .readWord position => return .value .word (← wordAt position)
  | .writeWord position value => do
    Stack.writeWord position value
    return .done
  | .isOverflow count => return .truth ((← get).isOverflow count)
  | .isUnderflow count => return .truth ((← get).isUnderflow count)
  | .reset => do
    modify Stack.reset
    return .done

end Stack

/-! ## The reference -/

/-- A list of at most `capacity` bytes. -/
structure ByteList (capacity : Nat) where
  bytes : List UInt8
  fits : bytes.length ≤ capacity

namespace ByteList

variable {capacity : Nat}

/-- No bytes. -/
def empty : ByteList capacity := ⟨[], Nat.zero_le _⟩

/-- The first bytes of a list. -/
def keep (list : ByteList capacity) (count : Nat) : ByteList capacity :=
  ⟨list.bytes.take count, Nat.le_trans (List.length_take_le' _ _) list.fits⟩

/-- Write bytes at the end. -/
def extend (bytes : List UInt8) : Action (ByteList capacity) Unit := fun list =>
  if room : list.bytes.length + bytes.length ≤ capacity then
    .ok () ⟨list.bytes ++ bytes, by rwa [List.length_append]⟩
  else .error (.stackOverflow bytes.length (capacity - list.bytes.length)) list

/-- Cut bytes off the end; the result is what was cut off. -/
def cut (count : Nat) : Action (ByteList capacity) (List UInt8) := fun list =>
  let length := list.bytes.length
  if count ≤ length then .ok (list.bytes.drop (length - count)) (list.keep (length - count))
  else .error (.stackUnderflow count length) list

/-- Take a value off the end. -/
def pop (α : Type) [Scalar α] : Action (ByteList capacity) α :=
  Scalar.decode α <$> cut (Scalar.width α)

/-- Cut bytes off the end without looking at them. -/
def release (count : Nat) : Action (ByteList capacity) Unit := (fun _ => ()) <$> cut count

/-- The word that the four bytes at `position` hold. -/
def read (position : Nat) : Action (ByteList capacity) UInt32 := fun list =>
  if position + 4 ≤ list.bytes.length then
    .ok (Scalar.decode UInt32 ((list.bytes.drop position).take 4)) list
  else .error (.stackUnderflow 4 (list.bytes.length - position)) list

/-- Put the four bytes of a word in the place of those at `position`. -/
def write (position : Nat) (value : UInt32) : Action (ByteList capacity) Unit := fun list =>
  if inside : position + 4 ≤ list.bytes.length then
    .ok () ⟨list.bytes.take position ++ Scalar.encode value ++ list.bytes.drop (position + 4), by
      have := list.fits
      simp only [List.length_append, List.length_take, List.length_drop, Scalar.length_encode,
        Scalar.width_uint32]
      omega⟩
  else .error (.stackUnderflow 4 (list.bytes.length - position)) list

/-- Do an operation on a list of bytes. -/
def perform : Stack.Operation → Action (ByteList capacity) Stack.Answer
  | .push _ value => do
    extend (Scalar.encode value)
    return .done
  | .pop kind => return .value kind (← pop kind.Value)
  | .reserve count => do
    extend (List.replicate count 0)
    return .done
  | .release count => do
    release count
    return .done
  | .readWord position => return .value .word (← read position)
  | .writeWord position value => do
    write position value
    return .done
  | .isOverflow count => return .truth (capacity < (← get).bytes.length + count)
  | .isUnderflow count => return .truth ((← get).bytes.length < count)
  | .reset => do
    modify fun _ => empty
    return .done

end ByteList

namespace Stack

variable {capacity : Nat} {stack : Stack} {list : ByteList capacity}

/-- A stack that holds the bytes of a list. -/
structure Represents (capacity : Nat) (stack : Stack) (list : ByteList capacity) : Prop where
  capacity : stack.capacity = capacity
  contents : stack.contents = list.bytes

namespace Represents

theorem top (represents : Represents capacity stack list) : stack.top = list.bytes.length := by
  rw [← represents.contents, length_contents]

theorem fits (represents : Represents capacity stack list) : stack.top ≤ stack.capacity := by
  rw [represents.top, represents.capacity]
  exact list.fits

theorem available (represents : Represents capacity stack list) :
    stack.available = capacity - list.bytes.length := by
  rw [Stack.available, represents.capacity, represents.top]

theorem empty (sized : stack.capacity = capacity) (reset : stack.contents = []) :
    Represents capacity stack .empty :=
  ⟨sized, reset⟩

/-- A stack without its last bytes holds the first bytes of the list. -/
theorem drop (represents : Represents capacity stack list) (count : Nat) :
    Represents capacity (stack.drop count) (list.keep (list.bytes.length - count)) where
  capacity := represents.capacity
  contents := by
    rw [contents_drop, represents.contents, represents.top]
    rfl

theorem grow (bytes : List UInt8) :
    Action.Respects Fault.NoneWaived (Represents capacity) (Stack.grow bytes)
      (ByteList.extend bytes) := by
  intro stack list represents
  have inUse := list.fits
  have room := represents.available
  rw [ByteList.extend]
  rcases Nat.lt_or_ge stack.available bytes.length with full | enough
  · rw [grow_of_full full, room, dif_neg (by omega)]
    exact .error represents
  · have fits : stack.top + bytes.length ≤ stack.capacity := by
      rw [represents.capacity, represents.top]
      omega
    rw [grow_of_room enough, dif_pos (by omega)]
    exact .ok ⟨by rw [capacity_append, represents.capacity],
      by rw [contents_append fits, represents.contents]⟩

/-- A pop decodes the bytes that are cut off. -/
theorem pop (α : Type) [Scalar α] :
    Action.Respects Fault.NoneWaived (Represents capacity) (Stack.pop α) (ByteList.pop α) := by
  intro stack list represents
  have top := represents.top
  rw [ByteList.pop, Action.map_apply, ByteList.cut, Stack.pop, isUnderflow, top]
  rcases Nat.lt_or_ge list.bytes.length (Scalar.width α) with short | enough
  · rw [if_pos (decide_eq_true short), if_neg (Nat.not_le.mpr short)]
    exact .error represents
  · rw [if_neg (by simpa using enough), if_pos enough, load_of_inUse (by omega), represents.contents,
      List.take_of_length_le (by rw [List.length_drop]; omega)]
    exact .ok (represents.drop _)

theorem release (count : Nat) :
    Action.Respects Fault.NoneWaived (Represents capacity) (Stack.release count)
      (ByteList.release count) := by
  intro stack list represents
  have top := represents.top
  rw [ByteList.release, Action.map_apply, ByteList.cut, Stack.release, isUnderflow, top]
  rcases Nat.lt_or_ge list.bytes.length count with short | enough
  · rw [if_pos (decide_eq_true short), if_neg (Nat.not_le.mpr short)]
    exact .error represents
  · rw [if_neg (by simpa using enough), if_pos enough]
    exact .ok (represents.drop _)

theorem writeWord (position : Nat) (value : UInt32) :
    Action.Respects Fault.NoneWaived (Represents capacity) (Stack.writeWord position value)
      (ByteList.write position value) := by
  intro stack list represents
  have top := represents.top
  rw [ByteList.write]
  rcases Nat.lt_or_ge stack.top (position + 4) with outOfUse | inUse
  · rw [writeWord_of_outOfUse value outOfUse, dif_neg (by omega), top]
    exact .error represents
  · have written : position + (Scalar.encode value).length ≤ stack.top := by
      rwa [Scalar.length_encode, Scalar.width_uint32]
    rw [writeWord_of_inUse value inUse, dif_pos (by omega)]
    refine .ok ⟨by rw [capacity_store, represents.capacity], ?_⟩
    rw [contents_store written represents.fits, represents.contents, Scalar.length_encode,
      Scalar.width_uint32]

theorem wordAt (position : Nat) :
    Action.Respects Fault.NoneWaived (Represents capacity) (Stack.wordAt position)
      (ByteList.read position) := by
  intro stack list represents
  have top := represents.top
  rw [ByteList.read, Stack.wordAt, Action.get_bind, Action.ofExcept_apply]
  rcases Nat.lt_or_ge stack.top (position + 4) with outOfUse | inUse
  · rw [readWord_of_outOfUse outOfUse, if_neg (by omega), top]
    exact .error represents
  · rw [readWord_of_inUse inUse, if_pos (by omega), load_of_inUse inUse, represents.contents]
    exact .ok represents

theorem isOverflow (represents : Represents capacity stack list) (count : Nat) :
    stack.isOverflow count = decide (capacity < list.bytes.length + count) := by
  have inUse := list.fits
  rw [Stack.isOverflow, represents.available]
  exact decide_eq_decide.mpr (by omega)

/-- Every operation does to a stack what it does to the list of its bytes. -/
theorem perform (operation : Operation) :
    Action.Respects Fault.NoneWaived (Represents capacity) (Stack.perform operation)
      (ByteList.perform operation) := by
  cases operation with
  | push kind value =>
    rw [Stack.perform, ByteList.perform, push_eq_grow]
    exact .bind (grow _) fun _ => .pure _
  | pop kind => exact .bind (pop kind.Value) fun _ => .pure _
  | reserve count =>
    rw [Stack.perform, ByteList.perform, reserve_eq_grow]
    exact .bind (grow _) fun _ => .pure _
  | release count => exact .bind (release count) fun _ => .pure _
  | readWord position => exact .bind (wordAt position) fun _ => .pure _
  | writeWord position value => exact .bind (writeWord position value) fun _ => .pure _
  | isOverflow count =>
    refine .get fun stack list represents => ?_
    rw [represents.isOverflow count]
    exact .ok represents
  | isUnderflow count =>
    refine .get fun stack list represents => ?_
    rw [Stack.isUnderflow, represents.top]
    exact .ok represents
  | reset =>
    exact .bind (.modify fun _ _ represents => .empty represents.capacity rfl) fun _ => .pure _

end Represents

end Stack

/-! ## Failures -/

/-- An action that changes the state only if it succeeds. -/
def Action.Atomic {σ α : Type} (action : Action σ α) : Prop :=
  ∀ state fault after, action state = .error fault after → after = state

theorem Action.Atomic.andThen {σ α β : Type} {action : Action σ α} (atomic : action.Atomic)
    (answer : α → β) : Action.Atomic (action >>= fun value => pure (answer value)) :=
  fun state fault after failed => atomic state fault after (Action.error_of_bind_pure failed)

namespace Stack

theorem atomic_grow (bytes : List UInt8) : Action.Atomic (grow bytes) := by
  intro stack fault after failed
  rw [grow] at failed
  split at failed
  · cases failed
    rfl
  · cases failed

theorem atomic_pop (α : Type) [Scalar α] : Action.Atomic (pop α) := by
  intro stack fault after failed
  rw [pop] at failed
  split at failed
  · cases failed
    rfl
  · cases failed

theorem atomic_release (count : Nat) : Action.Atomic (release count) := by
  intro stack fault after failed
  rw [release] at failed
  split at failed
  · cases failed
    rfl
  · cases failed

theorem atomic_wordAt (position : Nat) : Action.Atomic (wordAt position) := by
  intro stack fault after failed
  rw [wordAt, Action.get_bind, Action.ofExcept_apply] at failed
  split at failed
  · cases failed
  · cases failed
    rfl

theorem atomic_writeWord (position : Nat) (value : UInt32) :
    Action.Atomic (writeWord position value) := by
  intro stack fault after failed
  rw [writeWord] at failed
  split at failed
  · cases failed
    rfl
  · cases failed

/-- An operation that fails leaves the stack as it was. -/
theorem atomic_perform (operation : Operation) : Action.Atomic (perform operation) := by
  cases operation with
  | push kind value =>
    rw [perform, push_eq_grow]
    exact (atomic_grow _).andThen _
  | pop kind => exact (atomic_pop kind.Value).andThen _
  | reserve count =>
    rw [perform, reserve_eq_grow]
    exact (atomic_grow _).andThen _
  | release count => exact (atomic_release count).andThen _
  | readWord position => exact (atomic_wordAt position).andThen _
  | writeWord position value => exact (atomic_writeWord position value).andThen _
  | isOverflow count => exact fun _ _ _ failed => nomatch failed
  | isUnderflow count => exact fun _ _ _ failed => nomatch failed
  | reset => exact fun _ _ _ failed => nomatch failed

/-! ## Stacks side by side -/

/-- Something that operations are done to, and that has a top. -/
structure Behavior (σ : Type) where
  perform : Operation → Tandem.Action σ Answer
  top : σ → Nat

/-- How stacks behave. -/
def behavior : Behavior Stack := ⟨perform, Stack.top⟩

end Stack

/-- How lists of bytes behave. -/
def ByteList.behavior (capacity : Nat) : Stack.Behavior (ByteList capacity) :=
  ⟨ByteList.perform, fun list => list.bytes.length⟩

namespace Stack

/-- What came of an operation: the answer or the fault, and the top after it. -/
structure Reply where
  result : Except Fault Answer
  top : Nat

variable {σ τ : Type}

/-- The reply to an operation and the state after it. -/
def Behavior.reply (behavior : Behavior σ) (operation : Operation) (state : σ) : Reply × σ :=
  match behavior.perform operation state with
  | .ok answer after => (⟨.ok answer, behavior.top after⟩, after)
  | .error fault after => (⟨.error fault, behavior.top after⟩, after)

/-- Something to do with one of several stacks, which are numbered from zero. -/
inductive Command where
  | apply (number : Nat) (operation : Operation)
  /-- Put a copy of a stack behind the others. -/
  | clone (number : Nat)

/-- The number of the stack that a command is for. -/
def Command.number : Command → Nat
  | .apply number _ => number
  | .clone number => number

/-- The reply to a command and the stacks after it. There is no reply if there is no such stack. -/
def Command.obey (behavior : Behavior σ) (command : Command) (states : List σ) :
    Option Reply × List σ :=
  match states[command.number]? with
  | none => (none, states)
  | some state =>
    match command with
    | .apply number operation =>
      let replied := behavior.reply operation state
      (some replied.1, states.set number replied.2)
    | .clone _ => (some ⟨.ok .done, behavior.top state⟩, states ++ [state])

/-- The replies to commands, one after the other, and the stacks after them. -/
def obeyAll (behavior : Behavior σ) : List Command → List σ → List (Option Reply) × List σ
  | [], states => ([], states)
  | command :: rest, states =>
    let obeyed := command.obey behavior states
    let others := obeyAll behavior rest obeyed.2
    (obeyed.1 :: others.1, others.2)

/-- Two behaviors that cannot be told apart by one operation on related states. -/
structure Behavior.Refines (R : σ → τ → Prop) (left : Behavior σ) (right : Behavior τ) : Prop where
  perform : ∀ operation,
    Action.Respects Fault.NoneWaived R (left.perform operation) (right.perform operation)
  top : ∀ {state other}, R state other → left.top state = right.top other

theorem refines_behavior (capacity : Nat) :
    Behavior.Refines (Represents capacity) behavior (ByteList.behavior capacity) where
  perform := Represents.perform
  top := Represents.top

/-! ## Related stacks answer alike -/

section Refines

variable {R : σ → τ → Prop} {left : Behavior σ} {right : Behavior τ} {states : List σ}
  {others : List τ}

theorem rel_getElem? (related : List.Forall₂ R states others) (number : Nat) :
    Option.Rel R states[number]? others[number]? := by
  induction related generalizing number with
  | nil => exact .none
  | cons first rest ih =>
    cases number with
    | zero => exact .some first
    | succ number => exact ih number

theorem forall₂_set (related : List.Forall₂ R states others) {state : σ} {other : τ}
    (replaced : R state other) (number : Nat) :
    List.Forall₂ R (states.set number state) (others.set number other) := by
  induction related generalizing number with
  | nil => exact .nil
  | cons first rest ih =>
    cases number with
    | zero => exact .cons replaced rest
    | succ number => exact .cons first (ih number)

theorem Behavior.Refines.reply (refines : left.Refines R right) {state : σ} {other : τ}
    (related : R state other) (operation : Operation) :
    (left.reply operation state).1 = (right.reply operation other).1 ∧
      R (left.reply operation state).2 (right.reply operation other).2 := by
  rw [Behavior.reply, Behavior.reply]
  have performed := refines.perform operation state other related
  revert performed
  generalize left.perform operation state = result
  generalize right.perform operation other = result'
  intro performed
  cases performed with
  | ok after => exact ⟨congrArg (Reply.mk _) (refines.top after), after⟩
  | error after => exact ⟨congrArg (Reply.mk _) (refines.top after), after⟩
  | waived excuse => exact excuse.elim

/-- The replies to one command are the same, and the states stay related. -/
theorem Behavior.Refines.obey (refines : left.Refines R right)
    (related : List.Forall₂ R states others) (command : Command) :
    (command.obey left states).1 = (command.obey right others).1 ∧
      List.Forall₂ R (command.obey left states).2 (command.obey right others).2 := by
  rw [Command.obey, Command.obey]
  have found := rel_getElem? related command.number
  revert found
  generalize states[command.number]? = state?
  generalize others[command.number]? = other?
  intro found
  cases found with
  | none => exact ⟨rfl, related⟩
  | some same =>
    cases command with
    | apply number operation =>
      obtain ⟨sameReply, after⟩ := refines.reply same operation
      exact ⟨congrArg some sameReply, forall₂_set related after number⟩
    | clone number =>
      exact ⟨congrArg some (congrArg (Reply.mk _) (refines.top same)),
        List.rel_append related (.cons same .nil)⟩

theorem Behavior.Refines.obeyAll (refines : left.Refines R right)
    (related : List.Forall₂ R states others) (commands : List Command) :
    (Stack.obeyAll left commands states).1 = (Stack.obeyAll right commands others).1 ∧
      List.Forall₂ R (Stack.obeyAll left commands states).2
        (Stack.obeyAll right commands others).2 := by
  induction commands generalizing states others with
  | nil => exact ⟨rfl, related⟩
  | cons command rest ih =>
    obtain ⟨sameReply, related⟩ := refines.obey related command
    obtain ⟨sameReplies, related⟩ := ih related
    exact ⟨congr (congrArg List.cons sameReply) sameReplies, related⟩

end Refines

/-- **Stacks are bounded lists of bytes.** Whatever is done to a new stack and to its copies, in
whatever order, each reply is that of a list of at most `capacity` bytes, and in the end every stack
holds what its list holds. An operation that fails changes nothing. -/
theorem replies_eq_reference (capacity : Nat) (growth : Growth) (commands : List Command) :
    let held := obeyAll behavior commands [ofCapacity capacity growth]
    let lists := obeyAll (ByteList.behavior capacity) commands [ByteList.empty]
    held.1 = lists.1 ∧ List.Forall₂ (Represents capacity) held.2 lists.2 ∧
      ∀ operation, Action.Atomic (perform operation) := by
  have fresh : Represents capacity (ofCapacity capacity growth) ByteList.empty :=
    .empty (capacity_ofCapacity capacity growth) (contents_ofCapacity capacity growth)
  obtain ⟨sameReplies, represents⟩ :=
    (refines_behavior capacity).obeyAll (.cons fresh .nil) commands
  exact ⟨sameReplies, represents, atomic_perform⟩

/-- Stacks of one capacity that hold the same bytes give the same replies, whichever way they grow
and whatever is left in the cells above their tops. -/
theorem replies_congr {stack other : Stack} (sized : stack.capacity = other.capacity)
    (fits : stack.top ≤ stack.capacity) (same : stack.contents = other.contents)
    (commands : List Command) :
    (obeyAll behavior commands [stack]).1 = (obeyAll behavior commands [other]).1 := by
  let list : ByteList other.capacity :=
    ⟨other.contents, by rw [← same, length_contents, ← sized]; exact fits⟩
  have first : Represents other.capacity stack list := ⟨sized, same⟩
  have second : Represents other.capacity other list := ⟨rfl, rfl⟩
  have refines := refines_behavior other.capacity
  rw [(refines.obeyAll (.cons first .nil) commands).1,
    (refines.obeyAll (.cons second .nil) commands).1]

/-- A wide value is popped from a copy word by word. In the original, zeros take its place. -/
example :
    (obeyAll behavior
      [.apply 0 (.push .wide (0x100000002 : UInt64)), .clone 0, .apply 1 (.pop .word), .apply 0 .reset,
        .apply 0 (.reserve 4), .apply 1 (.pop .word), .apply 0 (.readWord 0), .apply 0 (.readWord 1)]
      [ofCapacity 8 .downward]).1 =
    [some ⟨.ok .done, 8⟩, some ⟨.ok .done, 8⟩, some ⟨.ok (.value .word (1 : UInt32)), 4⟩,
      some ⟨.ok .done, 0⟩, some ⟨.ok .done, 4⟩, some ⟨.ok (.value .word (2 : UInt32)), 0⟩,
      some ⟨.ok (.value .word (0 : UInt32)), 4⟩, some ⟨.error (.stackUnderflow 4 3), 4⟩] := by
  rfl

end Stack

end Tandem

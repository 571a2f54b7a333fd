import Mathlib.Data.Finset.Card
import Tandem.Proofs.Instruction.Extent
import Tandem.Proofs.Iteration
import Tandem.Threaded.Linking

/-!
# The table of operations

While an image is linked, its table has decoded operations up to some index and pending ones from
there on. `Linking` is what every round keeps: no offset stands in the table twice, decoded
operations agree with the decoder, and their links lead where the instruction leads.

The table is finished within its `2 * size + 1` rounds because every operation beyond the first one
was added by a decoded operation. Such operations stand at different offsets inside the image, and
each of them adds at most two (`Linking.size_le`). So the rounds run out only after the operations
do (`linked_decodedOps`).
-/

namespace Tandem.Threaded

variable {image : Image} {ops table : Array Op} {index offset : Nat}

/-- The operation at `index` of a table stands at `offset`. -/
def Stands (ops : Array Op) (offset index : Nat) : Prop := ops[index]?.map Op.offset = some offset

namespace Op

/-- The offset just past an operation, if control can fall through to it. -/
def fallThrough? (op : Op) : Option Nat :=
  match op.decoded with
  | .ok instruction => Threaded.fallThrough? op.offset instruction
  | .error _ => none

/-- The offset that an operation jumps to or calls. -/
def destination? (op : Op) : Option Nat :=
  match op.decoded with
  | .ok instruction => Threaded.destination? op.offset instruction
  | .error _ => none

/-- An operation says what its bytes say, and its links lead where they lead. -/
structure Settled (image : Image) (ops : Array Op) (op : Op) : Prop where
  decoded : op.decoded = Instruction.decode image op.offset
  next : Option.Rel (Stands ops) op.fallThrough? op.next
  taken : Option.Rel (Stands ops) op.destination? op.taken

/-- Links stay right as long as no operation of the table moves. -/
theorem Settled.mono {op : Op} (settled : op.Settled image ops)
    (kept : ∀ offset index, Stands ops offset index → Stands table offset index) :
    op.Settled image table where
  decoded := settled.decoded
  next := settled.next.mono kept
  taken := settled.taken.mono kept

end Op

theorem stands_iff : Stands ops offset index ↔ ∃ op, ops[index]? = some op ∧ op.offset = offset :=
  Option.map_eq_some_iff

theorem Stands.lt (stands : Stands ops offset index) : index < ops.size := by
  obtain ⟨op, found, -⟩ := stands_iff.mp stands
  exact (Array.getElem?_eq_some_iff.mp found).1

/-- Replacing an operation by one at the same offset moves nothing. -/
theorem stands_setIfInBounds {op op' : Op} {place : Nat} (found : ops[place]? = some op)
    (same : op'.offset = op.offset) :
    Stands (ops.setIfInBounds place op') offset index ↔ Stands ops offset index := by
  simp only [Stands, Array.getElem?_setIfInBounds]
  by_cases here : place = index
  · subst here
    have inside := (Array.getElem?_eq_some_iff.mp found).1
    simp only [if_true, inside, found, Option.map_some, same]
  · rw [if_neg here]

/-! ## Making places -/

/-- A table with up to `count` pending operations more at its end. -/
structure Grows (count : Nat) (ops table : Array Op) : Prop where
  size : ops.size ≤ table.size ∧ table.size ≤ ops.size + count
  old : ∀ index, index < ops.size → table[index]? = ops[index]?
  new : ∀ index op, ops.size ≤ index → table[index]? = some op → op = .pending op.offset
  distinct : (∀ offset i j, Stands ops offset i → Stands ops offset j → i = j) →
    ∀ offset i j, Stands table offset i → Stands table offset j → i = j

namespace Grows

variable {count more : Nat}

theorem refl (ops : Array Op) : Grows 0 ops ops where
  size := ⟨Nat.le_refl _, Nat.le_refl _⟩
  old _ _ := rfl
  new index op beyond found := by
    have := (Array.getElem?_eq_some_iff.mp found).1
    omega
  distinct := id

theorem trans {further : Array Op} (first : Grows count ops table)
    (second : Grows more table further) : Grows (count + more) ops further where
  size := by
    have := first.size
    have := second.size
    omega
  old index inside := by
    rw [second.old index (Nat.lt_of_lt_of_le inside first.size.1), first.old index inside]
  new index op beyond found := by
    rcases Nat.lt_or_ge index table.size with inside | outside
    · exact first.new index op beyond (by rwa [second.old index inside] at found)
    · exact second.new index op outside found
  distinct apart := second.distinct (first.distinct apart)

theorem weaken (grows : Grows count ops table) (le : count ≤ more) : Grows more ops table :=
  { grows with size := ⟨grows.size.1, Nat.le_trans grows.size.2 (Nat.add_le_add_left le _)⟩ }

theorem stands (grows : Grows count ops table) (stands : Stands ops offset index) :
    Stands table offset index := by
  rw [Stands, grows.old index stands.lt]
  exact stands

end Grows

/-- A place is found or made for every offset, and nothing else changes. -/
theorem grows_place (offset : Nat) (ops : Array Op) :
    Grows 1 ops (place offset ops).2 ∧ Stands (place offset ops).2 offset (place offset ops).1 := by
  cases search : ops.findIdx? (·.offset == offset) with
  | some index =>
    simp only [place, search]
    obtain ⟨inside, here, -⟩ := Array.findIdx?_eq_some_iff_getElem.mp search
    refine ⟨(Grows.refl ops).weaken (Nat.zero_le 1), ?_⟩
    exact stands_iff.mpr ⟨ops[index], Array.getElem?_eq_getElem inside, by simpa using here⟩
  | none =>
    simp only [place, search]
    have absent : ∀ i, ¬ Stands ops offset i := by
      intro i stands
      obtain ⟨op, found, here⟩ := stands_iff.mp stands
      have elsewhere := Array.findIdx?_eq_none_iff.mp search op (Array.mem_of_getElem? found)
      rw [here] at elsewhere
      simp at elsewhere
    have pushed : ∀ other i, Stands (ops.push (.pending offset)) other i →
        (i = ops.size ∧ other = offset) ∨ Stands ops other i := by
      intro other i stands
      rw [Stands, Array.getElem?_push] at stands
      split at stands
      · case isTrue last => exact .inl ⟨last, (Option.some.inj stands).symm⟩
      · exact .inr stands
    refine ⟨⟨?_, ?_, ?_, ?_⟩, ?_⟩
    · rw [Array.size_push]
      omega
    · intro i inside
      rw [Array.getElem?_push, if_neg (by omega)]
    · intro i op beyond found
      rw [Array.getElem?_push] at found
      split at found
      · cases found
        rfl
      · have := (Array.getElem?_eq_some_iff.mp found).1
        omega
    · intro apart other i j first second
      rcases pushed other i first with ⟨one, here⟩ | old <;>
        rcases pushed other j second with ⟨two, here'⟩ | old'
      · omega
      · exact absurd (here ▸ old') (absent j)
      · exact absurd (here' ▸ old) (absent i)
      · exact apart other i j old old'
    · rw [Stands, Array.getElem?_push, if_pos rfl]
      rfl

/-- A link leads to the offset it was made for. -/
theorem grows_link (offset? : Option Nat) (ops : Array Op) :
    Grows 1 ops (link offset? ops).2 ∧
      Option.Rel (Stands (link offset? ops).2) offset? (link offset? ops).1 := by
  cases offset? with
  | none => exact ⟨(Grows.refl ops).weaken (Nat.zero_le 1), .none⟩
  | some offset =>
    obtain ⟨grows, stands⟩ := grows_place offset ops
    exact ⟨grows, .some stands⟩

/-! ## Rounds -/

/-- What holds of a table while its operations are decoded, with `index` the next one. -/
structure Linking (image : Image) (index : Nat) (ops : Array Op) : Prop where
  entry : Stands ops image.entry 0
  distinct : ∀ offset i j, Stands ops offset i → Stands ops offset j → i = j
  settled : ∀ i op, i < index → ops[i]? = some op → op.Settled image ops
  waiting : ∀ i op, index ≤ i → ops[i]? = some op → op = .pending op.offset
  bounded : ∃ seen : Finset Nat,
    (∀ offset ∈ seen, offset < image.size ∧ ∃ i, i < index ∧ Stands ops offset i) ∧
      ops.size ≤ 1 + 2 * seen.card

theorem linking_start (image : Image) : Linking image 0 #[Op.pending image.entry] where
  entry := rfl
  distinct offset i j first second := by
    have one := first.lt
    have two := second.lt
    simp at one two
    omega
  settled i op before _ := absurd before (Nat.not_lt_zero i)
  waiting i op _ found := by
    obtain ⟨inside, rfl⟩ := Array.getElem?_eq_some_iff.mp found
    simp only [List.size_toArray, List.length_singleton] at inside
    obtain rfl : i = 0 := by omega
    rfl
  bounded := ⟨∅, by simp, by simp⟩

namespace Linking

/-- A table never outgrows twice the image and one. -/
theorem size_le (linking : Linking image index ops) : ops.size ≤ 2 * image.size + 1 := by
  obtain ⟨seen, inside, bound⟩ := linking.bounded
  have few : seen.card ≤ (Finset.range image.size).card :=
    Finset.card_le_card fun offset member => Finset.mem_range.mpr (inside offset member).1
  rw [Finset.card_range] at few
  omega

/-- Putting a decoded operation in the place of the next pending one, in a table that has grown by
its successors. -/
theorem settle {op op' : Op} (linking : Linking image index ops) (found : ops[index]? = some op)
    (grows : Grows 2 ops table) (same : op'.offset = op.offset) (settled : op'.Settled image table)
    (earned : op.offset < image.size ∨ table.size = ops.size) :
    Linking image (index + 1) (table.setIfInBounds index op') := by
  have inside := (Array.getElem?_eq_some_iff.mp found).1
  have found' : table[index]? = some op := by rw [grows.old index inside, found]
  have inside' := (Array.getElem?_eq_some_iff.mp found').1
  have moved : ∀ {offset i}, Stands (table.setIfInBounds index op') offset i ↔
      Stands table offset i := stands_setIfInBounds found' same
  refine ⟨moved.mpr (grows.stands linking.entry), fun offset i j first second => ?_,
    fun i other before found'' => ?_, fun i other beyond found'' => ?_, ?_⟩
  · exact grows.distinct linking.distinct offset i j (moved.mp first) (moved.mp second)
  · rw [Array.getElem?_setIfInBounds] at found''
    by_cases here : index = i
    · rw [if_pos here, if_pos inside'] at found''
      cases found''
      exact settled.mono fun _ _ => moved.mpr
    · rw [if_neg here, grows.old i (by omega)] at found''
      exact (linking.settled i other (by omega) found'').mono fun _ _ stands =>
        moved.mpr (grows.stands stands)
  · rw [Array.getElem?_setIfInBounds, if_neg (by omega)] at found''
    rcases Nat.lt_or_ge i ops.size with old | new
    · rw [grows.old i old] at found''
      exact linking.waiting i other (by omega) found''
    · exact grows.new i other new found''
  · obtain ⟨seen, known, bound⟩ := linking.bounded
    have growth := grows.size
    rw [Array.size_setIfInBounds]
    have here : Stands (table.setIfInBounds index op') op.offset index :=
      moved.mpr (stands_iff.mpr ⟨op, found', rfl⟩)
    have still : ∀ offset ∈ seen, offset < image.size ∧
        ∃ i, i < index + 1 ∧ Stands (table.setIfInBounds index op') offset i := by
      intro offset member
      obtain ⟨low, i, before, stands⟩ := known offset member
      exact ⟨low, i, by omega, moved.mpr (grows.stands stands)⟩
    rcases earned with low | unchanged
    · have fresh : op.offset ∉ seen := by
        intro member
        obtain ⟨-, i, before, stands⟩ := known _ member
        have := linking.distinct _ i index stands (stands_iff.mpr ⟨op, found, rfl⟩)
        omega
      refine ⟨insert op.offset seen, fun offset member => ?_, ?_⟩
      · rcases Finset.mem_insert.mp member with rfl | old
        · exact ⟨low, index, by omega, here⟩
        · exact still offset old
      · rw [Finset.card_insert_of_notMem fresh]
        omega
    · exact ⟨seen, still, by omega⟩

/-- Decoding the next operation settles it. -/
theorem decodeOp (linking : Linking image index ops) (more : index < ops.size) :
    Linking image (index + 1) (decodeOp image index ops) := by
  obtain ⟨op, found⟩ : ∃ op, ops[index]? = some op := ⟨ops[index], Array.getElem?_eq_getElem more⟩
  have waiting := linking.waiting index op (Nat.le_refl _) found
  simp only [Threaded.decodeOp, found]
  cases decoded : Instruction.decode image op.offset with
  | error fault =>
    refine linking.settle found ((Grows.refl ops).weaken (Nat.zero_le 2)) rfl ?_ (.inr rfl)
    refine ⟨decoded.symm, ?_, ?_⟩
    · rw [waiting]
      exact .none
    · rw [waiting]
      exact .none
  | ok instruction =>
    obtain ⟨grows, next⟩ := grows_link (fallThrough? op.offset instruction) ops
    obtain ⟨grows', taken⟩ := grows_link (destination? op.offset instruction)
      (link (fallThrough? op.offset instruction) ops).2
    refine linking.settle found (grows.trans grows') rfl ?_
      (.inl (Instruction.lt_size_of_decode decoded))
    exact ⟨decoded.symm, next.mono fun _ _ => grows'.stands, taken⟩

/-- Decoding from the next operation on leaves no operation pending. -/
theorem decodeFrom {rounds : Nat} (linking : Linking image index ops)
    (enough : index + rounds = 2 * image.size + 1) :
    ∃ last, Linking image last (decodeFrom image rounds index ops) ∧
      (decodeFrom image rounds index ops).size ≤ last := by
  induction rounds generalizing index ops with
  | zero =>
    have := linking.size_le
    exact ⟨index, linking, by rw [Threaded.decodeFrom]; omega⟩
  | succ rounds ih =>
    rw [Threaded.decodeFrom]
    by_cases more : index < ops.size
    · rw [if_pos more]
      exact ih (linking.decodeOp more) (by omega)
    · rw [if_neg more]
      exact ⟨index, linking, by omega⟩

end Linking

/-- The finished table of an image. -/
theorem linking_decodedOps (image : Image) :
    ∃ last, Linking image last (decodedOps image) ∧ (decodedOps image).size ≤ last :=
  (linking_start image).decodeFrom (by omega)

end Tandem.Threaded

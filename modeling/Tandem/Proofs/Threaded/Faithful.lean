import Tandem.Proofs.Threaded.Table

/-!
# Threaded code is faithful to its image

The finished code of an image: operation 0 stands at the entry, every operation says what the image
says at its offset, links and resume entries lead to operations at the right offsets
(`faithful_ofImage`). Numbering the calls changes nothing of this. As long as the calls do not
outnumber the ids, the id of a call names the entry of that call (`resume?_continuation`).
-/

namespace Tandem.Threaded

variable {image : Image}

/-! ## Numbering -/

/-- An operation at the place of `op` once the calls before it, `before` in number, have their
ids. -/
def Op.numbered (op : Op) (before : Nat) : Op :=
  match op.resume? with
  | some _ => { op with continuation := (before + 1).toUInt32 }
  | none => op

@[simp] theorem Op.offset_numbered (op : Op) (before : Nat) :
    (op.numbered before).offset = op.offset := by
  unfold numbered
  split <;> rfl

@[simp] theorem Op.resume?_numbered (op : Op) (before : Nat) :
    (op.numbered before).resume? = op.resume? := by
  unfold numbered
  split <;> rfl

/-- The place of an operation decides its id: it counts the calls up to it. -/
theorem getElem?_numberCalls (count : Nat) (ops : List Op) (index : Nat) :
    (numberCalls count ops)[index]? =
      ops[index]?.map (·.numbered (count + ((ops.take index).filterMap Op.resume?).length)) := by
  induction ops generalizing count index with
  | nil => rfl
  | cons op rest ih =>
    cases resumes : op.resume? with
    | some resume =>
      rw [numberCalls, resumes]
      cases index with
      | zero => simp [Op.numbered, resumes]
      | succ index =>
        simp only [List.getElem?_cons_succ, List.take_succ_cons, ih,
          List.filterMap_cons_some resumes, List.length_cons]
        rw [show count + 1 + ((rest.take index).filterMap Op.resume?).length =
          count + (((rest.take index).filterMap Op.resume?).length + 1) by omega]
    | none =>
      rw [numberCalls, resumes]
      cases index with
      | zero => simp [Op.numbered, resumes]
      | succ index =>
        simp only [List.getElem?_cons_succ, List.take_succ_cons, ih,
          List.filterMap_cons_none resumes]

/-- An operation of the finished code is an operation of the table with its number. -/
theorem getElem?_ops (image : Image) (index : Nat) :
    (Code.ofImage image).ops[index]? = (decodedOps image)[index]?.map
      (·.numbered (((decodedOps image).toList.take index).filterMap Op.resume?).length) := by
  simp only [Code.ofImage, List.getElem?_toArray, getElem?_numberCalls, Nat.zero_add,
    Array.getElem?_toList]

/-- The entry that a call adds to the resume table stands where it was counted. -/
theorem getElem?_filterMap_take {α β : Type} {f : α → Option β} {list : List α} {index : Nat}
    {a : α} {b : β} (found : list[index]? = some a) (kept : f a = some b) :
    (list.filterMap f)[((list.take index).filterMap f).length]? = some b := by
  obtain ⟨inside, rfl⟩ := List.getElem?_eq_some_iff.mp found
  have split : list.filterMap f =
      (list.take index).filterMap f ++ b :: (list.drop (index + 1)).filterMap f := by
    rw [← List.filterMap_cons_some kept, List.getElem_cons_drop inside, ← List.filterMap_append,
      List.take_append_drop]
  rw [split, List.getElem?_append_right (Nat.le_refl _), Nat.sub_self]
  rfl

/-! ## Faithful code -/

/-- Code that says what an image says. -/
structure Code.Faithful (image : Image) (code : Code) : Prop where
  entry : Stands code.ops image.entry 0
  settled : ∀ (index : Nat) (op : Op), code.ops[index]? = some op → op.Settled image code.ops
  resumes : ∀ id resume, code.resume? id = some resume →
    Stands code.ops resume.returnOffset resume.op

theorem stands_ops {offset index : Nat} :
    Stands (Code.ofImage image).ops offset index ↔ Stands (decodedOps image) offset index := by
  rw [Stands, Stands, getElem?_ops]
  cases (decodedOps image)[index]? with
  | none => simp
  | some op => simp

/-- A settled call goes on at the operation just past it. -/
theorem Op.Settled.resume {ops : Array Op} {op : Op} {resume : Resume}
    (settled : op.Settled image ops) (call : op.resume? = some resume) :
    Stands ops resume.returnOffset resume.op := by
  unfold Op.resume? at call
  split at call
  · rename_i width target next decoded linked
    cases call
    have link := settled.next
    rw [linked, Op.fallThrough?, decoded] at link
    cases link with
    | some stands =>
      rw [show Op.nextOffset op = op.offset + (Instruction.call width target).length by
        rw [Op.nextOffset, Op.length, decoded]]
      exact stands
  · cases call

theorem faithful_ofImage (image : Image) : (Code.ofImage image).Faithful image := by
  obtain ⟨last, linking, complete⟩ := linking_decodedOps image
  have settled : ∀ (index : Nat) (op : Op), (decodedOps image)[index]? = some op →
      op.Settled image (decodedOps image) := by
    intro index op found
    have inside := (Array.getElem?_eq_some_iff.mp found).1
    exact linking.settled index op (by omega) found
  refine ⟨stands_ops.mpr linking.entry, fun index op found => ?_, fun id resume found => ?_⟩
  · rw [getElem?_ops, Option.map_eq_some_iff] at found
    obtain ⟨op, found, rfl⟩ := found
    have moved := (settled index op found).mono fun _ _ => stands_ops.mpr
    unfold Op.numbered
    split
    · exact ⟨moved.decoded, moved.next, moved.taken⟩
    · exact moved
  · unfold Code.resume? at found
    split at found
    · cases found
    · have member := Array.mem_of_getElem? found
      obtain ⟨op, belongs, call⟩ := Array.mem_filterMap.mp member
      obtain ⟨index, found⟩ := Array.mem_iff_getElem?.mp belongs
      exact stands_ops.mpr ((settled index op found).resume call)

/-- The id of a call names the entry of that call, unless there are too many calls for ids. -/
theorem resume?_continuation (few : (Code.ofImage image).resumes.size < UInt32.size) {index : Nat}
    {op : Op} {resume : Resume} (found : (Code.ofImage image).ops[index]? = some op)
    (call : op.resume? = some resume) :
    (Code.ofImage image).resume? op.continuation = some resume := by
  rw [getElem?_ops, Option.map_eq_some_iff] at found
  obtain ⟨op, found, rfl⟩ := found
  rw [Op.resume?_numbered] at call
  rw [← Array.getElem?_toList] at found
  have entry := getElem?_filterMap_take found call
  revert entry
  generalize (((decodedOps image).toList.take index).filterMap Op.resume?).length = before
  intro entry
  have table : (Code.ofImage image).resumes[before]? = some resume := by
    rw [← entry, ← Array.getElem?_toList]
    simp [Code.ofImage]
  have inside := (Array.getElem?_eq_some_iff.mp table).1
  have number : (before + 1).toUInt32.toNat = before + 1 :=
    Nat.mod_eq_of_lt (Nat.lt_of_le_of_lt inside few)
  rw [Op.numbered, call]
  simp only [Code.resume?, number]
  exact table

end Tandem.Threaded

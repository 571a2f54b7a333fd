import Tandem.Instruction.Encoding
import Tandem.Proofs.Machine.Returns
import Tandem.Proofs.Threaded.Dispatch
import Tandem.Proofs.Threaded.Faithful

/-!
# The code of an image charts what control can reach

Control goes from one instruction of an image to another in two ways: it falls through to the offset
just past an instruction (`FallsTo`), or it follows a target (`LeadsTo`). The offsets that it reaches
from the entry in any number of such moves (`Reachable`) are the offsets of the linked code, each of
them once, and the links of the code are these moves (`Code.Charts`). The calls among the operations
are numbered in table order from one (`Code.Numbers`).

Linking takes one round for each operation. Rounds beyond that change nothing
(`decodeFrom_eq_decodedOps`), so the number of rounds that the definition allows for is not what
ends it.
-/

namespace Tandem

/-- Control never goes on just past the instruction: it is an unconditional jump, a return or the
exit. -/
def Instruction.Diverts (instruction : Instruction) : Prop :=
  (∃ width target, instruction = .jump .always width target) ∨
    (∃ count, instruction.released? = some count) ∨ instruction = .exit

theorem Instruction.fallsThrough_iff {instruction : Instruction} :
    instruction.fallsThrough = true ↔ ¬ instruction.Diverts := by
  constructor
  · rintro through (⟨width, target, rfl⟩ | ⟨count, returns⟩ | rfl)
    · cases through
    · cases instruction <;> cases returns <;> cases through
    · cases through
  · intro stays
    cases instruction with
    | jump condition width target =>
      cases condition with
      | always => exact absurd (.inl ⟨width, target, rfl⟩) stays
      | _ => rfl
    | ret => exact absurd (.inr (.inl ⟨_, rfl⟩)) stays
    | retShort count => exact absurd (.inr (.inl ⟨_, rfl⟩)) stays
    | retLong count => exact absurd (.inr (.inl ⟨_, rfl⟩)) stays
    | retWith value => exact absurd (.inr (.inl ⟨_, rfl⟩)) stays
    | retLongWith count value => exact absurd (.inr (.inl ⟨_, rfl⟩)) stays
    | exit => exact absurd (.inr (.inr rfl)) stays
    | _ => rfl

/-- An instruction that jumps to a target or calls it. -/
def Instruction.Aims (instruction : Instruction) (target : Target) : Prop :=
  (∃ condition width, instruction = .jump condition width target) ∨
    ∃ width, instruction = .call width target

theorem Instruction.target?_eq_some {instruction : Instruction} {target : Target} :
    instruction.target? = some target ↔ instruction.Aims target := by
  constructor
  · intro aims
    cases instruction with
    | jump condition width target =>
      cases aims
      exact .inl ⟨condition, width, rfl⟩
    | call width target =>
      cases aims
      exact .inr ⟨width, rfl⟩
    | _ => cases aims
  · rintro (⟨condition, width, rfl⟩ | ⟨width, rfl⟩) <;> rfl

namespace Threaded

variable {image : Image} {ops : Array Op} {index offset : Nat}

/-! ## Where control can go -/

/-- Control falls through from the instruction at `offset` to `next`. -/
def FallsTo (image : Image) (offset next : Nat) : Prop :=
  ∃ instruction, Instruction.decode image offset = .ok instruction ∧ ¬ instruction.Diverts ∧
    next = offset + instruction.length

/-- The instruction at `offset` jumps to `destination` or calls it. -/
def LeadsTo (image : Image) (offset destination : Nat) : Prop :=
  ∃ instruction target, Instruction.decode image offset = .ok instruction ∧
    instruction.Aims target ∧ target.resolve (offset + instruction.length) = .ok destination

/-- Control can come to an offset from the entry. -/
inductive Reachable (image : Image) : Nat → Prop
  | entry : Reachable image image.entry
  | next {offset next : Nat} (before : Reachable image offset) (falls : FallsTo image offset next) :
    Reachable image next
  | taken {offset destination : Nat} (before : Reachable image offset)
    (leads : LeadsTo image offset destination) : Reachable image destination

theorem fallThrough?_eq_some {instruction : Instruction} {next : Nat}
    (decoded : Instruction.decode image offset = .ok instruction) :
    fallThrough? offset instruction = some next ↔ FallsTo image offset next := by
  simp only [fallThrough?, FallsTo, decoded, Except.ok.injEq, exists_eq_left',
    Instruction.fallsThrough_iff, Option.ite_none_right_eq_some, Option.some.injEq]
  rw [eq_comm (a := next)]

theorem destination?_eq_some {instruction : Instruction} {destination : Nat}
    (decoded : Instruction.decode image offset = .ok instruction) :
    destination? offset instruction = some destination ↔ LeadsTo image offset destination := by
  have resolved : ∀ target : Target,
      (target.resolve (offset + instruction.length)).toOption = some destination ↔
        target.resolve (offset + instruction.length) = .ok destination := by
    intro target
    cases target.resolve (offset + instruction.length) <;> simp [Except.toOption]
  simp only [destination?, LeadsTo, decoded, Except.ok.injEq, exists_and_left, exists_eq_left',
    Option.bind_eq_some_iff, Instruction.target?_eq_some, resolved]

/-! ## Linking keeps to it -/

/-- An operation that control can come to, and that has no number yet. -/
structure Op.Charted (image : Image) (op : Op) : Prop where
  reachable : Reachable image op.offset
  unnumbered : op.continuation = rootId

theorem charted_place (reached : Reachable image offset) (charted : ∀ op ∈ ops, op.Charted image) :
    ∀ op ∈ (place offset ops).2, op.Charted image := by
  unfold place
  cases ops.findIdx? (·.offset == offset) with
  | some index => exact charted
  | none =>
    intro op member
    rcases Array.mem_push.mp member with old | rfl
    · exact charted op old
    · exact ⟨reached, rfl⟩

theorem charted_link {offset? : Option Nat}
    (reached : ∀ offset, offset? = some offset → Reachable image offset)
    (charted : ∀ op ∈ ops, op.Charted image) :
    ∀ op ∈ (link offset? ops).2, op.Charted image := by
  cases offset? with
  | none => exact charted
  | some offset => exact charted_place (reached offset rfl) charted

theorem charted_set {op : Op} (known : op.Charted image) (charted : ∀ op ∈ ops, op.Charted image) :
    ∀ other ∈ ops.setIfInBounds index op, other.Charted image := by
  intro other member
  rcases Array.mem_or_eq_of_mem_setIfInBounds member with old | rfl
  · exact charted other old
  · exact known

theorem decodeOp_of_missing (missing : ops[index]? = none) : decodeOp image index ops = ops := by
  simp only [decodeOp, missing]

theorem decodeOp_of_undecodable {op : Op} {fault : Fault} (found : ops[index]? = some op)
    (decoded : Instruction.decode image op.offset = .error fault) :
    decodeOp image index ops = ops.setIfInBounds index { op with decoded := .error fault } := by
  simp only [decodeOp, found, decoded]

theorem decodeOp_of_decoded {op : Op} {instruction : Instruction} (found : ops[index]? = some op)
    (decoded : Instruction.decode image op.offset = .ok instruction) :
    decodeOp image index ops =
      let (next, linked) := link (fallThrough? op.offset instruction) ops
      let (taken, linked) := link (destination? op.offset instruction) linked
      linked.setIfInBounds index { op with decoded := .ok instruction, next, taken } := by
  simp only [decodeOp, found, decoded]

theorem charted_decodeOp (charted : ∀ op ∈ ops, op.Charted image) :
    ∀ op ∈ decodeOp image index ops, op.Charted image := by
  cases found : ops[index]? with
  | none =>
    rw [decodeOp_of_missing found]
    exact charted
  | some op =>
    have known := charted op (Array.mem_of_getElem? found)
    cases decoded : Instruction.decode image op.offset with
    | error fault =>
      rw [decodeOp_of_undecodable found decoded]
      exact charted_set ⟨known.reachable, known.unnumbered⟩ charted
    | ok instruction =>
      rw [decodeOp_of_decoded found decoded]
      refine charted_set ⟨known.reachable, known.unnumbered⟩ (charted_link ?_ (charted_link ?_ charted))
      · intro destination leads
        exact .taken known.reachable ((destination?_eq_some decoded).mp leads)
      · intro next falls
        exact .next known.reachable ((fallThrough?_eq_some decoded).mp falls)

theorem charted_decodeFrom {rounds : Nat} (charted : ∀ op ∈ ops, op.Charted image) :
    ∀ op ∈ decodeFrom image rounds index ops, op.Charted image := by
  induction rounds generalizing index ops with
  | zero => exact charted
  | succ rounds ih =>
    rw [decodeFrom]
    split
    · exact ih (charted_decodeOp charted)
    · exact charted

theorem charted_decodedOps (image : Image) : ∀ op ∈ decodedOps image, op.Charted image := by
  refine charted_decodeFrom fun op member => ?_
  obtain rfl : op = Op.pending image.entry := by simpa using member
  exact ⟨.entry, rfl⟩

/-! ## Rounds -/

theorem size_decodeOp (image : Image) (index : Nat) (ops : Array Op) :
    ops.size ≤ (decodeOp image index ops).size := by
  cases found : ops[index]? with
  | none => rw [decodeOp_of_missing found]
  | some op =>
    cases decoded : Instruction.decode image op.offset with
    | error fault => rw [decodeOp_of_undecodable found decoded, Array.size_setIfInBounds]
    | ok instruction =>
      rw [decodeOp_of_decoded found decoded, Array.size_setIfInBounds]
      have first := (grows_link (fallThrough? op.offset instruction) ops).1.size.1
      have second := (grows_link (destination? op.offset instruction)
        (link (fallThrough? op.offset instruction) ops).2).1.size.1
      exact Nat.le_trans first second

theorem size_decodeFrom (image : Image) (rounds index : Nat) (ops : Array Op) :
    ops.size ≤ (decodeFrom image rounds index ops).size := by
  induction rounds generalizing index ops with
  | zero => exact Nat.le_refl _
  | succ rounds ih =>
    rw [decodeFrom]
    split
    · exact Nat.le_trans (size_decodeOp image index ops) (ih _ _)
    · exact Nat.le_refl _

theorem decodeFrom_of_done {rounds : Nat} (done : ops.size ≤ index) :
    decodeFrom image rounds index ops = ops := by
  cases rounds with
  | zero => rfl
  | succ rounds => rw [decodeFrom, if_neg (by omega)]

/-- Once there are rounds for all operations, their number does not matter. -/
theorem decodeFrom_congr {rounds enough : Nat}
    (complete : (decodeFrom image enough index ops).size ≤ index + enough)
    (covers : (decodeFrom image enough index ops).size ≤ index + rounds) :
    decodeFrom image rounds index ops = decodeFrom image enough index ops := by
  induction enough generalizing rounds index ops with
  | zero =>
    have complete : ops.size ≤ index := complete
    exact decodeFrom_of_done complete
  | succ enough ih =>
    by_cases more : index < ops.size
    · rw [decodeFrom, if_pos more] at complete covers ⊢
      have grown := Nat.le_trans (size_decodeOp image index ops)
        (size_decodeFrom image enough (index + 1) (decodeOp image index ops))
      obtain ⟨rounds, rfl⟩ : ∃ rest, rounds = rest + 1 := ⟨rounds - 1, by omega⟩
      rw [decodeFrom, if_pos more]
      exact ih (by omega) (by omega)
    · have done : ops.size ≤ index := by omega
      rw [decodeFrom_of_done done, decodeFrom_of_done done]

theorem size_decodedOps (image : Image) : (decodedOps image).size ≤ 2 * image.size + 1 := by
  obtain ⟨last, linking, -⟩ := linking_decodedOps image
  exact linking.size_le

/-- One round for each operation links an image, and more rounds do nothing. -/
theorem decodeFrom_eq_decodedOps {rounds : Nat} (covers : (decodedOps image).size ≤ rounds) :
    decodeFrom image rounds 0 #[Op.pending image.entry] = decodedOps image := by
  have complete := size_decodedOps image
  refine decodeFrom_congr ?_ ?_
  · rwa [Nat.zero_add]
  · rwa [Nat.zero_add]

/-! ## Links -/

/-- The code says of every offset that control can reach what stands there and where control goes
from it. -/
structure Code.Charts (image : Image) (code : Code) : Prop where
  size : code.ops.size ≤ 2 * image.size + 1
  entry : Stands code.ops image.entry 0
  distinct : ∀ offset i j, Stands code.ops offset i → Stands code.ops offset j → i = j
  reachable : ∀ offset, (∃ index, Stands code.ops offset index) ↔ Reachable image offset
  decoded : ∀ op ∈ code.ops, op.decoded = Instruction.decode image op.offset
  length : ∀ op ∈ code.ops, ∀ instruction,
    Instruction.decode image op.offset = .ok instruction → op.length = instruction.length
  /-- Bytes that do not decode have no length. -/
  lengthFault : ∀ op ∈ code.ops, ∀ fault,
    Instruction.decode image op.offset = .error fault → op.length = 0
  next : ∀ op ∈ code.ops, ∀ index,
    op.next = some index ↔ ∃ next, FallsTo image op.offset next ∧ Stands code.ops next index
  taken : ∀ op ∈ code.ops, ∀ index,
    op.taken = some index ↔
      ∃ destination, LeadsTo image op.offset destination ∧ Stands code.ops destination index

/-- A link is what its offset stands at, if offsets stand at one place. -/
theorem eq_some_iff_of_rel {offset? link : Option Nat}
    (distinct : ∀ offset i j, Stands ops offset i → Stands ops offset j → i = j)
    (linked : Option.Rel (Stands ops) offset? link) :
    link = some index ↔ ∃ offset, offset? = some offset ∧ Stands ops offset index := by
  cases linked with
  | none => simp
  | @some offset index' stands =>
    constructor
    · rintro ⟨rfl⟩
      exact ⟨offset, rfl, stands⟩
    · rintro ⟨offset, ⟨rfl⟩, here⟩
      rw [distinct _ _ _ stands here]

/-- A link is there if it has somewhere to lead. -/
theorem exists_of_rel {link : Option Nat} (linked : Option.Rel (Stands ops) (some offset) link) :
    ∃ index, Stands ops offset index := by
  cases linked with
  | some stands => exact ⟨_, stands⟩

namespace Op.Settled

variable {op : Op}

theorem fallThrough?_iff (settled : op.Settled image ops) {next : Nat} :
    op.fallThrough? = some next ↔ FallsTo image op.offset next := by
  have decode := settled.decoded
  unfold Op.fallThrough?
  cases decoded : op.decoded with
  | ok instruction => exact fallThrough?_eq_some (decode.symm.trans decoded)
  | error fault => simp [FallsTo, ← decode, decoded]

theorem destination?_iff (settled : op.Settled image ops) {destination : Nat} :
    op.destination? = some destination ↔ LeadsTo image op.offset destination := by
  have decode := settled.decoded
  unfold Op.destination?
  cases decoded : op.decoded with
  | ok instruction => exact destination?_eq_some (decode.symm.trans decoded)
  | error fault => simp [LeadsTo, ← decode, decoded]

end Op.Settled

theorem size_numberCalls (count : Nat) (ops : List Op) :
    (numberCalls count ops).length = ops.length := by
  induction ops generalizing count with
  | nil => rfl
  | cons op rest ih =>
    rw [numberCalls]
    split <;> rw [List.length_cons, ih, List.length_cons]

theorem size_ops (image : Image) : (Code.ofImage image).ops.size = (decodedOps image).size := by
  simp [Code.ofImage, size_numberCalls]

theorem charts_ofImage (image : Image) : (Code.ofImage image).Charts image := by
  obtain ⟨last, linking, complete⟩ := linking_decodedOps image
  have faithful := faithful_ofImage image
  have settled : ∀ op ∈ (Code.ofImage image).ops, op.Settled image (Code.ofImage image).ops := by
    intro op member
    obtain ⟨index, found⟩ := Array.mem_iff_getElem?.mp member
    exact faithful.settled index op found
  have distinct : ∀ offset i j, Stands (Code.ofImage image).ops offset i →
      Stands (Code.ofImage image).ops offset j → i = j := fun offset i j first second =>
    linking.distinct offset i j (stands_ops.mp first) (stands_ops.mp second)
  -- Whatever stands in the table was put there for a move of control, and every move has its link.
  have sound : ∀ offset, (∃ index, Stands (Code.ofImage image).ops offset index) →
      Reachable image offset := by
    rintro offset ⟨index, stands⟩
    obtain ⟨op, found, rfl⟩ := stands_iff.mp (stands_ops.mp stands)
    exact (charted_decodedOps image op (Array.mem_of_getElem? found)).reachable
  have reached : ∀ offset, Reachable image offset →
      ∃ index, Stands (Code.ofImage image).ops offset index := by
    intro offset reachable
    induction reachable with
    | entry => exact ⟨0, faithful.entry⟩
    | next before falls ih =>
      obtain ⟨index, stands⟩ := ih
      obtain ⟨op, found, rfl⟩ := stands_iff.mp stands
      have link := (faithful.settled index op found).next
      rw [(faithful.settled index op found).fallThrough?_iff.mpr falls] at link
      exact exists_of_rel link
    | taken before leads ih =>
      obtain ⟨index, stands⟩ := ih
      obtain ⟨op, found, rfl⟩ := stands_iff.mp stands
      have link := (faithful.settled index op found).taken
      rw [(faithful.settled index op found).destination?_iff.mpr leads] at link
      exact exists_of_rel link
  refine ⟨?_, faithful.entry, distinct, fun offset => ⟨sound offset, reached offset⟩,
    fun op member => (settled op member).decoded, fun op member instruction decode => ?_,
    fun op member fault decode => ?_, fun op member index => ?_, fun op member index => ?_⟩
  · rw [size_ops]
    exact size_decodedOps image
  · rw [Op.length, (settled op member).decoded, decode]
  · rw [Op.length, (settled op member).decoded, decode]
  · rw [eq_some_iff_of_rel distinct (settled op member).next]
    simp only [(settled op member).fallThrough?_iff]
  · rw [eq_some_iff_of_rel distinct (settled op member).taken]
    simp only [(settled op member).destination?_iff]

/-! ## Numbers -/

/-- The operation is a call. -/
def Op.isCall (op : Op) : Bool :=
  match op.decoded with
  | .ok instruction => instruction.isCall
  | .error _ => false

/-- How many calls there are among the operations. -/
def Code.callSites (code : Code) : Nat := code.ops.toList.countP Op.isCall

/-- The calls are numbered in table order from one, and the number of a call says where it is
returned to. -/
structure Code.Numbers (code : Code) : Prop where
  root : ∀ op ∈ code.ops, op.continuation = rootId ↔ op.isCall = false
  ids : (code.ops.toList.filter Op.isCall).map (·.continuation.toNat) = List.range' 1 code.callSites
  resumes : ∀ op ∈ code.ops, op.isCall = true →
    ∃ index, code.resume? op.continuation = some ⟨op.nextOffset, index⟩ ∧
      Stands code.ops op.nextOffset index
  /-- No other number says anything. -/
  none : ∀ id, id = rootId ∨ code.callSites < id.toNat → code.resume? id = none

theorem Op.isCall_of_resume? {op : Op} {resume : Resume} (call : op.resume? = some resume) :
    op.isCall = true := by
  unfold Op.resume? at call
  split at call
  · rename_i decoded _
    rw [Op.isCall, decoded]
    rfl
  · cases call

/-- The calls of settled code are the operations with an entry in the resume table. -/
theorem Op.Settled.isCall_eq {op : Op} {code : Code} (settled : op.Settled image code.ops) :
    op.isCall = op.resume?.isSome := by
  cases entry : op.resume? with
  | some resume => exact Op.isCall_of_resume? entry
  | none =>
    unfold Op.isCall
    cases decoded : op.decoded with
    | error fault => rfl
    | ok instruction =>
      cases instruction with
      | call width target =>
        obtain ⟨resume, found⟩ := settled.resume_of_call decoded
        rw [entry] at found
        cases found
      | _ => rfl

theorem Op.isCall_numbered (op : Op) (before : Nat) : (op.numbered before).isCall = op.isCall := by
  unfold numbered
  split <;> rfl

theorem ids_numberCalls {count : Nat} {ops : List Op}
    (calls : ∀ op ∈ ops, op.isCall = op.resume?.isSome)
    (few : count + ops.countP Op.isCall < UInt32.size) :
    ((numberCalls count ops).filter Op.isCall).map (·.continuation.toNat) =
      List.range' (count + 1) (ops.countP Op.isCall) := by
  induction ops generalizing count with
  | nil => rfl
  | cons op rest ih =>
    have calls' : ∀ op ∈ rest, op.isCall = op.resume?.isSome := fun op member =>
      calls op (List.mem_cons_of_mem _ member)
    have here := calls op (List.mem_cons_self ..)
    cases entry : op.resume? with
    | none =>
      rw [entry] at here
      have plain : op.isCall = false := here
      rw [List.countP_cons_of_neg (by rw [plain]; simp)] at few ⊢
      rw [numberCalls, entry]
      dsimp only
      rw [List.filter_cons_of_neg (by rw [plain]; simp)]
      exact ih calls' few
    | some resume =>
      rw [entry] at here
      have call : op.isCall = true := here
      rw [List.countP_cons_of_pos call] at few ⊢
      have number : (count + 1).toUInt32.toNat = count + 1 :=
        Nat.mod_eq_of_lt (show count + 1 < UInt32.size by omega)
      have numbered : { op with continuation := (count + 1).toUInt32 }.isCall = true := call
      rw [numberCalls, entry]
      dsimp only
      rw [List.filter_cons_of_pos numbered, List.map_cons, ih calls' (by omega), List.range'_succ,
        number]

theorem countP_numberCalls (count : Nat) (ops : List Op) :
    (numberCalls count ops).countP Op.isCall = ops.countP Op.isCall := by
  induction ops generalizing count with
  | nil => rfl
  | cons op rest ih =>
    rw [numberCalls]
    split
    · rw [List.countP_cons, List.countP_cons, ih]
      rfl
    · rw [List.countP_cons, List.countP_cons, ih]

theorem callSites_ofImage (image : Image) :
    (Code.ofImage image).callSites = (decodedOps image).toList.countP Op.isCall :=
  countP_numberCalls 0 (decodedOps image).toList

/-- Calls are what has an entry in the resume table. -/
theorem isCall_eq_of_mem {op : Op} (member : op ∈ (decodedOps image).toList) :
    op.isCall = op.resume?.isSome := by
  obtain ⟨index, found⟩ := List.mem_iff_getElem?.mp member
  rw [Array.getElem?_toList] at found
  have numbered := getElem?_ops image index
  rw [found, Option.map_some] at numbered
  have settled := (faithful_ofImage image).settled index _ numbered
  rw [← Op.isCall_numbered, settled.isCall_eq, Op.resume?_numbered]

theorem size_resumes (image : Image) :
    (Code.ofImage image).resumes.size = (Code.ofImage image).callSites := by
  rw [callSites_ofImage, ← Array.length_toList, Code.ofImage, Array.toList_filterMap,
    List.length_filterMap_eq_countP]
  refine List.countP_congr fun op member => ?_
  rw [isCall_eq_of_mem member]

/-- What has no entry in the resume table keeps the number of the engine. -/
theorem continuation_of_plain {op : Op} (member : op ∈ (Code.ofImage image).ops)
    (plain : op.resume? = none) : op.continuation = rootId := by
  obtain ⟨index, found⟩ := Array.mem_iff_getElem?.mp member
  rw [getElem?_ops, Option.map_eq_some_iff] at found
  obtain ⟨op, found, rfl⟩ := found
  rw [Op.resume?_numbered] at plain
  rw [Op.numbered, plain]
  exact (charted_decodedOps image op (Array.mem_of_getElem? found)).unnumbered

theorem numbers_ofImage (few : (Code.ofImage image).callSites < UInt32.size) :
    (Code.ofImage image).Numbers := by
  have faithful := faithful_ofImage image
  have entries : (Code.ofImage image).resumes.size < UInt32.size := by rwa [size_resumes]
  have resumes : ∀ op ∈ (Code.ofImage image).ops, op.isCall = true →
      ∃ index, (Code.ofImage image).resume? op.continuation = some ⟨op.nextOffset, index⟩ ∧
        Stands (Code.ofImage image).ops op.nextOffset index := by
    intro op member call
    obtain ⟨index, found⟩ := Array.mem_iff_getElem?.mp member
    have settled := faithful.settled index op found
    rw [settled.isCall_eq, Option.isSome_iff_exists] at call
    obtain ⟨⟨offset, behind⟩, entry⟩ := call
    have stands := settled.resume entry
    obtain rfl : offset = op.nextOffset := Op.returnOffset_of_resume? entry
    exact ⟨behind, resume?_continuation entries found entry, stands⟩
  refine ⟨fun op member => ⟨fun root => ?_, fun plain => ?_⟩, ?_, resumes, ?_⟩
  · -- A call has a number that names something, and the number of the engine names nothing.
    refine Bool.eq_false_iff.mpr fun call => ?_
    obtain ⟨index, named, -⟩ := resumes op member call
    rw [root] at named
    cases named
  · obtain ⟨index, found⟩ := Array.mem_iff_getElem?.mp member
    rw [(faithful.settled index op found).isCall_eq, Option.isSome_eq_false_iff,
      Option.isNone_iff_eq_none] at plain
    exact continuation_of_plain member plain
  · rw [callSites_ofImage] at few ⊢
    exact ids_numberCalls (fun op member => isCall_eq_of_mem member) (by omega)
  · rintro id (rfl | beyond)
    · rfl
    · unfold Code.resume?
      split
      · rfl
      · rename_i index number
        exact Array.getElem?_eq_none (by rw [size_resumes]; omega)

/-- Linking an image ends after one round for each operation, and the code charts what control can
reach, with its calls numbered as long as there are numbers for them. -/
theorem ofImage_charts (image : Image) :
    (∀ rounds, (Code.ofImage image).ops.size ≤ rounds →
      decodeFrom image rounds 0 #[Op.pending image.entry] = decodedOps image) ∧
    (Code.ofImage image).Charts image ∧
    ((Code.ofImage image).callSites < UInt32.size → (Code.ofImage image).Numbers) := by
  refine ⟨fun rounds covers => ?_, charts_ofImage image, numbers_ofImage⟩
  rw [size_ops] at covers
  exact decodeFrom_eq_decodedOps covers

/-- An image with a loop back to its entry, a call of what lies behind its end and a jump into the
target of that call. -/
def winding : Image where
  bytes := Instruction.assemble
    [.call .near (.relative 2), .jump .always .near (.relative (-4)), .call .absolute (.absolute 100),
      .jump .equal .near (.relative (-4)), .ret]
  entry := 0
  entry_lt := by decide

theorem ofImage_charts_winding :
    (Code.ofImage winding).callSites < UInt32.size ∧ (Code.ofImage winding).Numbers := by
  have few : (Code.ofImage winding).callSites < UInt32.size := by decide +kernel
  exact ⟨few, (ofImage_charts winding).2.2 few⟩

/-- Its operations in table order, and where its two calls are returned to. -/
example :
    (Code.ofImage winding).ops.toList.map Op.offset = [0, 2, 4, 9, 100, 11, 7] ∧
      (Code.ofImage winding).resumes.toList = [⟨2, 1⟩, ⟨9, 3⟩] := by
  decide +kernel

end Threaded

end Tandem

import Tandem.Listing
import Tandem.Proofs.Boundary
import Tandem.Proofs.Instruction.Inverse

/-!
# The sweep of a listing

A listing has a line for each offset that the sweep from the first byte comes to (`Listing.Sweeps`,
`Listing.mem_linesFrom_iff`). Whether the entry is one of them depends on how the bytes before it
happen to decode: an instruction that starts before the entry and ends behind it hides the entry, and
nothing is marked then. Where the sweep comes to the entry, that line is the only marked one
(`Listing.marks_entry_iff_swept`). It does so in an image whose bytes before the entry are
instructions laid end to end (`Listing.sweeps_of_assembled`).
-/

namespace Tandem.Listing

variable {image : Image} {start offset : Nat} {line : Line}

/-- The line of an offset. -/
def Line.of (image : Image) (offset : Nat) : Line :=
  ⟨offset, Content.read image offset, offset == image.entry⟩

theorem linesFrom_of_lt (inside : start < image.size) :
    linesFrom image start =
      Line.of image start :: linesFrom image (start + (Content.read image start).length) := by
  rw [linesFrom, if_pos inside, Line.of]

theorem linesFrom_of_le (outside : image.size ≤ start) : linesFrom image start = [] := by
  rw [linesFrom, if_neg (Nat.not_lt.mpr outside)]

/-- The sweep from the first offset on comes to the second one: from an offset inside of the image, it
goes on just past what stands there. -/
inductive Sweeps (image : Image) : (start offset : Nat) → Prop
  | here {offset : Nat} : Sweeps image offset offset
  | past {start offset : Nat} (inside : start < image.size)
    (rest : Sweeps image (start + (Content.read image start).length) offset) :
    Sweeps image start offset

theorem Sweeps.le (sweeps : Sweeps image start offset) : start ≤ offset := by
  induction sweeps with
  | here => exact Nat.le_refl _
  | past inside rest ih => exact Nat.le_of_add_right_le ih

/-- Away from its start, a sweep comes only to what comes behind the first line. -/
theorem sweeps_iff_of_ne (inside : start < image.size) (apart : start ≠ offset) :
    Sweeps image start offset ↔ Sweeps image (start + (Content.read image start).length) offset := by
  constructor
  · intro sweeps
    cases sweeps with
    | here => exact absurd rfl apart
    | past _ rest => exact rest
  · exact .past inside

/-- The lines are those of the offsets that the sweep comes to. -/
theorem mem_linesFrom_iff :
    line ∈ linesFrom image start ↔
      ∃ offset, Sweeps image start offset ∧ offset < image.size ∧ line = Line.of image offset := by
  induction start using linesFrom.induct image with
  | case1 start inside content ih =>
    rw [linesFrom_of_lt inside, List.mem_cons, ih]
    constructor
    · rintro (rfl | ⟨offset, rest, below, rfl⟩)
      · exact ⟨start, .here, inside, rfl⟩
      · exact ⟨offset, .past inside rest, below, rfl⟩
    · rintro ⟨offset, sweeps, below, rfl⟩
      cases sweeps with
      | here => exact .inl rfl
      | past _ rest => exact .inr ⟨offset, rest, below, rfl⟩
  | case2 start outside =>
    rw [linesFrom_of_le (Nat.not_lt.mp outside)]
    refine ⟨nofun, ?_⟩
    rintro ⟨offset, sweeps, below, -⟩
    have := sweeps.le
    omega

theorem Content.read_eq_decoded_iff {instruction : Instruction} :
    Content.read image offset = .decoded instruction ↔
      Instruction.decode image offset = .ok instruction := by
  rw [Content.read]
  cases Instruction.decode image offset <;> simp

theorem Content.read_eq_raw_iff {byte : UInt8} (inside : offset < image.size) :
    Content.read image offset = .raw byte ↔
      (∃ fault, Instruction.decode image offset = .error fault) ∧
        image.bytes[offset]? = some byte := by
  have listed : image.bytes[offset]? = some (image.bytes.getD offset 0) := by
    have bound : offset < image.bytes.size := inside
    simp [Array.getD, bound]
  rw [Content.read, listed]
  cases Instruction.decode image offset <;> simp

/-- Instructions that lie end to end, none of them a skip, are listed one by one, so that the sweep
comes to what stands behind them. -/
theorem sweeps_of_assembled {program : List Instruction}
    (encodable : ∀ instruction ∈ program, instruction.Encodable)
    (noSkip : ∀ instruction ∈ program, instruction.skipped = 0)
    (holds : image.Holds start (program.flatMap Instruction.encode)) :
    Sweeps image start (start + (program.flatMap Instruction.encode).length) := by
  induction program generalizing start with
  | nil => exact .here
  | cons first rest ih =>
    rw [List.forall_mem_cons] at encodable noSkip
    rw [List.flatMap_cons, Image.holds_append] at holds
    have decoded := Instruction.decode_eq_ok_iff.mpr ⟨encodable.1, holds.1⟩
    have length : (Content.read image start).length = first.encode.length := by
      rw [Content.read_eq_decoded_iff.mpr decoded, Content.length, Instruction.length, noSkip.1,
        Instruction.size_opcode_of_encodable encodable.1, Nat.add_zero]
    have behind := ih encodable.2 noSkip.2 holds.2
    rw [List.flatMap_cons, List.length_append, ← Nat.add_assoc]
    refine .past (Instruction.lt_size_of_decode decoded) ?_
    rwa [length]

/-! ## The mark -/

theorem isEntry_of : (Line.of image offset).isEntry ↔ offset = image.entry := beq_iff_eq

/-- At most one line is marked: that of the entry, if the sweep comes to it. -/
theorem filter_isEntry_linesFrom (image : Image) (start : Nat) :
    (Sweeps image start image.entry →
      (linesFrom image start).filter (·.isEntry) = [Line.of image image.entry]) ∧
    (¬ Sweeps image start image.entry → (linesFrom image start).filter (·.isEntry) = []) := by
  induction start using linesFrom.induct image with
  | case1 start inside content ih =>
    obtain ⟨found, missed⟩ := ih
    rw [linesFrom_of_lt inside]
    by_cases atEntry : start = image.entry
    · -- The sweep never comes back to an offset that it has left.
      have gone : ¬ Sweeps image (start + content.length) image.entry := by
        intro sweeps
        have := sweeps.le
        have := content.length_pos
        omega
      rw [List.filter_cons_of_pos (isEntry_of.mpr atEntry), missed gone, atEntry]
      exact ⟨fun _ => rfl, fun never => absurd .here never⟩
    · rw [List.filter_cons_of_neg (by rwa [isEntry_of]), sweeps_iff_of_ne inside atEntry]
      exact ⟨found, missed⟩
  | case2 start outside =>
    have outside := Nat.not_lt.mp outside
    have entry : image.entry < image.size := image.entry_lt
    rw [linesFrom_of_le outside]
    refine ⟨fun sweeps => ?_, fun _ => rfl⟩
    have := sweeps.le
    omega

/-- The text of a line begins with the mark exactly if the line is marked. -/
theorem head?_text_eq_mark_iff : line.text.toList.head? = some '>' ↔ line.isEntry := by
  unfold Line.text
  cases line.isEntry <;> simp

/-- **Where the entry is marked.** A listing has one marked line if the sweep comes to the entry, and
none if it does not. The marked line is the one of the entry, and shows the instruction there or, if
none decodes, the byte. By either strategy, that is where a run of a prepared machine begins. -/
theorem marks_entry_iff_swept (image : Image) :
    (Sweeps image 0 image.entry →
      (lines image).filter (·.isEntry) = [Line.of image image.entry]) ∧
    (¬ Sweeps image 0 image.entry → (lines image).filter (·.isEntry) = []) ∧
    (∀ line : Line, line.text.toList.head? = some '>' ↔ line.isEntry) ∧
    (∀ instruction, (Line.of image image.entry).content = .decoded instruction ↔
      Instruction.decode image image.entry = .ok instruction) ∧
    ∀ (strategy : Strategy) (argument : UInt32) (machine prepared : Machine) (boundary : Boundary),
      Machine.prepare image argument machine = .ok () prepared →
      strategy.boundary? image prepared 0 = some boundary → boundary.offset = image.entry := by
  obtain ⟨found, missed⟩ := filter_isEntry_linesFrom image 0
  refine ⟨found, missed, fun line => head?_text_eq_mark_iff,
    fun instruction => Content.read_eq_decoded_iff, ?_⟩
  intro strategy argument machine prepared boundary ready arrived
  exact (Strategy.boundary?_zero ready arrived).1

/-- A byte that is no opcode, and an entry right behind it. -/
def behindRaw : Image where
  bytes := #[0x00, 0x01, 0xFF, 0xFF]
  entry := 1
  entry_lt := by decide

theorem behindRaw_marked : (lines behindRaw).filter (·.isEntry) = [Line.of behindRaw 1] :=
  (marks_entry_iff_swept behindRaw).1 (.past (by decide) .here)

/-- A push whose operand is the entry. -/
def sweptOver : Image where
  bytes := #[0x01, 0xFF]
  entry := 1
  entry_lt := by decide

/-- The entry is hidden by the instruction before it, so that no line is marked, although an
instruction stands at the entry. -/
theorem sweptOver_unmarked :
    sweptOver.listing = " 00000000: push         arg0" ∧
      (lines sweptOver).filter (·.isEntry) = [] ∧
      Instruction.decode sweptOver sweptOver.entry = .ok .exit := by
  have shown : lines sweptOver = [Line.of sweptOver 0] := by
    rw [lines, linesFrom_of_lt (by decide), linesFrom_of_le (by decide +kernel)]
  refine ⟨?_, ?_, by decide +kernel⟩
  · rw [Image.listing, shown]
    decide +kernel
  · rw [shown]
    rfl

end Tandem.Listing

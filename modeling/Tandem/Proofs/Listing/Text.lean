import Tandem.Proofs.Instruction.Printer
import Tandem.Proofs.Listing.Sweep

/-!
# Listings are read back

A listing shows its lines (`Image.lines_of_listing`): line breaks come only between lines, and the text
of a line says which line it is. The lines in turn hold the bytes of the image, apart from those that a
skip passes over (`Listing.bytes_of_linesFrom`). Images with the same listing are therefore the same,
up to skipped bytes and to an entry that is not marked (`Image.listing_faithful`).
-/

namespace Tandem

namespace Listing

variable {image : Image} {start : Nat}

/-! ## The text of a line -/

theorem Content.text_inj {one other : Content} : one.text = other.text ↔ one = other := by
  -- No mnemonic is the word for a raw byte.
  have apart : ∀ (instruction : Instruction) (byte : UInt8),
      instruction.text ≠ ".byte 0x" ++ Numeral.hex 2 byte.toNat := by
    intro instruction byte same
    have whole := congrArg (· ++ " ") same
    have split : ".byte 0x" ++ Numeral.hex 2 byte.toNat ++ " " =
        ".byte" ++ " " ++ ("0x" ++ Numeral.hex 2 byte.toNat ++ " ") := by
      simp only [← String.append_assoc]
      rfl
    simp only [Instruction.text_append_blank, split] at whole
    obtain ⟨mnemonic, -⟩ := append_separator_inj ' ' rfl
      instruction.opcode.blank_notMem_mnemonic (by decide) whole
    exact Opcode.mnemonic_ne_byte _ mnemonic
  constructor
  · intro same
    cases one <;> cases other
    case decoded.decoded => rw [Instruction.text_inj.mp same]
    case decoded.raw => exact absurd same (apart _ _)
    case raw.decoded => exact absurd same.symm (apart _ _)
    case raw.raw =>
      rw [text, text, String.append_right_inj, Numeral.hex_inj, UInt8.toNat_inj] at same
      rw [same]
  · rintro rfl
    rfl

/-- The column of the mark. -/
def Line.mark (line : Line) : String := if line.isEntry then ">" else " "

/-- Different lines have different texts. -/
theorem Line.text_inj {one other : Line} : one.text = other.text ↔ one = other := by
  have free : ∀ line : Line, ':' ∉ (line.mark ++ Numeral.hex 8 line.offset).toList := by
    intro line member
    rcases List.mem_append.mp (String.toList_append ▸ member) with marked | digit
    · unfold mark at marked
      split at marked <;> exact absurd marked (by decide)
    · exact absurd (Numeral.isAlphanum_of_mem_hex digit) (by decide)
  constructor
  · intro same
    obtain ⟨column, contents⟩ := append_separator_inj ':' rfl (free one) (free other) same
    have marks : one.isEntry = other.isEntry := by
      rw [Bool.eq_iff_iff, ← head?_text_eq_mark_iff, ← head?_text_eq_mark_iff, same]
    rw [mark, mark, marks, String.append_right_inj, Numeral.hex_inj] at column
    cases one
    cases other
    cases Content.text_inj.mp contents
    cases marks
    cases column
    rfl
  · rintro rfl
    rfl

/-- The text of a line has no line break. -/
theorem Line.break_notMem_text (line : Line) : '\n' ∉ line.text.toList := by
  have offset := Numeral.break_notMem_hex 8 line.offset
  have content : '\n' ∉ line.content.text.toList := by
    cases line.content with
    | decoded instruction => exact instruction.break_notMem_text
    | raw byte => simp [Content.text, Numeral.break_notMem_hex]
  unfold text
  split <;> simp [offset, content]

theorem lines_ne_nil (image : Image) : lines image ≠ [] := by
  rw [lines, linesFrom_of_lt image.size_pos]
  exact List.cons_ne_nil _ _

/-! ## The bytes of a line -/

/-- The bytes that a line shows. -/
def Content.bytes : Content → List UInt8
  | .decoded instruction => instruction.encode
  | .raw byte => [byte]

/-- The content of an offset begins what is left of the image there, and unless it is a skip nothing
comes between it and the next line. -/
theorem drop_eq_of_read (inside : start < image.size)
    (noSkip : ∀ count, Content.read image start ≠ .decoded (.skip count)) :
    image.bytes.toList.drop start = (Content.read image start).bytes ++
      image.bytes.toList.drop (start + (Content.read image start).length) := by
  rw [← List.drop_drop]
  cases content : Content.read image start with
  | decoded instruction =>
    obtain ⟨encodable, rest, whole⟩ :=
      Instruction.decode_eq_ok_iff.mp (Content.read_eq_decoded_iff.mp content)
    have length : instruction.length = instruction.encode.length := by
      rw [content] at noSkip
      rw [Instruction.length, Instruction.size_opcode_of_encodable encodable]
      cases instruction with
      | skip count => exact absurd rfl (noSkip count)
      | _ => rfl
    rw [← whole, Content.bytes, Content.length, length, List.drop_left]
  | raw byte =>
    obtain ⟨-, found⟩ := (Content.read_eq_raw_iff inside).mp content
    rw [← Array.getElem?_toList, List.getElem?_eq_some_iff] at found
    obtain ⟨listed, rfl⟩ := found
    rw [Content.bytes, Content.length, List.drop_drop, List.drop_eq_getElem_cons listed]
    rfl

/-- The lines hold the bytes of the image, if no skip is among them. -/
theorem bytes_of_linesFrom (noSkip : ∀ line ∈ linesFrom image start, ∀ count,
      line.content ≠ .decoded (.skip count)) :
    (linesFrom image start).flatMap (·.content.bytes) = image.bytes.toList.drop start := by
  induction start using linesFrom.induct image with
  | case1 start inside content ih =>
    rw [linesFrom_of_lt inside, List.forall_mem_cons] at noSkip
    rw [linesFrom_of_lt inside, List.flatMap_cons, ih noSkip.2]
    exact (drop_eq_of_read inside noSkip.1).symm
  | case2 start outside =>
    have outside := Nat.not_lt.mp outside
    rw [linesFrom_of_le outside, List.flatMap_nil, List.drop_of_length_le outside]

end Listing

namespace Image

variable {one other : Image}

/-- A listing is divided into its lines at its line breaks. -/
theorem split_listing (image : Image) :
    (image.listing.split '\n').toList.map (·.copy) =
      (Listing.lines image).map Listing.Line.text := by
  have oneLine : ∀ text ∈ (Listing.lines image).map Listing.Line.text, '\n' ∉ text.toList := by
    intro text member
    obtain ⟨line, -, rfl⟩ := List.mem_map.mp member
    exact line.break_notMem_text
  have divided := String.toList_split_intercalate oneLine
  rwa [if_neg (by simpa using Listing.lines_ne_nil image)] at divided

/-- The lines are read off a listing. -/
theorem lines_of_listing (same : one.listing = other.listing) :
    Listing.lines one = Listing.lines other := by
  have texts : (Listing.lines one).map Listing.Line.text =
      (Listing.lines other).map Listing.Line.text := by
    rw [← split_listing, ← split_listing, same]
  exact List.map_injective_iff.mpr (fun _ _ => Listing.Line.text_inj.mp) texts

/-- **A listing loses nothing but what skips pass over.** Images whose listings are the same text have
the same bytes, if no line of it is a skip, and the same entry, if a line of it is marked. The text of
an instruction in particular belongs to no other instruction. -/
theorem listing_faithful :
    (∀ one other : Image, one.listing = other.listing →
      (∀ line ∈ Listing.lines one, ∀ count, line.content ≠ .decoded (.skip count)) →
      one.bytes = other.bytes ∧ one.size = other.size ∧
        ((∃ line ∈ Listing.lines one, line.text.toList.head? = some '>') →
          one.entry = other.entry)) ∧
    ∀ one other : Instruction, one.text = other.text → one = other := by
  refine ⟨fun one other same noSkip => ?_, fun one other => Instruction.text_inj.mp⟩
  have lines := lines_of_listing same
  have bytes : one.bytes = other.bytes := by
    have held : (Listing.lines one).flatMap (·.content.bytes) = one.bytes.toList :=
      Listing.bytes_of_linesFrom noSkip
    rw [lines] at noSkip held
    have held' : (Listing.lines other).flatMap (·.content.bytes) = other.bytes.toList :=
      Listing.bytes_of_linesFrom noSkip
    exact Array.toList_inj.mp (held.symm.trans held')
  refine ⟨bytes, congrArg Array.size bytes, ?_⟩
  rintro ⟨line, member, mark⟩
  have marked := Listing.head?_text_eq_mark_iff.mp mark
  obtain ⟨offset, -, -, rfl⟩ := Listing.mem_linesFrom_iff.mp member
  rw [lines] at member
  obtain ⟨offset', -, -, shared⟩ := Listing.mem_linesFrom_iff.mp member
  have offsets : offset = offset' := congrArg Listing.Line.offset shared
  have marked' := marked
  rw [shared] at marked'
  rw [← Listing.isEntry_of.mp marked, ← Listing.isEntry_of.mp marked', offsets]

/-- A push that hides the entry, wherever in its operand the entry is. -/
def hidingEntry (entry : Fin 5) : Image where
  bytes := #[0x02, 0x01, 0x00, 0x00, 0x80]
  entry := entry
  entry_lt := entry.isLt

/-- A listing without a mark tells the bytes, but not where the entry is. -/
theorem hidingEntry_listing :
    (hidingEntry 1).listing = (hidingEntry 2).listing ∧
      (hidingEntry 1).bytes = (hidingEntry 2).bytes ∧
      (hidingEntry 1).entry ≠ (hidingEntry 2).entry := by
  have shown : ∀ entry, Listing.lines (hidingEntry entry) = [Listing.Line.of (hidingEntry entry) 0] := by
    intro entry
    have size : (hidingEntry entry).size = 5 := rfl
    rw [Listing.lines, Listing.linesFrom_of_lt (by omega), Listing.linesFrom_of_le]
    rw [size]
    exact Nat.le_refl 5
  have same : (hidingEntry 1).listing = (hidingEntry 2).listing := by
    rw [listing, listing, shown, shown]
    decide +kernel
  have push : Listing.Content.read (hidingEntry 1) 0 = .decoded (.pushWord (-2147483647)) := by
    decide +kernel
  refine ⟨same, (listing_faithful.1 _ _ same ?_).1, by decide⟩
  rw [shown, List.forall_mem_singleton, Listing.Line.of, push]
  simp only [ne_eq, Listing.Content.decoded.injEq, reduceCtorEq, not_false_eq_true, implies_true]

end Image

end Tandem

import Mathlib.Data.List.Nodup
import Tandem.Instruction.Printer
import Tandem.Proofs.Text.Numeral

/-!
# Instructions are told apart by their text

The text of an instruction says which instruction it is (`Instruction.text_inj`). Its mnemonic
ends at the first blank and belongs to one opcode only; the operands of one opcode are written in one
way, each of them up to a comma or to the end. No text has a line break in it.
-/

namespace Tandem

/-! ## Mnemonics -/

namespace Opcode

/-- All opcodes, in the order of their bytes. -/
def all : List Opcode := (List.range 256).filterMap fun byte => ofByte? byte.toUInt8

theorem mem_all (opcode : Opcode) : opcode ∈ all := by
  refine List.mem_filterMap.mpr ⟨opcode.toByte.toNat, ?_, ?_⟩
  · exact List.mem_range.mpr opcode.toByte.toNat_lt
  · rw [show opcode.toByte.toNat.toUInt8 = opcode.toByte from UInt8.ofNat_toNat, ofByte?_toByte]

theorem mnemonic_injective : Function.Injective mnemonic := by
  have different : (all.map mnemonic).Nodup := by decide +kernel
  exact fun one other same => List.inj_on_of_nodup_map different (mem_all one) (mem_all other) same

/-- A mnemonic is one word. -/
theorem mnemonic_word {character : Char} (opcode : Opcode)
    (member : character ∈ opcode.mnemonic.toList) : character.isAlphanum ∨ character = '_' := by
  have words : (all.all fun opcode => opcode.mnemonic.toList.all fun character =>
      character.isAlphanum || character == '_') = true := by
    decide +kernel
  have word := List.all_eq_true.mp words opcode (mem_all opcode)
  simpa using List.all_eq_true.mp word character member

theorem blank_notMem_mnemonic (opcode : Opcode) : ' ' ∉ opcode.mnemonic.toList := fun member =>
  absurd (opcode.mnemonic_word member) (by decide)

theorem break_notMem_mnemonic (opcode : Opcode) : '\n' ∉ opcode.mnemonic.toList := fun member =>
  absurd (opcode.mnemonic_word member) (by decide)

/-- No mnemonic is the word that listings have for bytes. -/
theorem mnemonic_ne_byte (opcode : Opcode) : opcode.mnemonic ≠ ".byte" := by
  intro same
  have dot : '.' ∈ opcode.mnemonic.toList := by
    rw [same]
    decide
  exact absurd (opcode.mnemonic_word dot) (by decide)

end Opcode

/-! ## Operands -/

@[simp] theorem slotName_inj {slot other : Slot} : slotName slot = slotName other ↔ slot = other := by
  have apart : ∀ index index' : String, "var" ++ index ≠ "arg" ++ index' := by
    intro index index' same
    simpa using congrArg (·.toList.head?) same
  constructor
  · intro same
    apply Int8.toInt_inj.mp
    unfold slotName at same
    split at same <;> split at same <;> rename_i value _ _ value'
    · rw [String.append_right_inj, Numeral.toString_inj] at same
      rw [value, value', same]
    · exact absurd same (apart _ _)
    · exact absurd same.symm (apart _ _)
    · rw [String.append_right_inj, Numeral.toString_inj] at same
      rw [value, value', same]
  · rintro rfl
    rfl

/-- The name of a slot has no punctuation. -/
theorem isAlphanum_of_mem_slotName {slot : Slot} {character : Char}
    (member : character ∈ (slotName slot).toList) : character.isAlphanum := by
  have digits : ∀ {index : Nat}, character ∈ (toString index).toList → character.isAlphanum := by
    intro index digit
    rw [Char.isAlphanum, Numeral.isDigit_of_mem_toString digit, Bool.or_true]
  unfold slotName at member
  split at member <;> rcases List.mem_append.mp (String.toList_append ▸ member) with letter | digit
  · simp only [String.reduceToList, List.mem_cons, List.not_mem_nil, or_false] at letter
    rcases letter with rfl | rfl | rfl <;> rfl
  · exact digits digit
  · simp only [String.reduceToList, List.mem_cons, List.not_mem_nil, or_false] at letter
    rcases letter with rfl | rfl | rfl <;> rfl
  · exact digits digit

@[simp] theorem Target.text_inj {target other : Target} :
    target.text = other.text ↔ target = other := by
  -- A sign or a zero comes first.
  have apart : ∀ (distance : Int) (offset : Nat),
      Numeral.signed distance ≠ Numeral.word offset := by
    intro distance offset same
    unfold Numeral.signed Numeral.word at same
    split at same <;> simpa using congrArg (·.toList.head?) same
  constructor
  · intro same
    cases target <;> cases other
    case relative.relative => rw [Int32.toInt_inj.mp (Numeral.signed_inj.mp same)]
    case relative.absolute => exact absurd same (apart _ _)
    case absolute.relative => exact absurd same.symm (apart _ _)
    case absolute.absolute => rw [UInt32.toNat_inj.mp (Numeral.word_inj.mp same)]
  · rintro rfl
    rfl

/-- A slot and what is written behind it. -/
theorem slot_list_inj {slot other : Slot} {behind behind' : String} :
    slotName slot ++ ", " ++ behind = slotName other ++ ", " ++ behind' ↔
      slot = other ∧ behind = behind' := by
  have free : ∀ slot, ',' ∉ (slotName slot).toList := fun slot member =>
    absurd (isAlphanum_of_mem_slotName member) (by decide)
  constructor
  · intro same
    obtain ⟨names, rest⟩ := append_separator_inj ',' rfl (free slot) (free other) same
    exact ⟨slotName_inj.mp names, rest⟩
  · rintro ⟨rfl, rfl⟩
    rfl

/-- A count and the value behind it. -/
theorem count_list_inj {count other : Nat} {behind behind' : String} :
    toString count ++ ", eax, " ++ behind = toString other ++ ", eax, " ++ behind' ↔
      count = other ∧ behind = behind' := by
  have free : ∀ count : Nat, ',' ∉ (toString count).toList := fun count member =>
    absurd (Numeral.isDigit_of_mem_toString member) (by decide)
  constructor
  · intro same
    obtain ⟨numerals, rest⟩ := append_separator_inj ',' rfl (free count) (free other) same
    exact ⟨Numeral.toString_inj.mp numerals, rest⟩
  · rintro ⟨rfl, rfl⟩
    rfl

theorem Int32.toUInt32_inj {one other : Int32} : one.toUInt32 = other.toUInt32 ↔ one = other :=
  ⟨fun same => congrArg Int32.ofUInt32 same, fun same => congrArg _ same⟩

theorem Int64.toUInt64_inj {one other : Int64} : one.toUInt64 = other.toUInt64 ↔ one = other :=
  ⟨fun same => congrArg Int64.ofUInt64 same, fun same => congrArg _ same⟩

theorem UInt32.toInt32_inj {one other : UInt32} : one.toInt32 = other.toInt32 ↔ one = other :=
  ⟨fun same => congrArg Int32.toUInt32 same, fun same => congrArg _ same⟩

namespace Instruction

variable {one other : Instruction}

/-- The operands of an opcode are read off their text. -/
theorem eq_of_operandText (opcode : one.opcode = other.opcode)
    (text : one.operandText = other.operandText) : one = other := by
  cases one <;> cases other <;> cases opcode
  case compareWith.compareWith.refl reading _ _ _ _ =>
    cases reading <;>
      simpa only [operandText, slot_list_inj, Numeral.decimal_inj, Numeral.word_inj, Int32.toInt_inj,
        UInt32.toNat_inj, UInt32.toInt32_inj, compareWith.injEq, true_and] using text
  all_goals
    simp only [operandText, slot_list_inj, count_list_inj, slotName_inj, Numeral.word_inj,
      Numeral.wideWord_inj, Numeral.toString_inj, Target.text_inj, String.append_right_inj,
      UInt8.toNat_inj, UInt16.toNat_inj, UInt32.toNat_inj, UInt64.toNat_inj, Int32.toUInt32_inj,
      Int64.toUInt64_inj] at text
  all_goals simp only [text]

/-- The blanks between a mnemonic and the last blank before its operands. -/
def padding (instruction : Instruction) : String :=
  String.ofList (List.replicate (12 - instruction.mnemonic.length) ' ')

/-- What a text shows behind the blank that ends its mnemonic, with one more blank at its end. -/
def remainder (instruction : Instruction) : String :=
  if instruction.operandText.isEmpty then ""
  else instruction.padding ++ instruction.operandText ++ " "

/-- A text begins with the mnemonic, which a blank ends. -/
theorem text_append_blank (instruction : Instruction) :
    instruction.text ++ " " = instruction.mnemonic ++ " " ++ instruction.remainder := by
  have swapped : instruction.padding ++ " " = " " ++ instruction.padding := by
    apply String.toList_inj.mp
    simp only [padding, String.toList_append, String.toList_ofList]
    exact List.replicate_succ'.symm.trans List.replicate_succ
  unfold text remainder
  split
  · rw [String.append_empty]
  · calc column 12 instruction.mnemonic ++ " " ++ instruction.operandText ++ " "
      _ = instruction.mnemonic ++ (instruction.padding ++ " ") ++ instruction.operandText ++ " " := by
          rw [column, padding]
          simp only [String.append_assoc]
      _ = instruction.mnemonic ++ " " ++
            (instruction.padding ++ instruction.operandText ++ " ") := by
          rw [swapped]
          simp only [String.append_assoc]

/-- The operands are read off what is behind the mnemonic. -/
theorem operandText_of_remainder (mnemonic : one.mnemonic = other.mnemonic)
    (same : one.remainder = other.remainder) : one.operandText = other.operandText := by
  have nonempty : ∀ text : String, text ++ " " ≠ "" := by
    intro text none
    exact absurd (congrArg String.toList none) (by simp)
  unfold remainder padding at same
  rw [mnemonic] at same
  split at same <;> split at same
  · rename_i none none'
    rw [String.isEmpty_iff] at none none'
    rw [none, none']
  · exact absurd same.symm (nonempty _)
  · exact absurd same (nonempty _)
  · rwa [String.append_left_inj, String.append_right_inj] at same

/-- Different instructions have different texts. -/
theorem text_inj : one.text = other.text ↔ one = other := by
  constructor
  · intro same
    have whole := congrArg (· ++ " ") same
    simp only [text_append_blank] at whole
    obtain ⟨mnemonic, behind⟩ := append_separator_inj ' ' rfl
      one.opcode.blank_notMem_mnemonic other.opcode.blank_notMem_mnemonic whole
    exact eq_of_operandText (Opcode.mnemonic_injective mnemonic)
      (operandText_of_remainder mnemonic behind)
  · rintro rfl
    rfl

/-! ## Line breaks -/

theorem break_notMem_operandText (instruction : Instruction) :
    '\n' ∉ instruction.operandText.toList := by
  have slot : ∀ slot, '\n' ∉ (slotName slot).toList := fun slot member =>
    absurd (isAlphanum_of_mem_slotName member) (by decide)
  have count : ∀ count : Nat, '\n' ∉ (toString count).toList := Numeral.break_notMem_toString
  have target : ∀ target : Target, '\n' ∉ target.text.toList := by
    rintro (distance | offset) <;> simp [Target.text]
  cases instruction
  case compareWith reading left right => cases reading <;> simp [operandText, slot]
  all_goals simp [operandText, slot, count, target, -Nat.toString_eq_repr]

/-- The text of an instruction is one line. -/
theorem break_notMem_text (instruction : Instruction) : '\n' ∉ instruction.text.toList := by
  have mnemonic : '\n' ∉ instruction.mnemonic.toList := instruction.opcode.break_notMem_mnemonic
  have operands := instruction.break_notMem_operandText
  unfold text
  split
  · exact mnemonic
  · simp [column, mnemonic, operands]

end Instruction

end Tandem

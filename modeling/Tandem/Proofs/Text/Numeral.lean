import Mathlib.Data.List.Basic
import Tandem.Text.Numeral

/-!
# Numerals are read back

A numeral gives its number: hexadecimal digits do, whatever zeros they are padded with
(`Numeral.value_hex`), and so do decimal ones with or without a sign. Digits are letters or digits, so
that a numeral contains no punctuation, and what is written before a separator can be told from what
is written behind it (`append_separator_inj`).
-/

namespace Tandem

/-! ## Separators -/

/-- The parts before and behind a separator are known if its first character is in neither of the
parts before it. -/
theorem append_separator_inj (mark : Char) {separator before before' behind behind' : String}
    (starts : separator.toList.head? = some mark) (free : mark ∉ before.toList)
    (free' : mark ∉ before'.toList)
    (same : before ++ separator ++ behind = before' ++ separator ++ behind') :
    before = before' ∧ behind = behind' := by
  obtain ⟨rest, separated⟩ := List.head?_eq_some_iff.mp starts
  have lists := congrArg String.toList same
  simp only [String.toList_append, separated, List.append_assoc, List.cons_append] at lists
  -- The first mark of a text stands where its separator begins.
  have cut : ∀ (first behind : List Char), mark ∉ first →
      (first ++ mark :: behind).takeWhile (· ≠ mark) = first ∧
        (first ++ mark :: behind).dropWhile (· ≠ mark) = mark :: behind := by
    intro first behind free
    have all : ∀ letter ∈ first, decide (letter ≠ mark) = true := by
      intro letter member
      rw [decide_eq_true_eq]
      rintro rfl
      exact free member
    rw [List.takeWhile_append_of_pos all, List.dropWhile_append_of_pos all]
    simp
  obtain ⟨upTo, fromThere⟩ := cut before.toList (rest ++ behind.toList) free
  obtain ⟨upTo', fromThere'⟩ := cut before'.toList (rest ++ behind'.toList) free'
  rw [lists] at upTo fromThere
  constructor
  · exact String.toList_inj.mp (upTo.symm.trans upTo')
  · have tails := fromThere.symm.trans fromThere'
    exact String.toList_inj.mp (List.append_cancel_left (List.cons.inj tails).2)

namespace Numeral

variable {character : Char} {width n m : Nat}

/-! ## Hexadecimal -/

/-- The number of a hexadecimal digit. -/
def digitValue (digit : Char) : Nat :=
  if digit.isDigit then digit.toNat - '0'.toNat else digit.toNat - 'a'.toNat + 10

/-- The number of hexadecimal digits. -/
def value (digits : List Char) : Nat :=
  digits.foldl (fun sofar digit => 16 * sofar + digitValue digit) 0

theorem digitValue_digitChar : ∀ digit < 16, digitValue (Nat.digitChar digit) = digit := by decide

theorem value_toDigits (n : Nat) : value (Nat.toDigits 16 n) = n := by
  induction n using Nat.strongRecOn with
  | ind n ih =>
    rw [Nat.toDigits_eq_if (by decide)]
    split
    case isTrue small => simp [value, digitValue_digitChar n small]
    case isFalse large =>
      have quotient := ih (n / 16) (Nat.div_lt_self (by omega) (by decide))
      rw [value] at quotient
      rw [value, List.foldl_append, quotient, List.foldl_cons, List.foldl_nil,
        digitValue_digitChar _ (Nat.mod_lt _ (by decide)), Nat.div_add_mod]

/-- Zeros in front do not count. -/
theorem value_leftpad (width : Nat) (digits : List Char) :
    value (List.leftpad width '0' digits) = value digits := by
  have zeros : value (List.replicate (width - digits.length) '0') = 0 := by
    induction width - digits.length with
    | zero => rfl
    | succ count ih =>
      rw [value] at ih
      rw [List.replicate_succ', value, List.foldl_append, ih]
      rfl
  rw [value] at zeros
  rw [List.leftpad, value, List.foldl_append, zeros, value]

theorem value_hex (width n : Nat) : value (hex width n).toList = n := by
  rw [hex, String.toList_ofList, value_leftpad, value_toDigits]

theorem hex_inj : hex width n = hex width m ↔ n = m := by
  constructor
  · intro same
    rw [← value_hex width n, same, value_hex]
  · rintro rfl
    rfl

theorem isAlphanum_digitChar : ∀ digit < 16, (Nat.digitChar digit).isAlphanum := by decide

theorem isAlphanum_of_mem_toDigits (member : character ∈ Nat.toDigits 16 n) :
    character.isAlphanum := by
  induction n using Nat.strongRecOn with
  | ind n ih =>
    rw [Nat.toDigits_eq_if (by decide)] at member
    split at member
    case isTrue small =>
      rw [List.mem_singleton] at member
      exact member ▸ isAlphanum_digitChar n small
    case isFalse large =>
      rcases List.mem_append.mp member with earlier | last
      · exact ih (n / 16) (Nat.div_lt_self (by omega) (by decide)) earlier
      · rw [List.mem_singleton] at last
        exact last ▸ isAlphanum_digitChar _ (Nat.mod_lt _ (by decide))

/-- A hexadecimal numeral has no punctuation. -/
theorem isAlphanum_of_mem_hex (member : character ∈ (hex width n).toList) :
    character.isAlphanum := by
  rw [hex, String.toList_ofList, List.leftpad, List.mem_append] at member
  rcases member with zero | digit
  · rw [(List.mem_replicate.mp zero).2]
    decide
  · exact isAlphanum_of_mem_toDigits digit

@[simp] theorem word_inj : word n = word m ↔ n = m := by
  rw [word, word, String.append_right_inj, hex_inj]

@[simp] theorem wideWord_inj : wideWord n = wideWord m ↔ n = m := by
  rw [wideWord, wideWord, String.append_right_inj, hex_inj]

/-! ## Decimal -/

theorem toString_inj : toString n = toString m ↔ n = m := by
  constructor
  · intro same
    have digits := congrArg String.toList same
    rw [Nat.toString_eq_repr, Nat.toString_eq_repr, Nat.toList_repr, Nat.toList_repr] at digits
    rw [← Nat.ofDigitChars_ten_toDigits (n := n), digits, Nat.ofDigitChars_ten_toDigits]
  · rintro rfl
    rfl

theorem isDigit_of_mem_toString (member : character ∈ (toString n).toList) : character.isDigit := by
  rw [Nat.toString_eq_repr, Nat.toList_repr] at member
  exact Nat.isDigit_of_mem_toDigits (by decide) (by decide) member

/-- A decimal numeral starts with a digit. -/
theorem toString_ne_append {sign text : String} (mark : sign.toList.head? = some character)
    (noDigit : character.isDigit = false) : toString n ≠ sign ++ text := by
  intro same
  obtain ⟨rest, signed⟩ := List.head?_eq_some_iff.mp mark
  have member : character ∈ (toString n).toList := by
    rw [same, String.toList_append, signed]
    exact List.mem_cons_self ..
  rw [isDigit_of_mem_toString member] at noDigit
  cases noDigit

theorem decimal_inj {i j : Int} : decimal i = decimal j ↔ i = j := by
  constructor
  · intro same
    unfold decimal at same
    split at same <;> split at same
    · rw [String.append_right_inj, toString_inj] at same
      omega
    · exact absurd same.symm (toString_ne_append (by rfl) (by rfl))
    · exact absurd same (toString_ne_append (by rfl) (by rfl))
    · rw [toString_inj] at same
      omega
  · rintro rfl
    rfl

theorem signed_inj {i j : Int} : signed i = signed j ↔ i = j := by
  have apart : ∀ negative positive : String, "-" ++ negative ≠ "+" ++ positive := by
    intro negative positive same
    simpa using congrArg (·.toList.head?) same
  constructor
  · intro same
    unfold signed at same
    split at same <;> split at same
    · rw [String.append_right_inj, toString_inj] at same
      omega
    · exact absurd same (apart _ _)
    · exact absurd same.symm (apart _ _)
    · rw [String.append_right_inj, toString_inj] at same
      omega
  · rintro rfl
    rfl

/-! ## Line breaks -/

theorem break_notMem_hex (width n : Nat) : '\n' ∉ (hex width n).toList := fun member =>
  absurd (isAlphanum_of_mem_hex member) (by decide)

@[simp] theorem break_notMem_word (n : Nat) : '\n' ∉ (word n).toList := by
  simp [word, break_notMem_hex]

@[simp] theorem break_notMem_wideWord (n : Nat) : '\n' ∉ (wideWord n).toList := by
  simp [wideWord, break_notMem_hex]

theorem break_notMem_toString (n : Nat) : '\n' ∉ (toString n).toList := fun member =>
  absurd (isDigit_of_mem_toString member) (by decide)

@[simp] theorem break_notMem_decimal (i : Int) : '\n' ∉ (decimal i).toList := by
  have digits := break_notMem_toString i.natAbs
  unfold decimal
  split <;> simpa using digits

@[simp] theorem break_notMem_signed (i : Int) : '\n' ∉ (signed i).toList := by
  have digits := break_notMem_toString i.natAbs
  unfold signed
  split <;> simpa using digits

end Numeral

end Tandem

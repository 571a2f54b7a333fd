import Tandem.Instruction.Decoding

/-!
# Where decoded instructions lie

A decode only succeeds behind an opcode byte of the image (`Instruction.lt_size_of_decode`). A decode
that fails does so over its opcode byte or over a field that the image does not hold
(`Instruction.decode_eq_error`).
-/

namespace Tandem

variable {image : Image} {offset : Nat} {instruction : Instruction} {fault : Fault}

/-- What a read that succeeds after another one came to. -/
theorem Except.bind_eq_ok {α β : Type} {first : Except Fault α} {rest : α → Except Fault β}
    {value : β} :
    (first >>= rest) = .ok value ↔ ∃ middle, first = .ok middle ∧ rest middle = .ok value := by
  cases first with
  | ok middle => simp [bind, Except.bind]
  | error fault => simp [bind, Except.bind]

theorem Except.pure_eq_ok {α : Type} {value result : α} :
    (pure value : Except Fault α) = .ok result ↔ value = result := by
  simp [pure, Except.pure]

theorem Except.bind_eq_error {α β : Type} {first : Except Fault α} {rest : α → Except Fault β} :
    (first >>= rest) = .error fault ↔
      first = .error fault ∨ ∃ middle, first = .ok middle ∧ rest middle = .error fault := by
  cases first with
  | ok middle => simp [bind, Except.bind]
  | error fault => simp [bind, Except.bind]

theorem Except.pure_ne_error {α : Type} {value : α} :
    ¬ (pure value : Except Fault α) = .error fault := by
  simp [pure, Except.pure]

theorem Target.read_eq_error {width : Width}
    (failed : Target.read image width offset = .error fault) : fault = .endOfImage offset := by
  cases width <;>
    simp only [read, Except.bind_eq_error, Except.pure_ne_error, Image.read_eq_error_iff, and_false,
      exists_false, or_false] at failed <;> exact failed.2

namespace Instruction

/-- Reading the operands of an opcode gives an instruction of that opcode. -/
theorem opcode_of_read {opcode : Opcode} (done : read image offset opcode = .ok instruction) :
    instruction.opcode = opcode := by
  cases opcode <;> simp only [read, Except.bind_eq_ok, Except.pure_eq_ok] at done
  all_goals grind [Instruction.opcode]

/-- A decoded instruction was read behind an opcode byte that lies inside the image. -/
theorem decode_eq_ok (decoded : decode image offset = .ok instruction) :
    offset < image.size ∧ read image (offset + 1) instruction.opcode = .ok instruction := by
  obtain ⟨byte, found, rest⟩ := Except.bind_eq_ok.mp decoded
  have inside : offset + 1 ≤ image.size := (Image.read_eq_ok_iff.mp found).1
  refine ⟨inside, ?_⟩
  cases known : Opcode.ofByte? byte with
  | none =>
    rw [known] at rest
    cases rest
  | some opcode =>
    rw [known] at rest
    rw [opcode_of_read rest]
    exact rest

theorem lt_size_of_decode (decoded : decode image offset = .ok instruction) :
    offset < image.size :=
  (decode_eq_ok decoded).1

theorem read_eq_error {opcode : Opcode} (failed : read image offset opcode = .error fault) :
    ∃ field, fault = .endOfImage field := by
  cases opcode <;>
    simp only [read, Except.bind_eq_error, Except.pure_ne_error, Image.read_eq_error_iff, and_false,
      exists_false, or_false] at failed
  all_goals grind [→ Target.read_eq_error]

/-- A decode fails over a byte that is no opcode, or over a field that runs past the image. -/
theorem decode_eq_error (failed : decode image offset = .error fault) :
    (∃ byte, fault = .illegalOpcode byte offset) ∨ ∃ field, fault = .endOfImage field := by
  rcases Except.bind_eq_error.mp failed with unread | ⟨byte, -, rest⟩
  · exact .inr ⟨offset, (Image.read_eq_error_iff.mp unread).2⟩
  · cases known : Opcode.ofByte? byte with
    | some opcode =>
      rw [known] at rest
      exact .inr (read_eq_error rest)
    | none =>
      rw [known] at rest
      cases rest
      exact .inl ⟨byte, rfl⟩

end Instruction

end Tandem

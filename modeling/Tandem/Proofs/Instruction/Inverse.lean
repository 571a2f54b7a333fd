import Tandem.Instruction.Encoding
import Tandem.Proofs.Instruction.Extent

/-!
# Decoding inverts encoding

The encoding table and the decoder are two descriptions of one format. `Instruction.Decodes` says
what the table makes of the bytes at an offset: an instruction if they begin with its encoding,
a fault if their first byte is no opcode or if a field runs past the image. The decoder answers just
that (`Instruction.decode_eq_iff`).

The bytes behind an encoding have no part in it, and neither have those that a skip passes over,
which need not even lie in the image. The opcode and the operands of a decoded instruction do
(`Instruction.end_le_size_of_decode`).
-/

namespace Tandem

theorem Scalar.width_uint8 : width UInt8 = 1 := rfl

theorem Scalar.width_uint16 : width UInt16 = 2 := rfl

theorem Scalar.width_int8 : width Int8 = 1 := rfl

/-! ## Bytes of an image -/

/-- From `offset` on, the bytes of the image begin with `bytes`. -/
def Image.Holds (image : Image) (offset : Nat) (bytes : List UInt8) : Prop :=
  bytes <+: image.bytes.toList.drop offset

namespace Image

variable {image : Image} {offset : Nat} {first second : List UInt8}

theorem holds_nil (image : Image) (offset : Nat) : image.Holds offset [] := List.nil_prefix

theorem holds_append :
    image.Holds offset (first ++ second) ↔
      image.Holds offset first ∧ image.Holds (offset + first.length) second := by
  unfold Holds
  rw [← List.drop_drop]
  constructor
  · rintro ⟨rest, whole⟩
    refine ⟨⟨second ++ rest, by rw [← whole, List.append_assoc]⟩, rest, ?_⟩
    rw [← whole, List.append_assoc, List.drop_left]
  · rintro ⟨⟨rest, whole⟩, after⟩
    rw [← whole, List.drop_left] at after
    rw [← whole]
    exact (List.prefix_append_right_inj first).mpr after

theorem holds_cons {byte : UInt8} {rest : List UInt8} :
    image.Holds offset (byte :: rest) ↔
      image.Holds offset [byte] ∧ image.Holds (offset + 1) rest :=
  @holds_append image offset [byte] rest

theorem Holds.end_le_size {byte : UInt8} {rest : List UInt8}
    (holds : image.Holds offset (byte :: rest)) :
    offset + (byte :: rest).length ≤ image.size := by
  have whole : image.bytes.toList.length = image.size := Array.length_toList
  have bound : (byte :: rest).length ≤ (image.bytes.toList.drop offset).length := holds.length_le
  rw [List.length_drop, whole, List.length_cons] at bound
  rw [List.length_cons]
  omega

/-- A scalar is read exactly where the image holds its bytes. -/
theorem read_eq_ok_iff_holds {α : Type} [Scalar α] {a : α} (positive : 0 < Scalar.width α) :
    image.read α offset = .ok a ↔ image.Holds offset (Scalar.encode a) := by
  rw [read_eq_ok_iff, Holds, List.prefix_iff_eq_take, Scalar.length_encode, ← slice_eq]
  constructor
  · rintro ⟨-, same⟩
    exact same.symm
  · intro same
    have length := congrArg List.length same
    rw [slice_eq, Scalar.length_encode, List.length_take, List.length_drop, Array.length_toList]
      at length
    refine ⟨?_, same.symm⟩
    rw [size]
    omega

theorem read_byte_eq_ok_iff {byte : UInt8} :
    image.read UInt8 offset = .ok byte ↔ image.Holds offset [byte] := by
  rw [read_eq_ok_iff_holds (by decide)]
  have single : Scalar.encode byte = [byte] := by
    simp [Scalar.encode, Scalar.width_uint8, LittleEndian.encode, Scalar.toNat]
  rw [single]

/-- Something is read exactly where the field lies wholly inside the image. -/
theorem exists_read_iff {α : Type} [Scalar α] :
    (∃ a, image.read α offset = .ok a) ↔ offset + Scalar.width α ≤ image.size := by
  unfold read
  split <;> simp_all

end Image

/-! ## Opcodes and targets -/

theorem Width.code_of_ofCode? {number : UInt8} {width : Width}
    (found : ofCode? number = some width) : width.code = number := by
  unfold ofCode? at found
  split at found <;> cases found <;> rfl

namespace Opcode

theorem jumpByte_of_jump? {byte : UInt8} {condition : Condition} {width : Width}
    (known : jump? byte = some (condition, width)) : jumpByte condition width = byte := by
  unfold jump? at known
  split at known
  · simp only [Option.bind_eq_bind, Option.bind_eq_some_iff, Option.pure_def, Option.some.injEq,
      Prod.mk.injEq] at known
    obtain ⟨_, foundCondition, _, foundWidth, rfl, rfl⟩ := known
    rw [jumpByte, Condition.code_of_ofCode? foundCondition, Width.code_of_ofCode? foundWidth]
    -- Quotient and remainder by four make up the distance from the first jump byte.
    apply UInt8.toNat_inj.mp
    have := byte.toNat_lt
    simp [jumpFirst, UInt8.toNat_add, UInt8.toNat_mul, UInt8.toNat_sub, UInt8.toNat_div,
      UInt8.toNat_mod]
    omega
  · cases known

/-- The opcode of a byte is the one that has this byte. -/
theorem ofByte?_eq_some_iff {byte : UInt8} {opcode : Opcode} :
    ofByte? byte = some opcode ↔ opcode.toByte = byte := by
  constructor
  · intro known
    unfold ofByte? at known
    split at known
    case h_42 =>
      obtain ⟨⟨condition, width⟩, found, rfl⟩ := Option.map_eq_some_iff.mp known
      exact jumpByte_of_jump? found
    all_goals
      cases known
      rfl
  · rintro rfl
    exact ofByte?_toByte opcode

end Opcode

namespace Target

/-- The distances of each relative width are those of its signed numbers, and any offset is
absolute. -/
theorem encodable_iff {width : Width} {target : Target} :
    target.Encodable width ↔
      match width, target with
      | .near, .relative distance => -128 ≤ distance.toInt ∧ distance.toInt < 128
      | .short, .relative distance => -32768 ≤ distance.toInt ∧ distance.toInt < 32768
      | .long, .relative _ => True
      | .absolute, .absolute _ => True
      | _, _ => False := by
  cases width <;> cases target
  case near.relative distance =>
    simp only [Encodable, ← Int32.toInt_inj, Int8.toInt_toInt32, Int32.toInt_toInt8]
    rw [Int.bmod_eq_iff] <;> omega
  case short.relative distance =>
    simp only [Encodable, ← Int32.toInt_inj, Int16.toInt_toInt32, Int32.toInt_toInt16]
    rw [Int.bmod_eq_iff] <;> omega
  all_goals simp only [Encodable]

/-- A target of the given width is read exactly where the image holds its operand. -/
theorem read_eq_ok_iff {image : Image} {offset : Nat} {width : Width} {target : Target} :
    read image width offset = .ok target ↔
      target.Encodable width ∧ image.Holds offset (target.encode width) := by
  cases width <;> cases target <;>
    simp (disch := decide) only [read, Except.bind_eq_ok, Except.pure_eq_ok, Encodable, encode,
      Image.read_eq_ok_iff_holds, relative.injEq, absolute.injEq, reduceCtorEq, and_false, false_and,
      true_and, exists_false, exists_eq_right]
  case near.relative distance =>
    constructor
    · rintro ⟨distance, holds, rfl⟩
      simpa using holds
    · rintro ⟨fits, holds⟩
      exact ⟨distance.toInt8, holds, fits⟩
  case short.relative distance =>
    constructor
    · rintro ⟨distance, holds, rfl⟩
      simpa using holds
    · rintro ⟨fits, holds⟩
      exact ⟨distance.toInt16, holds, fits⟩

theorem read_eq_error_iff {image : Image} {offset : Nat} {width : Width} {fault : Fault} :
    read image width offset = .error fault ↔
      image.size < offset + width.operandSize ∧ fault = .endOfImage offset := by
  cases width <;>
    simp only [read, Except.bind_eq_error, Except.pure_ne_error, Image.read_eq_error_iff, and_false,
      exists_false, or_false] <;> exact Iff.rfl

end Target

/-! ## Fields -/

/-- Of the fields of the given widths that stand one after the other from `start` on, the first one
that does not lie wholly below `size` starts at `field`. -/
inductive FirstOutside (size : Nat) : (start : Nat) → (widths : List Nat) → (field : Nat) → Prop where
  | here {start width : Nat} {rest : List Nat} (outside : size < start + width) :
    FirstOutside size start (width :: rest) start
  | behind {start width field : Nat} {rest : List Nat} (inside : start + width ≤ size)
    (later : FirstOutside size (start + width) rest field) :
    FirstOutside size start (width :: rest) field

theorem not_firstOutside_nil {size start field : Nat} : ¬ FirstOutside size start [] field := nofun

theorem firstOutside_cons {size start width field : Nat} {rest : List Nat} :
    FirstOutside size start (width :: rest) field ↔
      size < start + width ∧ field = start ∨
        start + width ≤ size ∧ FirstOutside size (start + width) rest field := by
  constructor
  · rintro (outside | ⟨inside, later⟩)
    · exact .inl ⟨outside, rfl⟩
    · exact .inr ⟨inside, later⟩
  · rintro (⟨outside, rfl⟩ | ⟨inside, later⟩)
    · exact .here outside
    · exact .behind inside later

namespace Instruction

variable {image : Image} {offset : Nat} {instruction : Instruction} {opcode : Opcode}
  {fault : Fault}

/-- The operands of an instruction are read exactly where the image holds them. -/
theorem read_opcode_eq_ok_iff :
    read image offset instruction.opcode = .ok instruction ↔
      instruction.Encodable ∧ image.Holds offset instruction.operands.flatten := by
  cases instruction <;>
    simp (disch := decide) [-bind_pure_comp, opcode, read, Except.bind_eq_ok, Except.pure_eq_ok,
      Encodable, operands, Image.read_eq_ok_iff_holds, Image.holds_append, Image.holds_nil,
      Target.read_eq_ok_iff, Scalar.width_uint16, Scalar.width_int8]

/-- Operands cannot be read exactly where one of them runs past the image. -/
theorem read_eq_error_iff :
    read image offset opcode = .error fault ↔
      ∃ field, FirstOutside image.size offset opcode.operandWidths field ∧
        fault = .endOfImage field := by
  cases opcode <;>
    simp [-bind_pure_comp, read, Except.bind_eq_error, Except.pure_ne_error,
      Image.read_eq_error_iff, Target.read_eq_error_iff, Image.exists_read_iff,
      Opcode.operandWidths, firstOutside_cons, not_firstOutside_nil, and_assoc, or_and_right,
      exists_or, Scalar.width_uint8, Scalar.width_uint16, Scalar.width_int8]

/-! ## Decoding -/

/-- What the encoding table makes of the bytes of an image from an offset on. -/
inductive Decodes (image : Image) (offset : Nat) : Except Fault Instruction → Prop where
  | instruction {instruction : Instruction} (encodable : instruction.Encodable)
    (holds : image.Holds offset instruction.encode) : Decodes image offset (.ok instruction)
  /-- The first byte is that of no opcode. -/
  | unknown {byte : UInt8} (holds : image.Holds offset [byte])
    (illegal : ∀ opcode : Opcode, opcode.toByte ≠ byte) :
    Decodes image offset (.error (.illegalOpcode byte offset))
  /-- There is no first byte. -/
  | missing (outside : image.size ≤ offset) : Decodes image offset (.error (.endOfImage offset))
  /-- An operand runs past the image. -/
  | truncated {opcode : Opcode} {field : Nat} (holds : image.Holds offset [opcode.toByte])
    (outside : FirstOutside image.size (offset + 1) opcode.operandWidths field) :
    Decodes image offset (.error (.endOfImage field))

theorem decode_of_opcode (holds : image.Holds offset [opcode.toByte]) :
    decode image offset = read image (offset + 1) opcode := by
  simp [decode, Image.read_byte_eq_ok_iff.mpr holds, bind, Except.bind]

theorem decode_of_unknown {byte : UInt8} (holds : image.Holds offset [byte])
    (illegal : ∀ opcode : Opcode, opcode.toByte ≠ byte) :
    decode image offset = .error (.illegalOpcode byte offset) := by
  have unknown : Opcode.ofByte? byte = none := by
    rw [Option.eq_none_iff_forall_ne_some]
    exact fun opcode known => illegal opcode (Opcode.ofByte?_eq_some_iff.mp known)
  simp [decode, Image.read_byte_eq_ok_iff.mpr holds, bind, Except.bind, unknown, throw, throwThe,
    MonadExceptOf.throw]

theorem decode_of_missing (outside : image.size ≤ offset) :
    decode image offset = .error (.endOfImage offset) := by
  have unread : image.read UInt8 offset = .error (.endOfImage offset) := by
    rw [Image.read_eq_error_iff, Scalar.width_uint8]
    exact ⟨by omega, rfl⟩
  simp [decode, unread, bind, Except.bind]

/-- The table leaves no bytes out. -/
theorem decodes_decode (image : Image) (offset : Nat) :
    Decodes image offset (decode image offset) := by
  cases first : image.read UInt8 offset with
  | error fault =>
    have outside := (Image.read_eq_error_iff.mp first).1
    rw [Scalar.width_uint8] at outside
    rw [decode_of_missing (by omega)]
    exact .missing (by omega)
  | ok byte =>
    have holds := Image.read_byte_eq_ok_iff.mp first
    cases known : Opcode.ofByte? byte with
    | none =>
      have illegal : ∀ opcode : Opcode, opcode.toByte ≠ byte := by
        rintro opcode rfl
        rw [Opcode.ofByte?_toByte] at known
        cases known
      rw [decode_of_unknown holds illegal]
      exact .unknown holds illegal
    | some opcode =>
      obtain rfl := Opcode.ofByte?_eq_some_iff.mp known
      rw [decode_of_opcode holds]
      cases rest : read image (offset + 1) opcode with
      | ok instruction =>
        obtain rfl := opcode_of_read rest
        obtain ⟨encodable, behind⟩ := read_opcode_eq_ok_iff.mp rest
        exact .instruction encodable (Image.holds_cons.mpr ⟨holds, behind⟩)
      | error fault =>
        obtain ⟨field, outside, rfl⟩ := read_eq_error_iff.mp rest
        exact .truncated holds outside

theorem decode_of_decodes {result : Except Fault Instruction} (made : Decodes image offset result) :
    decode image offset = result := by
  cases made with
  | instruction encodable holds =>
    obtain ⟨first, behind⟩ := Image.holds_cons.mp holds
    rw [decode_of_opcode first, read_opcode_eq_ok_iff]
    exact ⟨encodable, behind⟩
  | unknown holds illegal => exact decode_of_unknown holds illegal
  | missing outside => exact decode_of_missing outside
  | truncated holds outside =>
    rw [decode_of_opcode holds, read_eq_error_iff]
    exact ⟨_, outside, rfl⟩

theorem decode_eq_iff {result : Except Fault Instruction} :
    decode image offset = result ↔ Decodes image offset result := by
  constructor
  · rintro rfl
    exact decodes_decode image offset
  · exact decode_of_decodes

theorem decode_eq_ok_iff :
    decode image offset = .ok instruction ↔
      instruction.Encodable ∧ image.Holds offset instruction.encode := by
  rw [decode_eq_iff]
  constructor
  · rintro (⟨encodable, holds⟩)
    exact ⟨encodable, holds⟩
  · rintro ⟨encodable, holds⟩
    exact .instruction encodable holds

/-- A byte of a branch is decoded as a jump on its condition. -/
theorem jump_of_decode {offset : Nat} {condition : Condition} {width : Width}
    (branch : image.read UInt8 offset = .ok (Opcode.jumpByte condition width))
    (decoded : decode image offset = .ok instruction) :
    ∃ target, instruction = .jump condition width target := by
  have opcode : (Opcode.jump condition width).toByte = Opcode.jumpByte condition width := rfl
  rw [← opcode, Image.read_byte_eq_ok_iff] at branch
  rw [decode_of_opcode branch] at decoded
  obtain ⟨target, -, result⟩ := Except.bind_eq_ok.mp decoded
  cases result
  exact ⟨target, rfl⟩

/-- The opcode byte of a decoded jump stands where it was decoded. -/
theorem read_of_decode_jump {offset : Nat} {condition : Condition} {width : Width}
    {target : Target} (decoded : decode image offset = .ok (.jump condition width target)) :
    image.read UInt8 offset = .ok (Opcode.jumpByte condition width) := by
  obtain ⟨-, holds⟩ := decode_eq_ok_iff.mp decoded
  exact Image.read_byte_eq_ok_iff.mpr (Image.holds_cons.mp holds).1

/-- The length table agrees with the encoding. -/
theorem size_opcode_of_encodable (encodable : instruction.Encodable) :
    instruction.opcode.size = instruction.encode.length := by
  calc instruction.opcode.size
    _ = (instruction.operands.map List.length).foldl (· + ·) (1 + 0) := by
        rw [Opcode.size, map_length_operands encodable]
    _ = 1 + (instruction.operands.map List.length).foldl (· + ·) 0 := List.foldl_assoc
    _ = 1 + instruction.operands.flatten.length := by
        rw [List.length_flatten, List.sum_eq_foldl]
    _ = instruction.encode.length := by rw [encode, List.length_cons, Nat.add_comm]

/-- A decoded instruction lies inside of the image with all of its operands. -/
theorem end_le_size_of_decode (decoded : decode image offset = .ok instruction) :
    offset + instruction.opcode.size ≤ image.size := by
  obtain ⟨encodable, holds⟩ := decode_eq_ok_iff.mp decoded
  rw [size_opcode_of_encodable encodable]
  exact holds.end_le_size

/-- Bytes that begin with an encoding begin with no other one. -/
theorem eq_of_holds_encode {other : Instruction} (encodable : instruction.Encodable)
    (holds : image.Holds offset instruction.encode) (encodable' : other.Encodable)
    (holds' : image.Holds offset other.encode) : instruction = other := by
  have decoded := decode_eq_ok_iff.mpr ⟨encodable, holds⟩
  have decoded' := decode_eq_ok_iff.mpr ⟨encodable', holds'⟩
  exact Except.ok.inj (decoded.symm.trans decoded')

/-- **Decoding inverts encoding.** The decoder answers as the encoding table says, at every offset
of every image. The instruction of some bytes is therefore the only one whose encoding they begin
with, it takes these bytes and the ones it skips, and the bytes behind its encoding do not matter:
wherever else an image holds it, it is decoded again. -/
theorem decode_inverts_encode (image : Image) (offset : Nat) :
    (∀ result, decode image offset = result ↔ Decodes image offset result) ∧
    (∀ instruction, decode image offset = .ok instruction ↔
      instruction.Encodable ∧ image.Holds offset instruction.encode) ∧
    ∀ instruction, decode image offset = .ok instruction →
      instruction.length = instruction.encode.length + instruction.skipped ∧
      (∀ other : Instruction, other.Encodable → image.Holds offset other.encode →
        other = instruction) ∧
      ∀ (another : Image) (elsewhere : Nat), another.Holds elsewhere instruction.encode →
        decode another elsewhere = .ok instruction := by
  refine ⟨fun result => decode_eq_iff, fun instruction => decode_eq_ok_iff, ?_⟩
  intro instruction decoded
  obtain ⟨encodable, holds⟩ := decode_eq_ok_iff.mp decoded
  refine ⟨?_, ?_, ?_⟩
  · rw [length, size_opcode_of_encodable encodable]
  · intro other encodable' holds'
    exact eq_of_holds_encode encodable' holds' encodable holds
  · intro another elsewhere holds'
    exact decode_eq_ok_iff.mpr ⟨encodable, holds'⟩

/-- A return whose second operand is cut off, and in its place a skip past the end. -/
def cutOff : Image where
  bytes := #[0x7C, 0x08, 0x00, 0x91, 0x05]
  entry := 0
  entry_lt := by decide

theorem decode_cutOff :
    decode cutOff 0 = .error (.endOfImage 3) ∧ decode cutOff 2 = .error (.illegalOpcode 0 2) ∧
      decode cutOff 3 = .ok (.skip 5) ∧ (skip 5).length = 7 := by
  have truncated : FirstOutside cutOff.size 1 Opcode.retLongWith.operandWidths 3 :=
    .behind (by decide) (.here (by decide))
  have illegal : ∀ opcode : Opcode, opcode.toByte ≠ 0 := by
    intro opcode same
    have known := Opcode.ofByte?_toByte opcode
    rw [same] at known
    cases known
  obtain ⟨atReturn, -, -⟩ := decode_inverts_encode cutOff 0
  obtain ⟨atZero, -, -⟩ := decode_inverts_encode cutOff 2
  obtain ⟨-, atSkip, extent⟩ := decode_inverts_encode cutOff 3
  have skips := (atSkip (.skip 5)).mpr ⟨trivial, [], rfl⟩
  exact ⟨(atReturn _).mpr (.truncated ⟨_, rfl⟩ truncated),
    (atZero _).mpr (.unknown ⟨_, rfl⟩ illegal), skips, (extent _ skips).1⟩

end Instruction

end Tandem

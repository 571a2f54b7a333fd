import Tandem.Instruction.Basic
import Tandem.Text.Column

/-!
# Instructions as text

Two forms. The listing form is a mnemonic and its operands, as listings and trace records show it;
different instructions differ in it. The structural form names the instruction and gives its
operands as plain decimal numbers.
-/

namespace Tandem

/-- The name of a slot: locals and arguments are both counted from zero. -/
def slotName (slot : Slot) : String :=
  match slot.toInt with
  | .ofNat index => "var" ++ toString index
  | .negSucc index => "arg" ++ toString index

/-- The name of an opcode in structural descriptions. -/
def Opcode.structuralName : Opcode → String
  | .push => "Push"
  | .pushWord => "PushI32"
  | .pushWide => "PushI64"
  | .pushZero .word => "PushI32Zero"
  | .pushZero .wide => "PushI64Zero"
  | .pop .word => "PopI32"
  | .pop .wide => "PopI64"
  | .reserve => "AddSp"
  | .reserveWord => "AddSp4"
  | .release => "SubSp"
  | .load => "Load"
  | .loadAcc => "LoadEax"
  | .fetch => "MoveToEax"
  | .save => "CopyToEax"
  | .move => "Move"
  | .step .add => "Inc"
  | .step .sub => "Dec"
  | .update .add => "Add"
  | .updateBy .add => "AddImm"
  | .accumulate .add => "AddEax"
  | .accumulateBy .add => "AddEaxImm"
  | .update .sub => "Sub"
  | .updateBy .sub => "SubImm"
  | .accumulate .sub => "SubEax"
  | .accumulateBy .sub => "SubEaxImm"
  | .compare .signed => "CmpI32"
  | .compare .unsigned => "CmpU32"
  | .compareWith .signed => "CmpImmI32"
  | .compareWith .unsigned => "CmpImmU32"
  | .jump _ _ => "Jump"
  | .call _ => "Call"
  | .ret => "Ret"
  | .retShort => "RetNSm"
  | .retLong => "RetN"
  | .retWith => "RetEax"
  | .retLongWith => "RetEaxN"
  | .nop => "Nop"
  | .skip => "NopN"
  | .exit => "Exit"

namespace Instruction

/-- The operands of an instruction as listings show them. -/
def operandText : Instruction → String
  | .push source => slotName source
  | .pushWord value => Numeral.word value.toUInt32.toNat
  | .pushWide value => Numeral.wideWord value.toUInt64.toNat
  | .pushZero _ => ""
  | .pop _ => ""
  | .reserve count => toString count.toNat
  | .reserveWord => ""
  | .release count => toString count.toNat
  | .load destination value => slotName destination ++ ", " ++ Numeral.word value.toNat
  | .loadAcc value => "eax, " ++ Numeral.word value.toNat
  | .fetch source => slotName source
  | .save destination => slotName destination
  | .move destination source => slotName destination ++ ", " ++ slotName source
  | .step _ destination => slotName destination
  | .update _ destination source => slotName destination ++ ", " ++ slotName source
  | .updateBy _ destination value => slotName destination ++ ", " ++ Numeral.word value.toNat
  | .accumulate _ source => "eax, " ++ slotName source
  | .accumulateBy _ value => "eax, " ++ Numeral.word value.toNat
  | .compare _ left right => slotName left ++ ", " ++ slotName right
  | .compareWith .signed left right =>
    slotName left ++ ", " ++ Numeral.decimal right.toInt32.toInt
  | .compareWith .unsigned left right => slotName left ++ ", " ++ Numeral.word right.toNat
  | .jump _ _ target => target.text
  | .call _ target => target.text
  | .ret => ""
  | .retShort count => toString count.toNat
  | .retLong count => toString count.toNat
  | .retWith value => "eax, " ++ Numeral.word value.toNat
  | .retLongWith count value => toString count.toNat ++ ", eax, " ++ Numeral.word value.toNat
  | .nop => ""
  | .skip count => toString count.toNat
  | .exit => ""

/-- An instruction as listings show it: operands, if there are any, start in the second column. -/
def text (instruction : Instruction) : String :=
  if instruction.operandText.isEmpty then instruction.mnemonic
  else column 12 instruction.mnemonic ++ " " ++ instruction.operandText

/-- The operands of an instruction in structural descriptions. -/
def structuralOperands : Instruction → List String
  | .push source => [Numeral.decimal source.toInt]
  | .pushWord value => [Numeral.decimal value.toInt]
  | .pushWide value => [Numeral.decimal value.toInt]
  | .pushZero _ => []
  | .pop _ => []
  | .reserve count => [toString count.toNat]
  | .reserveWord => []
  | .release count => [toString count.toNat]
  | .load destination value => [Numeral.decimal destination.toInt, toString value.toNat]
  | .loadAcc value => [toString value.toNat]
  | .fetch source => [Numeral.decimal source.toInt]
  | .save destination => [Numeral.decimal destination.toInt]
  | .move destination source =>
    [Numeral.decimal destination.toInt, Numeral.decimal source.toInt]
  | .step _ destination => [Numeral.decimal destination.toInt]
  | .update _ destination source =>
    [Numeral.decimal destination.toInt, Numeral.decimal source.toInt]
  | .updateBy _ destination value =>
    [Numeral.decimal destination.toInt, toString value.toNat]
  | .accumulate _ source => [Numeral.decimal source.toInt]
  | .accumulateBy _ value => [toString value.toNat]
  | .compare _ left right => [Numeral.decimal left.toInt, Numeral.decimal right.toInt]
  | .compareWith reading left right =>
    [Numeral.decimal left.toInt, Numeral.decimal (reading.read right)]
  | .jump condition width target => [condition.name, width.name, target.describe]
  | .call width target => [width.name, target.describe]
  | .ret => []
  | .retShort count => [toString count.toNat]
  | .retLong count => [toString count.toNat]
  | .retWith value => [toString value.toNat]
  | .retLongWith count value => [toString count.toNat, toString value.toNat]
  | .nop => []
  | .skip count => [toString count.toNat]
  | .exit => []

/-- The structural form of an instruction: its name, and its operands in parentheses if there are
any. -/
def describe (instruction : Instruction) : String :=
  match structuralOperands instruction with
  | [] => instruction.opcode.structuralName
  | operands =>
    instruction.opcode.structuralName ++ "(" ++ ", ".intercalate operands ++ ")"

end Instruction

end Tandem

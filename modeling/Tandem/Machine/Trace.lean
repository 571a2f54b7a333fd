import Tandem.Text.Column
import Tandem.Text.Numeral

/-!
# Trace records

What an instruction left behind, one record for each instruction that a run completes. Records are
diagnostic: nothing that runs reads them back.
-/

namespace Tandem

/-- One executed instruction and the registers after its effect. -/
structure Record where
  offset : Nat
  mnemonic : String
  operands : String
  accumulator : UInt32
  flag : Bool
  deriving Repr, DecidableEq

/-- A record as one line of text, its fields in columns. -/
def Record.text (record : Record) : String :=
  Numeral.hex 8 record.offset ++ ": " ++ column 12 record.mnemonic ++ " "
    ++ column 24 record.operands ++ " eax=" ++ Numeral.word record.accumulator.toNat
    ++ " flags=" ++ (if record.flag then "1" else "0")

end Tandem

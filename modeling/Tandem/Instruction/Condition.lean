/-!
# Conditions

A compare orders two words, read as signed or as unsigned numbers. Which predicate it evaluates is
said by the branch that follows it: the condition of that branch. Both readings embed into the
integers, so one `holds` serves them.
-/

namespace Tandem

/-- How the bits of a word are read as a number. -/
inductive Signedness where
  | signed
  | unsigned
  deriving Repr, DecidableEq, Inhabited

/-- The number that a word stands for. -/
def Signedness.read : Signedness → UInt32 → Int
  | .signed, word => word.toInt32.toInt
  | .unsigned, word => word.toNat

/-- The predicate of a branch on the operands of the compare before it. -/
inductive Condition where
  | always
  | equal
  | notEqual
  | less
  | lessEqual
  | greater
  | greaterEqual
  /-- The left operand is above zero; the right one does not matter. -/
  | sign
  /-- The left operand is not above zero; the right one does not matter. -/
  | notSign
  deriving Repr, DecidableEq, Inhabited

namespace Condition

/-- Whether the condition holds of a pair of operands. -/
def holds : Condition → (left right : Int) → Bool
  | .always, _, _ => true
  | .equal, left, right => left == right
  | .notEqual, left, right => left != right
  | .less, left, right => decide (left < right)
  | .lessEqual, left, right => decide (left ≤ right)
  | .greater, left, right => decide (right < left)
  | .greaterEqual, left, right => decide (right ≤ left)
  | .sign, left, _ => decide (0 < left)
  | .notSign, left, _ => decide (left ≤ 0)

/-- The number of a condition in branch opcodes. -/
def code : Condition → UInt8
  | .always => 0
  | .equal => 1
  | .notEqual => 2
  | .less => 3
  | .lessEqual => 4
  | .greater => 5
  | .greaterEqual => 6
  | .sign => 7
  | .notSign => 8

/-- The condition of a number. -/
def ofCode? : UInt8 → Option Condition
  | 0 => some .always
  | 1 => some .equal
  | 2 => some .notEqual
  | 3 => some .less
  | 4 => some .lessEqual
  | 5 => some .greater
  | 6 => some .greaterEqual
  | 7 => some .sign
  | 8 => some .notSign
  | _ => none

@[simp] theorem ofCode?_code (condition : Condition) :
    ofCode? condition.code = some condition := by
  cases condition <;> rfl

theorem code_of_ofCode? {number : UInt8} {condition : Condition}
    (found : ofCode? number = some condition) : condition.code = number := by
  unfold ofCode? at found
  split at found <;> cases found <;> rfl

/-- The letters of a condition in branch mnemonics. -/
def letters : Condition → String
  | .always => "mp"
  | .equal => "e"
  | .notEqual => "ne"
  | .less => "l"
  | .lessEqual => "le"
  | .greater => "g"
  | .greaterEqual => "ge"
  | .sign => "s"
  | .notSign => "ns"

/-- The name of a condition in structural descriptions. -/
def name : Condition → String
  | .always => "Always"
  | .equal => "Equal"
  | .notEqual => "NotEqual"
  | .less => "Less"
  | .lessEqual => "LessEqual"
  | .greater => "Greater"
  | .greaterEqual => "GreaterEqual"
  | .sign => "Sign"
  | .notSign => "NotSign"

end Condition

end Tandem

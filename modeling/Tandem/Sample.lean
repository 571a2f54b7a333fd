import Tandem.Instruction.Encoding

/-!
# Sample images

Built-in programs, written as instructions and assembled to bytes; each is entered at its first
byte. `fibonacci` says what the first of them computes.
-/

namespace Tandem

/-- A built-in program. -/
inductive Sample where
  /-- The Fibonacci number of the argument, by recursion. -/
  | fibonacci
  /-- The sum of the numbers from one to the argument, by a loop. -/
  | countdown
  /-- Stops at once. -/
  | halt
  /-- Pushes zeros until the stack is full. -/
  | pushForever
  deriving Repr, DecidableEq, Inhabited

namespace Sample

/-- The last value pushed before a call. -/
def arg0 : Slot := -1

/-- The first local. -/
def var0 : Slot := 0

/-- The second local. -/
def var1 : Slot := 1

/-- Instructions without effect, which fill a program up to the next part of it. -/
def padding (count : Nat) : List Instruction := List.replicate count .nop

/-- Calls the Fibonacci function with the argument of the run and hands on its value. -/
def fibonacciStart : List Instruction :=
  [.push arg0, .call .short (.relative 11), .pop .word, .ret]

/-- The Fibonacci function: the sum of its values at the two numbers before the argument, unless
the argument is below three. -/
def fibonacciFunction : List Instruction :=
  [.compareWith .signed arg0 3,
    .jump .less .near (.relative 24),
    .reserveWord,
    .push arg0,
    .step .sub var1,
    .call .near (.relative (-15)),
    .save var0,
    .step .sub var1,
    .call .near (.relative (-21)),
    .accumulate .add var0,
    .retLong 8]

/-- The value of the Fibonacci function below three. -/
def fibonacciBase : List Instruction := [.retWith 1]

/-- Where control ends up if nothing else ends it. -/
def trap : List Instruction := [.exit]

/-- Recursive Fibonacci. Each of its parts stands at a multiple of sixteen, and the last byte is a
trap. -/
def fibonacciProgram : List Instruction :=
  fibonacciStart ++ padding 9 ++ fibonacciFunction ++ padding 6 ++ fibonacciBase ++ padding 10
    ++ trap

/-- A loop that adds the argument to the accumulator and counts it down to zero. -/
def countdownProgram : List Instruction :=
  [.compareWith .signed arg0 0,
    .jump .lessEqual .near (.relative 6),
    .accumulate .add arg0,
    .step .sub arg0,
    .jump .always .near (.relative (-14)),
    .ret]

/-- The instructions of a sample. -/
def program : Sample → List Instruction
  | .fibonacci => fibonacciProgram
  | .countdown => countdownProgram
  | .halt => [.exit]
  | .pushForever => [.pushZero .word, .jump .always .near (.relative (-3))]

/-- The bytes of a sample. -/
def bytes (sample : Sample) : Array UInt8 := Instruction.assemble sample.program

end Sample

/-- The Fibonacci numbers at `n + 1` and `n + 2`. -/
def consecutiveFibonacci : Nat → Nat × Nat
  | 0 => (1, 1)
  | n + 1 =>
    let (lower, upper) := consecutiveFibonacci n
    (upper, lower + upper)

/-- The Fibonacci numbers, with one at all of zero, one and two. -/
def fibonacci : Nat → Nat
  | 0 => 1
  | n + 1 => (consecutiveFibonacci n).1

theorem fibonacci_of_lt_three {n : Nat} (small : n < 3) : fibonacci n = 1 := by
  match n, small with
  | 0, _ => rfl
  | 1, _ => rfl
  | 2, _ => rfl

theorem fibonacci_add_three (n : Nat) :
    fibonacci (n + 3) = fibonacci (n + 2) + fibonacci (n + 1) := by
  simp only [fibonacci, consecutiveFibonacci]
  omega

end Tandem

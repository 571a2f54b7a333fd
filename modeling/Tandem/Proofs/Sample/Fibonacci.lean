import Tandem.Proofs.Sample.Basic

/-!
# The Fibonacci sample

The function of the sample calls itself twice unless its argument is below three. Its frame holds two
locals: the value of the first call, and the argument of the next one, which is counted down. Below
its frame it changes nothing, so that the second call finds the locals as the first one has left
them. By induction on the argument the function returns the Fibonacci number of it
(`Fibonacci.reaches_function`), with the stack no deeper than 24 bytes for each number above two.

Arguments are compared as signed numbers: a negative one is below three.
-/

namespace Tandem.Fibonacci

open Tandem.Machine Tandem.Sequential

theorem fibonacci_pos (n : Nat) : 0 < fibonacci n := by
  induction n using Nat.strong_induction_on
  case h n ih =>
    rcases Nat.lt_or_ge n 3 with few | many
    · rw [fibonacci_of_lt_three few]
      exact Nat.one_pos
    · obtain ⟨n, rfl⟩ : ∃ m, n = m + 3 := ⟨n - 3, by omega⟩
      rw [fibonacci_add_three]
      exact Nat.add_pos_left (ih (n + 2) (by omega)) _

/-! ## The function -/

variable {below : List UInt8} {argument : UInt32} {caller address size n : Nat}
  {registers : Registers} {fused : Bool} {stats : Stats}

/-- The counters after the function was run on `n` with its frame at `depth`. -/
def counted (n depth : Nat) (stats : Stats) : Stats where
  instructions := stats.instructions + (14 * fibonacci n - 11)
  calls := stats.calls + (2 * fibonacci n - 2)
  returns := stats.returns + (2 * fibonacci n - 1)
  maxDepth := max stats.maxDepth (depth + 24 * (n - 2))

/-- The function returns one at once for an argument that is below three as a signed number. -/
theorem reaches_base (below : List UInt8) (small : Signedness.signed.read argument < 3)
    (fits : below.length + 4 < UInt64.size) (low : caller ≤ below.length + 4)
    (inside : address < Sample.fibonacci.image.size) :
    Reaches Sample.fibonacci.image size
      ⟨0x10, ⟨below.length + 20, Frame.called below argument caller address.toUInt64, registers,
        fused⟩, stats⟩
      ⟨address, ⟨caller, below ++ Scalar.encode argument, ⟨1, true⟩, false⟩,
        counted 0 (below.length + 20) stats⟩ := by
  have compares : Instruction.decode Sample.fibonacci.image 0x10 =
      .ok (.compareWith .signed Sample.arg0 3) := rfl
  have branches : Instruction.decode Sample.fibonacci.image 0x16 =
      .ok (.jump .less .near (.relative 24)) := rfl
  have returnsOne : Instruction.decode Sample.fibonacci.image 0x30 = .ok (.retWith 1) := rfl
  have bare := (List.append_nil (Frame.called below argument caller address.toUInt64)).symm
  refine .counted (calc
    Reaches Sample.fibonacci.image size
      ⟨0x10, ⟨below.length + 20, Frame.called below argument caller address.toUInt64, registers,
        fused⟩, stats⟩
      ⟨0x30, ⟨below.length + 20, Frame.called below argument caller address.toUInt64,
        ⟨registers.accumulator, true⟩, false⟩, _⟩ :=
      .taken compares branches rfl (by decide) (hasSlot_arg0 bare) (decide_eq_true small) (by decide)
    Reaches Sample.fibonacci.image size _
      ⟨address, ⟨caller, below ++ Scalar.encode argument, ⟨1, true⟩, false⟩, _⟩ :=
      .of_execute returnsOne (execute_achieves (.bind (modifyAccumulator_achieves fun _ => 1)
        (ret_called bare rfl inside (by decide) fits low))) rfl) ?_
  simp [Stats.after, Flow.counted, counted, fibonacci]

/-- Any other argument is first counted down by one for a call. -/
theorem reaches_first_call {returnAddress : UInt64}
    (large : ¬ Signedness.signed.read argument < 3) (room : below.length + 44 ≤ size) :
    let frame := Frame.called below argument caller returnAddress
    let above := frame ++ Scalar.encode (0 : UInt32)
    Reaches Sample.fibonacci.image size
      ⟨0x10, ⟨below.length + 20, frame, registers, fused⟩, stats⟩
      ⟨0x10, ⟨above.length + 20,
        Frame.called above (argument - 1) (below.length + 20) (Nat.toUInt64 0x1F),
        ⟨registers.accumulator, false⟩, false⟩,
        { stats with
          instructions := stats.instructions + 6
          calls := stats.calls + 1
          maxDepth := max stats.maxDepth (below.length + 44) }⟩ := by
  intro frame above
  have base : frame.length = below.length + 20 := Frame.length_called ..
  have height : above.length = below.length + 24 := by simp [above, base]
  have compares : Instruction.decode Sample.fibonacci.image 0x10 =
      .ok (.compareWith .signed Sample.arg0 3) := rfl
  have branches : Instruction.decode Sample.fibonacci.image 0x16 =
      .ok (.jump .less .near (.relative 24)) := rfl
  have reserves : Instruction.decode Sample.fibonacci.image 0x18 = .ok .reserveWord := rfl
  have pushes : Instruction.decode Sample.fibonacci.image 0x19 = .ok (.push Sample.arg0) := rfl
  have steps : Instruction.decode Sample.fibonacci.image 0x1B =
      .ok (.step .sub Sample.var1) := rfl
  have calls : Instruction.decode Sample.fibonacci.image 0x1D =
      .ok (.call .near (.relative (-15))) := rfl
  have leads : (Target.relative (-15)).resolve 0x1F = .ok 0x10 := by decide
  refine .counted (calc
    Reaches Sample.fibonacci.image size
      ⟨0x10, ⟨below.length + 20, frame, registers, fused⟩, stats⟩
      ⟨0x18, ⟨below.length + 20, frame, ⟨registers.accumulator, false⟩, false⟩, _⟩ :=
      .passed compares branches rfl (by decide) (hasSlot_arg0 (List.append_nil frame).symm)
        (decide_eq_false large) rfl
    Reaches Sample.fibonacci.image size _
      ⟨0x19, ⟨below.length + 20, above, ⟨registers.accumulator, false⟩, false⟩, _⟩ :=
      .of_execute reserves (reserveWord_achieves (by dsimp only; omega)) rfl
    Reaches Sample.fibonacci.image size _
      ⟨0x1B, ⟨below.length + 20, above ++ Scalar.encode argument, ⟨registers.accumulator, false⟩,
        false⟩, _⟩ :=
      .of_execute pushes (push_achieves (hasSlot_arg0 rfl) (by dsimp only; omega)) rfl
    Reaches Sample.fibonacci.image size _
      ⟨0x1D, ⟨below.length + 20, above ++ Scalar.encode (argument - 1),
        ⟨registers.accumulator, false⟩, false⟩, _⟩ :=
      .of_execute steps (step_achieves (hasSlot_var1 base.symm (List.append_nil _).symm)
        (List.append_nil _).symm) rfl
    Reaches Sample.fibonacci.image size _
      ⟨0x10, ⟨above.length + 20,
        Frame.called above (argument - 1) (below.length + 20) (Nat.toUInt64 0x1F),
        ⟨registers.accumulator, false⟩, false⟩, _⟩ :=
      .of_execute calls (call_achieves leads (by simp [Frame.headerSize]) (by omega) rfl) rfl) ?_
  simp [Stats.after, Flow.counted, base, height]

/-- The value of the first call is kept in the frame, and its argument is counted down for the
second call. -/
theorem reaches_second_call {frame : List UInt8} {depth : Nat} {kept : UInt32}
    (base : depth = frame.length) (room : depth + 24 ≤ size) :
    let above := frame ++ Scalar.encode registers.accumulator
    Reaches Sample.fibonacci.image size
      ⟨0x1F, ⟨depth, frame ++ Scalar.encode kept ++ Scalar.encode argument, registers, fused⟩, stats⟩
      ⟨0x10, ⟨above.length + 20, Frame.called above (argument - 1) depth (Nat.toUInt64 0x25),
        registers, fused⟩,
        { stats with
          instructions := stats.instructions + 3
          calls := stats.calls + 1
          maxDepth := max stats.maxDepth (depth + 24) }⟩ := by
  intro above
  have height : above.length = depth + 4 := by simp [above, base]
  have saves : Instruction.decode Sample.fibonacci.image 0x1F = .ok (.save Sample.var0) := rfl
  have steps : Instruction.decode Sample.fibonacci.image 0x21 =
      .ok (.step .sub Sample.var1) := rfl
  have calls : Instruction.decode Sample.fibonacci.image 0x23 =
      .ok (.call .near (.relative (-21))) := rfl
  have leads : (Target.relative (-21)).resolve 0x25 = .ok 0x10 := by decide
  refine .counted (calc
    Reaches Sample.fibonacci.image size
      ⟨0x1F, ⟨depth, frame ++ Scalar.encode kept ++ Scalar.encode argument, registers, fused⟩, stats⟩
      ⟨0x21, ⟨depth, above ++ Scalar.encode argument, registers, fused⟩, _⟩ :=
      .of_execute saves (save_achieves (hasSlot_var0 base rfl) rfl) rfl
    Reaches Sample.fibonacci.image size _
      ⟨0x23, ⟨depth, above ++ Scalar.encode (argument - 1), registers, fused⟩, _⟩ :=
      .of_execute steps (step_achieves (hasSlot_var1 base (List.append_nil _).symm)
        (List.append_nil _).symm) rfl
    Reaches Sample.fibonacci.image size _
      ⟨0x10, ⟨above.length + 20, Frame.called above (argument - 1) depth (Nat.toUInt64 0x25),
        registers, fused⟩, _⟩ :=
      .of_execute calls (call_achieves leads (by simp [Frame.headerSize]) (by omega) rfl) rfl) ?_
  simp [Stats.after, Flow.counted, height]

/-- The values of the two calls are added up. -/
theorem reaches_return {kept other : UInt32} (fits : below.length + 4 < UInt64.size)
    (low : caller ≤ below.length + 4) (inside : address < Sample.fibonacci.image.size) :
    Reaches Sample.fibonacci.image size
      ⟨0x25, ⟨below.length + 20, Frame.called below argument caller address.toUInt64 ++
        Scalar.encode kept ++ Scalar.encode other, registers, fused⟩, stats⟩
      ⟨address, ⟨caller, below ++ Scalar.encode argument,
        { registers with accumulator := registers.accumulator + kept }, fused⟩,
        { stats with
          instructions := stats.instructions + 2
          returns := stats.returns + 1
          maxDepth := max stats.maxDepth (below.length + 28) }⟩ := by
  have accumulates : Instruction.decode Sample.fibonacci.image 0x25 =
      .ok (.accumulate .add Sample.var0) := rfl
  have returns : Instruction.decode Sample.fibonacci.image 0x27 = .ok (.retLong 8) := rfl
  have split := List.append_assoc (Frame.called below argument caller address.toUInt64)
    (Scalar.encode kept) (Scalar.encode other)
  refine .counted (calc
    Reaches Sample.fibonacci.image size
      ⟨0x25, ⟨below.length + 20, Frame.called below argument caller address.toUInt64 ++
        Scalar.encode kept ++ Scalar.encode other, registers, fused⟩, stats⟩
      ⟨0x27, ⟨below.length + 20, Frame.called below argument caller address.toUInt64 ++
        Scalar.encode kept ++ Scalar.encode other,
        { registers with accumulator := registers.accumulator + kept }, fused⟩, _⟩ :=
      .of_execute accumulates
        (accumulate_achieves (hasSlot_var0 (Frame.length_called ..).symm rfl) rfl) rfl
    Reaches Sample.fibonacci.image size _
      ⟨address, ⟨caller, below ++ Scalar.encode argument,
        { registers with accumulator := registers.accumulator + kept }, fused⟩, _⟩ :=
      .of_execute returns
        (execute_achieves (ret_called split (by simp) inside (by decide) fits low)) rfl) ?_
  simp [Stats.after, Flow.counted]

theorem counted_of_lt_three {depth : Nat} (small : n < 3) :
    counted n depth stats = counted 0 depth stats := by
  have none : n - 2 = 0 := by omega
  have zero : fibonacci 0 = 1 := fibonacci_of_lt_three (by decide)
  rw [counted, counted, fibonacci_of_lt_three small, none, zero]

/-- The function computes the Fibonacci number of an argument that is not negative, modulo the range
of words. It leaves everything below its frame as it was. -/
theorem reaches_function (below : List UInt8) (fits : size < UInt64.size) (small : n < 0x80000000)
    (room : below.length + 20 + 24 * (n - 2) ≤ size) (low : caller ≤ below.length + 4)
    (inside : address < Sample.fibonacci.image.size) :
    Reaches Sample.fibonacci.image size
      ⟨0x10, ⟨below.length + 20, Frame.called below (.ofNat n) caller address.toUInt64, registers,
        fused⟩, stats⟩
      ⟨address, ⟨caller, below ++ Scalar.encode (UInt32.ofNat n), ⟨.ofNat (fibonacci n), true⟩,
        false⟩, counted n (below.length + 20) stats⟩ := by
  induction n using Nat.strong_induction_on generalizing below caller address registers fused stats
  case h n ih =>
    rcases Nat.lt_or_ge n 3 with few | many
    · rw [counted_of_lt_three few, fibonacci_of_lt_three few]
      exact reaches_base below (by rw [read_ofNat small]; omega) (by omega) low inside
    obtain ⟨n, rfl⟩ : ∃ m, n = m + 3 := ⟨n - 3, by omega⟩
    have large : ¬ Signedness.signed.read (.ofNat (n + 3)) < 3 := by
      rw [read_ofNat small]
      omega
    have sum : UInt32.ofNat (fibonacci (n + 1)) + .ofNat (fibonacci (n + 2)) =
        .ofNat (fibonacci (n + 3)) := by
      rw [fibonacci_add_three, UInt32.ofNat_add, UInt32.add_comm]
    refine .counted (calc
      Reaches Sample.fibonacci.image size
        ⟨0x10, ⟨below.length + 20, Frame.called below (.ofNat (n + 3)) caller address.toUInt64,
          registers, fused⟩, stats⟩
        ⟨0x10, _, _⟩ := reaches_first_call large (by omega)
      Reaches Sample.fibonacci.image size _ ⟨0x1F, _, _⟩ := by
        rw [ofNat_succ_sub_one]
        exact ih (n + 2) (by omega) _ (by omega) (by simp; omega) (by simp) (by decide)
      Reaches Sample.fibonacci.image size _ ⟨0x10, _, _⟩ :=
        reaches_second_call (Frame.length_called ..).symm (by omega)
      Reaches Sample.fibonacci.image size _ ⟨0x25, _, _⟩ := by
        rw [ofNat_succ_sub_one]
        exact ih (n + 1) (by omega) _ (by omega) (by simp; omega) (by simp) (by decide)
      Reaches Sample.fibonacci.image size _
        ⟨address, ⟨caller, below ++ Scalar.encode (UInt32.ofNat (n + 3)),
          ⟨.ofNat (fibonacci (n + 3)), true⟩, false⟩, _⟩ := by
        rw [← sum]
        exact reaches_return (by omega) low inside) ?_
    have first := fibonacci_pos (n + 1)
    have second := fibonacci_pos (n + 2)
    have total := fibonacci_add_three n
    simp [counted]
    omega

/-! ## The run -/

/-- The counters after a run on `n`. -/
def totals (n : Nat) : Stats where
  instructions := 14 * fibonacci n - 7
  calls := 2 * fibonacci n - 1
  returns := 2 * fibonacci n - 1
  maxDepth := 40 + 24 * (n - 2)

/-- The sample hands on what the function returns to it. -/
theorem halts_of_function {value : UInt32} (room : 40 ≤ size)
    (function : ∀ {registers stats}, Reaches Sample.fibonacci.image size
      ⟨0x10, ⟨40, Frame.called (Frame.called [] argument 0 Frame.noCaller) argument 20
        (Nat.toUInt64 5), registers, false⟩, stats⟩
      ⟨5, ⟨20, Frame.called [] argument 0 Frame.noCaller ++ Scalar.encode argument, ⟨value, true⟩,
        false⟩, counted n 40 stats⟩) :
    Halts Sample.fibonacci.image size (.entry Sample.fibonacci.image argument) value (totals n) := by
  have pushes : Instruction.decode Sample.fibonacci.image 0 = .ok (.push Sample.arg0) := rfl
  have calls : Instruction.decode Sample.fibonacci.image 2 =
      .ok (.call .short (.relative 11)) := rfl
  have pops : Instruction.decode Sample.fibonacci.image 5 = .ok (.pop .word) := rfl
  have returns : Instruction.decode Sample.fibonacci.image 6 = .ok .ret := rfl
  have leads : (Target.relative 11).resolve 5 = .ok 0x10 := by decide
  have bare := (List.append_nil (Frame.called [] argument 0 Frame.noCaller)).symm
  have runs := calc
    Reaches Sample.fibonacci.image size (.entry Sample.fibonacci.image argument)
      ⟨2, ⟨20, Frame.called [] argument 0 Frame.noCaller ++ Scalar.encode argument, {}, false⟩, _⟩ :=
      .of_execute pushes (push_achieves (hasSlot_arg0 bare) (by simp [Stage.entry]; omega)) rfl
    Reaches Sample.fibonacci.image size _ ⟨0x10, ⟨40, _, {}, false⟩, _⟩ :=
      .of_execute calls (call_achieves leads (by simp [Frame.headerSize]) room rfl) rfl
    Reaches Sample.fibonacci.image size _ ⟨5, _, _⟩ := function
    Reaches Sample.fibonacci.image size _
      ⟨6, ⟨20, Frame.called [] argument 0 Frame.noCaller, ⟨value, true⟩, false⟩, _⟩ :=
      .of_execute pops (popWord_achieves (by simp) rfl) rfl
  refine .counted (runs.halts
    (.of_execute returns (execute_achieves (ret_entered bare rfl)) (fun _ => rfl) rfl)) ?_
  have positive := fibonacci_pos n
  simp [Stats.after, Flow.counted, Stage.entry, Frame.headerSize, counted, totals]
  omega

/-- On an argument that is not negative. -/
theorem halts_of_natural (fits : size < UInt64.size) (small : n < 0x80000000)
    (room : 40 + 24 * (n - 2) ≤ size) :
    Halts Sample.fibonacci.image size (.entry Sample.fibonacci.image (.ofNat n))
      (.ofNat (fibonacci n)) (totals n) := by
  refine halts_of_function (by omega) fun {registers stats} => ?_
  exact reaches_function (Frame.called [] (.ofNat n) 0 Frame.noCaller) fits small
    (by rwa [Frame.length_called]) (by simp) (by decide)

/-- On a negative argument, which is below three, too. -/
theorem halts_of_negative (negative : 0x80000000 ≤ argument.toNat) (room : 40 ≤ size) :
    Halts Sample.fibonacci.image size (.entry Sample.fibonacci.image argument) 1 (totals 0) := by
  have small : Signedness.signed.read argument < 3 :=
    Int.lt_trans (read_of_negative negative) (by decide)
  exact halts_of_function room (reaches_base (Frame.called [] argument 0 Frame.noCaller) small
    (by simp; decide) (by simp) (by decide))

end Tandem.Fibonacci

namespace Tandem.Engine

variable {config : Config} {engine : Engine}

/-- The Fibonacci sample computes Fibonacci numbers, modulo the range of words: on an engine with any
history and by either strategy, if its stack has room for the calls. One run makes as many calls as
it makes returns. On an argument that is negative as a signed number, it returns at once. -/
theorem fibonacci_computed (history : History Sample.fibonacci.image config engine)
    (strategy : Strategy) :
    (∀ n, n < 0x80000000 → 40 + 24 * (n - 2) ≤ config.stackSize →
      ∃ fuel report, engine.report strategy (.ofUInt32 (.ofNat n)) fuel = some report ∧
        report.result = .ok (.ofUInt32 (.ofNat (fibonacci n))) ∧
        report.stats =
          { instructions := 14 * fibonacci n - 7
            calls := 2 * fibonacci n - 1
            returns := 2 * fibonacci n - 1
            maxDepth := 40 + 24 * (n - 2) }) ∧
    ∀ argument : UInt32, 0x80000000 ≤ argument.toNat → 40 ≤ config.stackSize →
      ∃ fuel report, engine.report strategy (.ofUInt32 argument) fuel = some report ∧
        report.result = .ok (.ofUInt32 1) ∧
        report.stats = { instructions := 7, calls := 1, returns := 1, maxDepth := 40 } := by
  constructor
  · intro n small room
    have fits : 40 + 24 * (n - 2) < UInt64.size := by
      rw [show UInt64.size = 2 ^ 64 from rfl]
      omega
    have halts := report_of_halts (.ofUInt32 (.ofNat n)) (Sample.fibonacci.fits fits)
      Sample.fibonacci.sparesHeaders (by omega)
      (Fibonacci.halts_of_natural fits small (Nat.le_refl _)) history.kept room strategy
    exact halts
  · intro argument negative room
    have halts := report_of_halts (.ofUInt32 argument) (Sample.fibonacci.fits (by decide))
      Sample.fibonacci.sparesHeaders (by decide)
      (Fibonacci.halts_of_negative negative (Nat.le_refl 40)) history.kept room strategy
    exact halts

/-- On a stack without a byte to spare for five. -/
theorem fibonacci_computed_downward :
    let engine := ofImage Sample.fibonacci.image { stackSize := 112, growth := .downward }
    (∃ fuel report, engine.report .threaded (.ofUInt32 5) fuel = some report ∧
      report.result = .ok (.ofUInt32 5) ∧
      report.stats = { instructions := 63, calls := 9, returns := 9, maxDepth := 112 }) ∧
    ∃ fuel report, engine.report .threaded (.ofUInt32 0x80000000) fuel = some report ∧
      report.result = .ok (.ofUInt32 1) ∧
      report.stats = { instructions := 7, calls := 1, returns := 1, maxDepth := 40 } :=
  ⟨(fibonacci_computed .fresh .threaded).1 5 (by decide) (by decide),
    (fibonacci_computed .fresh .threaded).2 0x80000000 (by decide) (by decide)⟩

end Tandem.Engine

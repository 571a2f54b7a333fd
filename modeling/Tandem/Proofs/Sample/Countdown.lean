import Tandem.Proofs.Sample.Basic

/-!
# The countdown sample

A loop that adds the argument to the accumulator and counts the argument down, in the slot of the
argument itself, until it is not positive as a signed number. Each round takes five instructions
and leaves the stack as deep as it was (`Countdown.reaches_round`). By induction on the argument the
sample halts with the sum of the numbers up to it (`Countdown.halts_of_natural`), on any stack that
holds the engine's frame (`Engine.countdown_computed`).
-/

namespace Tandem.Countdown

open Tandem.Machine Tandem.Sequential

variable {argument : UInt32} {size n : Nat} {registers : Registers} {stats : Stats}

/-- The head of the loop, with the number that is left to be counted down. -/
def head (left : UInt32) (registers : Registers) (stats : Stats) : Stage :=
  ⟨0, ⟨20, Frame.called [] left 0 Frame.noCaller, registers, false⟩, stats⟩

/-- The counters after some more instructions that go no deeper than the engine's frame. -/
def counted (instructions : Nat) (stats : Stats) : Stats :=
  { stats with
    instructions := stats.instructions + instructions
    maxDepth := max stats.maxDepth 20 }

/-- A number that is positive as a signed number is added and counted down. -/
theorem reaches_round (positive : 0 < Signedness.signed.read argument) :
    Reaches Sample.countdown.image size (head argument registers stats)
      (head (argument - 1) ⟨registers.accumulator + argument, false⟩ (counted 5 stats)) := by
  have compares : Instruction.decode Sample.countdown.image 0 =
      .ok (.compareWith .signed Sample.arg0 0) := rfl
  have branches : Instruction.decode Sample.countdown.image 6 =
      .ok (.jump .lessEqual .near (.relative 6)) := rfl
  have adds : Instruction.decode Sample.countdown.image 8 =
      .ok (.accumulate .add Sample.arg0) := rfl
  have steps : Instruction.decode Sample.countdown.image 10 = .ok (.step .sub Sample.arg0) := rfl
  have loops : Instruction.decode Sample.countdown.image 12 =
      .ok (.jump .always .near (.relative (-14))) := rfl
  have leads : (Target.relative (-14)).resolve 14 = .ok 0 := by decide
  have bare (word : UInt32) := (List.append_nil (Frame.called [] word 0 Frame.noCaller)).symm
  have stays : Condition.lessEqual.holds (Signedness.signed.read argument)
      (Signedness.signed.read 0) = false := decide_eq_false (Int.not_le.mpr positive)
  have stepped : Frame.called [] (argument - 1) 0 Frame.noCaller =
      [] ++ Scalar.encode (argument - 1) ++ (Frame.header 0 Frame.noCaller ++ []) := by
    rw [List.append_nil, Frame.called]
  refine .counted (calc
    Reaches Sample.countdown.image size (head argument registers stats)
      ⟨8, ⟨20, Frame.called [] argument 0 Frame.noCaller, ⟨registers.accumulator, false⟩, false⟩, _⟩ :=
      .passed compares branches rfl (by decide) (hasSlot_arg0 (bare argument)) stays rfl
    Reaches Sample.countdown.image size _
      ⟨10, ⟨20, Frame.called [] argument 0 Frame.noCaller,
        ⟨registers.accumulator + argument, false⟩, false⟩, _⟩ :=
      .of_execute adds (accumulate_achieves (hasSlot_arg0 (bare argument)) rfl) rfl
    Reaches Sample.countdown.image size _
      ⟨12, ⟨20, Frame.called [] (argument - 1) 0 Frame.noCaller,
        ⟨registers.accumulator + argument, false⟩, false⟩, _⟩ :=
      .of_execute steps (step_achieves (hasSlot_arg0 (bare argument)) stepped) rfl
    Reaches Sample.countdown.image size _
      (head (argument - 1) ⟨registers.accumulator + argument, false⟩ _) :=
      .of_execute loops (jump_achieves (.inl ⟨rfl, rfl⟩) ⟨0, leads, rfl⟩) rfl) ?_
  simp [Stats.after, Flow.counted, head, counted]

/-- Any other number ends the loop. -/
theorem head_halts_of_rest (rest : Signedness.signed.read argument ≤ 0) :
    Halts Sample.countdown.image size (head argument registers stats) registers.accumulator
      (counted 3 stats) := by
  have compares : Instruction.decode Sample.countdown.image 0 =
      .ok (.compareWith .signed Sample.arg0 0) := rfl
  have branches : Instruction.decode Sample.countdown.image 6 =
      .ok (.jump .lessEqual .near (.relative 6)) := rfl
  have returns : Instruction.decode Sample.countdown.image 14 = .ok .ret := rfl
  have bare := (List.append_nil (Frame.called [] argument 0 Frame.noCaller)).symm
  have leaves : Reaches Sample.countdown.image size (head argument registers stats)
      ⟨14, ⟨20, Frame.called [] argument 0 Frame.noCaller, ⟨registers.accumulator, true⟩, false⟩, _⟩ :=
    .taken compares branches rfl (by decide) (hasSlot_arg0 bare) (decide_eq_true rest) (by decide)
  refine .counted (leaves.halts
    (.of_execute returns (execute_achieves (ret_entered bare rfl)) (fun _ => rfl) rfl)) ?_
  simp [Stats.after, Flow.counted, head, counted]

theorem triangle_succ (n : Nat) : (n + 1) * (n + 2) / 2 = n * (n + 1) / 2 + (n + 1) := by
  rw [Nat.mul_comm, Nat.add_mul, Nat.add_mul_div_left _ _ Nat.two_pos]

theorem head_halts_of_natural (small : n < 0x80000000) :
    Halts Sample.countdown.image size (head (.ofNat n) registers stats)
      (registers.accumulator + .ofNat (n * (n + 1) / 2)) (counted (5 * n + 3) stats) := by
  induction n generalizing registers stats with
  | zero =>
    have halts : Halts Sample.countdown.image size (head 0 registers stats) registers.accumulator
        (counted 3 stats) := head_halts_of_rest (by decide)
    simpa using halts
  | succ n ih =>
    have positive : 0 < Signedness.signed.read (.ofNat (n + 1)) := by
      rw [read_ofNat small]
      omega
    have round : Reaches Sample.countdown.image size (head (.ofNat (n + 1)) registers stats) _ :=
      reaches_round positive
    rw [ofNat_succ_sub_one] at round
    have rest := round.halts (ih (by omega))
    have sum : registers.accumulator + .ofNat (n + 1) + .ofNat (n * (n + 1) / 2) =
        registers.accumulator + .ofNat ((n + 1) * (n + 2) / 2) := by
      rw [triangle_succ, UInt32.ofNat_add _ (n + 1), UInt32.add_assoc,
        UInt32.add_comm (.ofNat (n + 1))]
    have total : counted (5 * n + 3) (counted 5 stats) = counted (5 * (n + 1) + 3) stats := by
      simp [counted]
      omega
    rwa [sum, total] at rest

/-! ## The run -/

/-- The counters after a run on `n`. -/
def totals (n : Nat) : Stats where
  instructions := 5 * n + 3
  maxDepth := 20

/-- On an argument that is not negative. -/
theorem halts_of_natural (small : n < 0x80000000) :
    Halts Sample.countdown.image size (.entry Sample.countdown.image (.ofNat n))
      (.ofNat (n * (n + 1) / 2)) (totals n) := by
  have halts : Halts Sample.countdown.image size (head (.ofNat n) {} { maxDepth := 20 }) _ _ :=
    head_halts_of_natural small
  rw [UInt32.zero_add] at halts
  refine halts.counted ?_
  simp [counted, totals]

/-- On a negative argument, no round is made. -/
theorem halts_of_negative (negative : 0x80000000 ≤ argument.toNat) :
    Halts Sample.countdown.image size (.entry Sample.countdown.image argument) 0 (totals 0) := by
  have halts : Halts Sample.countdown.image size (head argument {} { maxDepth := 20 }) 0 _ :=
    head_halts_of_rest (Int.le_of_lt (read_of_negative negative))
  exact halts.counted rfl

end Tandem.Countdown

namespace Tandem.Engine

variable {config : Config} {engine : Engine}

/-- The countdown sample adds up the numbers from one to its argument, modulo the range of words, and
stops at once on an argument that is negative as a signed number. It needs no more stack than the
frame of the engine, on an engine with any history and by either strategy. -/
theorem countdown_computed (history : History Sample.countdown.image config engine)
    (room : 20 ≤ config.stackSize) (strategy : Strategy) (argument : UInt32) :
    let n := (Signedness.signed.read argument).toNat
    ∃ fuel report, engine.report strategy (.ofUInt32 argument) fuel = some report ∧
      report.result = .ok (.ofUInt32 (.ofNat (n * (n + 1) / 2))) ∧
      report.stats = { instructions := 5 * n + 3, calls := 0, returns := 0, maxDepth := 20 } := by
  intro n
  have halts : Sequential.Halts Sample.countdown.image 20
      (.entry Sample.countdown.image argument) (.ofNat (n * (n + 1) / 2)) (Countdown.totals n) := by
    rcases Nat.lt_or_ge argument.toNat 0x80000000 with small | negative
    · have number : n = argument.toNat := by
        have read := read_ofNat small
        rw [UInt32.ofNat_toNat] at read
        rw [show n = (Signedness.signed.read argument).toNat from rfl, read, Int.toNat_natCast]
      have halts := @Countdown.halts_of_natural 20 _ small
      rwa [UInt32.ofNat_toNat, ← number] at halts
    · have none : n = 0 := Int.toNat_of_nonpos (Int.le_of_lt (read_of_negative negative))
      rw [none]
      exact Countdown.halts_of_negative negative
  exact report_of_halts (.ofUInt32 argument) (Sample.countdown.fits (by decide))
    Sample.countdown.sparesHeaders (Nat.le_refl 20) halts history.kept room strategy

/-- On the smallest stack, for an argument whose sum leaves the range of words, and for a negative
one. -/
theorem countdown_computed_cramped :
    let engine := ofImage Sample.countdown.image { stackSize := 20, growth := .downward }
    (∃ fuel report, engine.report .threaded (.ofUInt32 0x7FFFFFFF) fuel = some report ∧
      report.result = .ok (.ofUInt32 0xC0000000) ∧
      report.stats =
        { instructions := 10737418238, calls := 0, returns := 0, maxDepth := 20 }) ∧
    ∃ fuel report, engine.report .sequential (.ofUInt32 0x80000000) fuel = some report ∧
      report.result = .ok (.ofUInt32 0) ∧
      report.stats = { instructions := 3, calls := 0, returns := 0, maxDepth := 20 } :=
  ⟨countdown_computed .fresh (Nat.le_refl 20) .threaded 0x7FFFFFFF,
    countdown_computed .fresh (Nat.le_refl 20) .sequential 0x80000000⟩

end Tandem.Engine

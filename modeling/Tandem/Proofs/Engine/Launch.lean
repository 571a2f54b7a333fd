import Tandem.Engine.Basic

/-!
# Runs on engines, taken apart

A run starts on the machine that the engine takes up (`Engine.start`). If it can be prepared, what
the dispatch loop comes to is delivered: the trace to where the sink says, and a message to the
journal.
-/

namespace Tandem.Engine

variable {engine : Engine} {strategy : Strategy} {argument : Value} {fuel : Nat}
  {dispatch : Nat → Machine → Option (Outcome Machine)} {machine : Machine}

/-! ## Delivery -/

theorem image_deliver (engine : Engine) : engine.deliver.image = engine.image := by
  unfold deliver
  cases engine.sink <;> rfl

theorem code_deliver (engine : Engine) : engine.deliver.code? = engine.code? := by
  unfold deliver
  cases engine.sink <;> rfl

theorem machine_deliver (engine : Engine) :
    engine.deliver.machine = { engine.machine with trace := none } := by
  unfold deliver
  cases engine.sink <;> rfl

theorem received_deliver (engine : Engine) :
    engine.deliver.received =
      (if engine.sink = .receiver then engine.machine.trace.getD [] else []) ++ engine.received := by
  unfold deliver
  cases engine.sink <;> rfl

theorem journal_deliver (engine : Engine) :
    engine.deliver.journal =
      (if engine.sink = .journal then (engine.machine.trace.getD []).map Record.message else []) ++
        engine.journal := by
  unfold deliver
  cases engine.sink <;> rfl

/-! ## Linking -/

theorem linked_image (engine : Engine) : engine.linked.1.image = engine.image := by
  unfold linked
  cases engine.code? <;> rfl

theorem linked_machine (engine : Engine) : engine.linked.1.machine = engine.machine := by
  unfold linked
  cases engine.code? <;> rfl

theorem linked_sink (engine : Engine) : engine.linked.1.sink = engine.sink := by
  unfold linked
  cases engine.code? <;> rfl

theorem linked_received (engine : Engine) : engine.linked.1.received = engine.received := by
  unfold linked
  cases engine.code? <;> rfl

/-- The threaded form is the one that the engine has kept, or a new one that it keeps from now
on. -/
theorem linked_code (engine : Engine) :
    engine.code? = some engine.linked.2 ∧ engine.linked.1.code? = engine.code? ∨
      engine.linked.2 = Threaded.Code.ofImage engine.image ∧
        engine.linked.1.code? = some engine.linked.2 := by
  unfold linked
  cases known : engine.code? with
  | some code => exact .inl ⟨rfl, known⟩
  | none => exact .inr ⟨rfl, rfl⟩

/-- Linking leaves at most messages about the life of the engine. -/
theorem linked_journal (engine : Engine) :
    ∃ notes, engine.linked.1.journal = notes ++ engine.journal ∧
      notes.filter (·.level = .trace) = [] := by
  unfold linked
  cases engine.code? with
  | some code => exact ⟨[], rfl, rfl⟩
  | none => exact ⟨[_], rfl, rfl⟩

/-! ## Launches -/

/-- The machine that a run takes up. -/
def start (engine : Engine) : Machine :=
  { engine.machine with trace := if engine.sink = .off then none else some [] }

theorem start_linked (engine : Engine) : engine.linked.1.start = engine.start := by
  rw [start, start, linked_machine, linked_sink]

/-- The engine after a dispatch loop that ended with `result` and left `machine`. -/
def finish (engine : Engine) (strategy : Strategy) (result : Except Fault UInt32)
    (machine : Machine) : Engine :=
  let delivered := deliver { engine with machine }
  { delivered with
    journal := delivered.journal.note (endText strategy result delivered.machine.stats) }

theorem launch_of_refused {fault : Fault}
    (refused : Machine.prepare engine.image argument.word engine.start = .error fault machine) :
    engine.launch strategy argument fuel dispatch =
      some (.error fault, { engine with machine := { machine with trace := none } }) := by
  unfold start at refused
  simp only [launch, refused]

theorem launch_of_prepared
    (prepared : Machine.prepare engine.image argument.word engine.start = .ok () machine) :
    engine.launch strategy argument fuel dispatch =
      (dispatch fuel machine).map fun outcome =>
        (outcome.result.map Value.ofUInt32, engine.finish strategy outcome.result outcome.state) := by
  unfold start at prepared
  simp only [launch, prepared, finish]

end Tandem.Engine

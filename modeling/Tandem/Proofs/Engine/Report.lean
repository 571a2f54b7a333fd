import Tandem.Proofs.Engine.Launch
import Tandem.Proofs.Iteration
import Tandem.Proofs.Respects

/-!
# Reports on runs

What a run shows while it lasts and when it is over, and what it adds to what the engine has made
before. Launches that come to related machines with the same trace show the same
(`Engine.launch_sameRun`), whichever engines and dispatch loops they are.
-/

namespace Tandem.Engine

variable {engine left right : Engine} {strategy strategy' : Strategy} {argument : Value} {fuel : Nat}
  {dispatch dispatch' : Nat → Machine → Option (Outcome Machine)} {R : Machine → Machine → Prop}

/-! ## What a run shows -/

/-- The elements that a list has got in front. -/
def added {α : Type} (before after : List α) : List α := after.take (after.length - before.length)

theorem added_append {α : Type} (before new : List α) : added before (new ++ before) = new := by
  simp [added]

/-- What a run shows while it lasts and when it is over. -/
structure Report where
  result : Except Fault Value
  stats : Stats
  registers : Registers
  cursor : Nat
  frame : Nat
  top : Nat
  /-- The records that the receiver has got, the newest first. -/
  records : List Record
  /-- The trace messages that have gone to the journal, the newest first. -/
  messages : List Message

/-- The report on a run that left `machine`. -/
def Report.ofMachine (result : Except Fault Value) (machine : Machine) (records : List Record)
    (messages : List Message) : Report :=
  { result
    stats := machine.stats
    registers := machine.registers
    cursor := machine.cursor
    frame := machine.frame
    top := machine.stack.top
    records
    messages }

/-- What a run on an engine shows, if it ends. -/
def report (engine : Engine) (strategy : Strategy) (argument : Value) (fuel : Nat) :
    Option Report :=
  (engine.run strategy argument fuel).map fun (result, after) =>
    .ofMachine result after.machine (added engine.received after.received)
      ((added engine.journal after.journal).filter (·.level = .trace))

/-! ## What a run delivers -/

/-- Records are trace messages, all of them. -/
theorem filter_messages (records : List Record) :
    (records.map Record.message).filter (·.level = .trace) = records.map Record.message := by
  rw [List.filter_eq_self]
  intro message member
  obtain ⟨record, -, rfl⟩ := List.mem_map.mp member
  rfl

/-- An engine after a run that made `records`. -/
structure Delivered (before after : Engine) (records : List Record) : Prop where
  sameImage : after.image = before.image
  code : after.code? = before.code? ∨ after.code? = some (Threaded.Code.ofImage before.image)
  received : after.received =
    (if before.sink = .receiver then records else []) ++ before.received
  journal : ∃ messages, after.journal = messages ++ before.journal ∧
    messages.filter (·.level = .trace) =
      if before.sink = .journal then records.map Record.message else []

/-- A run that is over delivers its trace and leaves a message. -/
theorem delivered_finish (engine : Engine) (strategy : Strategy) (result : Except Fault UInt32)
    (machine : Machine) :
    Delivered engine (engine.finish strategy result machine) (machine.trace.getD []) where
  sameImage := image_deliver _
  code := .inl (code_deliver _)
  received := received_deliver _
  journal := by
    refine ⟨⟨.debug, endText strategy result (deliver { engine with machine }).machine.stats⟩ ::
      if engine.sink = .journal then (machine.trace.getD []).map Record.message else [], ?_, ?_⟩
    · rw [finish, journal_deliver]
      rfl
    · rw [List.filter_cons_of_neg (by simp)]
      split
      · exact filter_messages _
      · rfl

/-- A run that could not be prepared delivers nothing. -/
theorem delivered_refused (engine : Engine) (machine : Machine) :
    Delivered engine { engine with machine } [] where
  sameImage := rfl
  code := .inl rfl
  received := by
    show engine.received = (if engine.sink = .receiver then [] else []) ++ engine.received
    rw [ite_self]
    rfl
  journal := ⟨[], rfl, by rw [List.map_nil, ite_self]; rfl⟩

/-- What a linked engine delivers, the engine delivers: linking only adds the threaded form and a
message about it. -/
theorem Delivered.of_linked {after : Engine} {records : List Record}
    (delivered : Delivered engine.linked.1 after records) : Delivered engine after records where
  sameImage := delivered.sameImage.trans (linked_image engine)
  code := by
    have linking := linked_code engine
    rcases delivered.code with same | made
    · rcases linking with ⟨-, kept⟩ | ⟨made, kept⟩
      · exact .inl (same.trans kept)
      · exact .inr (by rw [same, kept, made])
    · rw [linked_image] at made
      exact .inr made
  received := by rw [delivered.received, linked_sink, linked_received]
  journal := by
    obtain ⟨messages, grown, shown⟩ := delivered.journal
    obtain ⟨notes, linking, silent⟩ := linked_journal engine
    refine ⟨messages ++ notes, ?_, ?_⟩
    · rw [grown, linking, List.append_assoc]
    · rw [List.filter_append, shown, silent, List.append_nil, linked_sink]

theorem Delivered.added_received {after : Engine} {records : List Record}
    (delivered : Delivered engine after records) :
    added engine.received after.received = if engine.sink = .receiver then records else [] := by
  rw [delivered.received, added_append]

theorem Delivered.added_messages {after : Engine} {records : List Record}
    (delivered : Delivered engine after records) :
    (added engine.journal after.journal).filter (·.level = .trace) =
      if engine.sink = .journal then records.map Record.message else [] := by
  obtain ⟨messages, grown, shown⟩ := delivered.journal
  rw [grown, added_append, shown]

/-! ## Runs that show the same -/

/-- Two engines after runs that showed the same, with related machines. -/
structure SameRun (R : Machine → Machine → Prop) (left right : Engine)
    (leftEnd rightEnd : Except Fault Value × Engine) : Prop where
  result : leftEnd.1 = rightEnd.1
  machine : R leftEnd.2.machine rightEnd.2.machine
  delivered : ∃ records, Delivered left leftEnd.2 records ∧ Delivered right rightEnd.2 records

/-- Relations of machines that have the same trace, with or without that trace. -/
structure Traced (R : Machine → Machine → Prop) : Prop where
  trace : ∀ {left right : Machine}, R left right → left.trace = right.trace
  silent : ∀ {left right : Machine}, R left right →
    R { left with trace := none } { right with trace := none }

/-- Dispatch loops that come to the same on prepared machines do so on their engines. -/
theorem launch_sameRun (traced : Traced R)
    (prepared : Action.Related Fault.NoneWaived R
      (Machine.prepare left.image argument.word left.start)
      (Machine.prepare right.image argument.word right.start))
    (alike : ∀ leftMachine rightMachine,
      Machine.prepare left.image argument.word left.start = .ok () leftMachine →
      Machine.prepare right.image argument.word right.start = .ok () rightMachine →
      R leftMachine rightMachine →
      Option.Rel (Outcome.Related R) (dispatch fuel leftMachine) (dispatch' fuel rightMachine)) :
    Option.Rel (SameRun R left right) (left.launch strategy argument fuel dispatch)
      (right.launch strategy' argument fuel dispatch') := by
  cases ran : Machine.prepare left.image argument.word left.start with
  | error fault leftMachine =>
    rw [ran] at prepared
    obtain ⟨rightMachine, ran', after⟩ := prepared.of_error
    rw [launch_of_refused ran, launch_of_refused ran']
    exact .some ⟨rfl, traced.silent after, [], delivered_refused left _, delivered_refused right _⟩
  | ok _ leftMachine =>
    rw [ran] at prepared
    obtain ⟨rightMachine, ran', after⟩ := prepared.of_ok
    rw [launch_of_prepared ran, launch_of_prepared ran']
    have ends := alike leftMachine rightMachine ran ran' after
    revert ends
    generalize dispatch fuel leftMachine = leftEnd
    generalize dispatch' fuel rightMachine = rightEnd
    intro ends
    cases ends with
    | none => exact .none
    | @some leftOutcome rightOutcome outcomes =>
      refine .some ⟨?_, ?_, leftOutcome.state.trace.getD [], ?_, ?_⟩
      · exact congrArg (·.map Value.ofUInt32) outcomes.result
      · show R (deliver _).machine (deliver _).machine
        rw [machine_deliver, machine_deliver]
        exact traced.silent outcomes.state
      · exact delivered_finish left strategy _ _
      · rw [traced.trace outcomes.state]
        exact delivered_finish right strategy' _ _

/-- What related machines report alike, runs that showed the same report alike. -/
theorem report_rel {Q : Report → Report → Prop}
    (same : Option.Rel (SameRun R left right) (left.run strategy argument fuel)
      (right.run strategy' argument fuel))
    (sameSink : left.sink = right.sink)
    (alike : ∀ {leftMachine rightMachine : Machine}, R leftMachine rightMachine →
      ∀ result records messages, Q (.ofMachine result leftMachine records messages)
        (.ofMachine result rightMachine records messages)) :
    Option.Rel Q (left.report strategy argument fuel) (right.report strategy' argument fuel) := by
  rw [report, report]
  revert same
  generalize left.run strategy argument fuel = leftEnd
  generalize right.run strategy' argument fuel = rightEnd
  intro same
  cases same with
  | none => exact .none
  | @some leftEnd rightEnd same =>
    obtain ⟨records, got, got'⟩ := same.delivered
    obtain ⟨result, leftAfter⟩ := leftEnd
    obtain ⟨result', rightAfter⟩ := rightEnd
    obtain rfl : result = result' := same.result
    rw [Option.map_some, Option.map_some]
    dsimp only
    rw [got.added_received, got.added_messages, got'.added_received, got'.added_messages, sameSink]
    exact .some (alike same.machine _ _ _)

end Tandem.Engine

import Tandem.Instruction.Encoding
import Tandem.Proofs.Machine.Accounts
import Tandem.Proofs.Machine.Calls
import Tandem.Proofs.Machine.Returns
import Tandem.Proofs.Machine.Sequential

/-!
# Frame discipline

A sequential run that writes over no header of an outstanding call uses its frames in the order last
in, first out. `Sequential.Nesting` says which calls are outstanding, by the flow of the run alone,
and keeps what held just before each of them. The headers on the operand stack say the same
(`Sequential.Headed`), so that a return restores what held before its call, and few ways are left for
a return to fail (`Sequential.frame_discipline`).
-/

namespace Tandem.Sequential

variable {image : Image} {stackSize : Nat} {start machine after next : Machine}
  {instruction : Instruction} {flow : Flow}

/-! ## Outstanding calls -/

/-- A call that has not returned yet, with what held just before it. -/
structure Activation where
  /-- The offset just past the call. -/
  returnOffset : Nat
  callerFrame : Nat
  /-- The top of the operand stack. -/
  callerTop : Nat

/-- The frame pointer of the function that was called, just past the header that the call pushes. -/
def Activation.frame (call : Activation) : Nat := call.callerTop + Frame.headerSize

/-- The machines that a run comes to, with the calls that are outstanding there, the newest first. -/
inductive Nesting (image : Image) (start : Machine) : Machine → List Activation → Prop
  | start : Nesting image start start []
  | step {machine after next : Machine} {calls : List Activation} {instruction : Instruction}
    {flow : Flow} (earlier : Nesting image start machine calls)
    (decoded : Instruction.decode image machine.cursor = .ok instruction)
    (done : Machine.execute image machine.cursor instruction machine = .ok flow after)
    (goesOn : follow instruction.length flow after = .running next) :
    Nesting image start next
      (flow.outstanding ⟨machine.cursor + instruction.length, machine.frame, machine.stack.top⟩ calls)

/-- Every round has its outstanding calls. -/
theorem nesting_of_iteration {n : Nat} (reached : iteration (step image) n start = some machine) :
    ∃ calls, Nesting image start machine calls := by
  induction n generalizing machine with
  | zero =>
    cases reached
    exact ⟨[], .start⟩
  | succ n ih =>
    obtain ⟨before, reached, goesOn⟩ := iteration_succ_eq_some.mp reached
    obtain ⟨calls, earlier⟩ := ih reached
    obtain ⟨instruction, flow, after, decoded, done, follows⟩ := done_of_running goesOn
    exact ⟨_, earlier.step decoded done follows⟩

/-! ## Their headers -/

/-- The frame pointer of the newest of some outstanding calls; if there is none, the engine's. -/
def newestFrame : List Activation → Nat
  | [] => 20
  | call :: _ => call.frame

/-- The operand stack holds the header of each of some outstanding calls, one below the other, down
to the engine's. -/
def Headed (stack : Stack) : List Activation → Prop
  | [] => Frame.Header stack 20 0 Frame.noCaller
  | call :: older =>
    (∃ word, Frame.Header stack call.frame call.callerFrame word ∧ word.toNat = call.returnOffset) ∧
      call.callerFrame = newestFrame older ∧ call.callerFrame ≤ call.callerTop ∧ Headed stack older

/-- The caller of each of some outstanding calls is the next older one. -/
def Linked : List Activation → Prop
  | [] => True
  | call :: older => call.callerFrame = newestFrame older ∧ Linked older

/-- The frame pointers of some outstanding calls and of the engine. -/
def frames (calls : List Activation) : List Nat := calls.map Activation.frame ++ [20]

/-- The return addresses of some outstanding calls and of the engine. -/
def addresses (calls : List Activation) : List UInt64 :=
  calls.map (·.returnOffset.toUInt64) ++ [Frame.noCaller]

variable {calls : List Activation}

theorem frames_eq (calls : List Activation) : ∃ older, frames calls = newestFrame calls :: older := by
  cases calls with
  | nil => exact ⟨[], rfl⟩
  | cons call older => exact ⟨frames older, rfl⟩

/-- What the stack, the counters and the flow of a run tell of its outstanding calls. -/
structure Framed (image : Image) (stackSize : Nat) (start machine : Machine)
    (calls : List Activation) : Prop where
  calling : Calling image start machine (frames calls)
  intact : Intact stackSize machine.stack machine.frame (frames calls) (addresses calls)
  linked : Linked calls
  /-- Return offsets are at most the end of the image, and words. -/
  exact : ∀ call ∈ calls, call.returnOffset ≤ image.size ∧
    call.returnOffset.toUInt64.toNat = call.returnOffset
  balance : machine.stats.calls = machine.stats.returns + calls.length

theorem headed_of_chain {stack : Stack} (chain : Frame.Chain stack (frames calls) (addresses calls))
    (linked : Linked calls)
    (exact : ∀ call ∈ calls, call.returnOffset.toUInt64.toNat = call.returnOffset) :
    Headed stack calls := by
  induction calls with
  | nil =>
    cases chain with
    | engine header => exact header
  | cons call older ih =>
    obtain ⟨caller, linked⟩ := linked
    obtain ⟨rest, below⟩ := frames_eq older
    rw [show frames (call :: older) = call.frame :: frames older from rfl, below] at chain
    obtain ⟨_, _, told, header, above, inner, chain⟩ := chain.newest
    cases told
    rw [← below] at chain
    refine ⟨⟨_, caller ▸ header, exact call (List.mem_cons_self ..)⟩, caller, ?_, ih chain linked ?_⟩
    · rw [Activation.frame] at above
      omega
    · exact fun call member => exact call (List.mem_cons_of_mem _ member)

namespace Framed

/-- The frame is that of the newest call. -/
theorem newest (framed : Framed image stackSize start machine calls) :
    machine.frame = newestFrame calls := by
  obtain ⟨older, listed⟩ := framed.intact.newest
  obtain ⟨older', listed'⟩ := frames_eq calls
  exact (List.cons.inj (listed.symm.trans listed')).1

theorem headed (framed : Framed image stackSize start machine calls) : Headed machine.stack calls :=
  headed_of_chain framed.intact.chain framed.linked fun call member =>
    (framed.exact call member).2

/-- A round that neither calls nor returns leaves all of it as it was. -/
theorem quiet (framed : Framed image stackSize start machine calls)
    (calling : Calling image start next (frames calls))
    (intact : Intact stackSize next.stack next.frame (frames calls) (addresses calls))
    (sameCalls : next.stats.calls = machine.stats.calls)
    (sameReturns : next.stats.returns = machine.stats.returns) :
    Framed image stackSize start next calls where
  calling := calling
  intact := intact
  linked := framed.linked
  exact := framed.exact
  balance := by
    rw [sameCalls, sameReturns]
    exact framed.balance

/-- A return into the image unwinds the frame of the newest call and restores what held before that
call. -/
theorem unwind (framed : Framed image stackSize start machine calls) {count : Nat}
    {unwound : Frame.Unwound} (returned : Machine.Unwound image machine after count unwound)
    (inner : unwound.returnAddress ≠ Frame.noCaller) :
    ∃ newest older, calls = newest :: older ∧
      unwound.returnAddress.toNat = newest.returnOffset ∧ after.frame = newest.callerFrame ∧
      after.stack.top = newest.callerTop ∧
      Intact stackSize after.stack after.frame (frames older) (addresses older) := by
  obtain ⟨rest, told, intact⟩ := framed.intact.unwind returned.unwinds inner
  rw [← returned.stack, ← returned.frame] at intact
  cases calls with
  | nil =>
    obtain ⟨mark, -⟩ := List.cons.inj (told : [Frame.noCaller] = _)
    exact absurd mark.symm inner
  | cons newest older =>
    obtain ⟨-, rfl⟩ := List.cons.inj told
    obtain ⟨⟨word, header, value⟩, -⟩ := framed.headed
    rw [show newest.frame = machine.frame from framed.newest.symm] at header
    obtain ⟨saved, rfl⟩ := header.unique returned.unwinds.header
    refine ⟨newest, older, rfl, value, returned.frame.trans saved.symm, ?_, intact⟩
    have top := returned.unwinds.locals
    rw [framed.newest, newestFrame, Activation.frame] at top
    rw [returned.stack, Stack.top_drop]
    omega

/-- A return out of the image unwinds the engine's frame. -/
theorem outermost (framed : Framed image stackSize start machine calls) {count : Nat}
    {unwound : Frame.Unwound} (returned : Machine.Unwound image machine after count unwound)
    (outermost : unwound.returnAddress = Frame.noCaller) : calls = [] ∧ after.stack.top = 4 := by
  have told := framed.intact.outermost returned.unwinds outermost
  cases calls with
  | nil =>
    have top := returned.unwinds.locals
    rw [framed.newest, newestFrame] at top
    rw [returned.stack, Stack.top_drop, Frame.headerSize]
    exact ⟨rfl, by omega⟩
  | cons newest older => simp [addresses] at told

/-- A round of a run that spares the headers adds its call, or takes away the newest one, on the
operand stack as well as on the account. -/
theorem step (framed : Framed image stackSize start machine calls) (fits : Machine.Fits image stackSize)
    (spares : SparesHeaders image start)
    (decoded : Instruction.decode image machine.cursor = .ok instruction)
    (done : Machine.execute image machine.cursor instruction machine = .ok flow after)
    (goesOn : follow instruction.length flow after = .running next) :
    Framed image stackSize start next
      (flow.outstanding ⟨machine.cursor + instruction.length, machine.frame, machine.stack.top⟩
        calls) := by
  obtain ⟨countedCalls, countedReturns⟩ := Machine.balance_of_done done
  have calling := framed.calling.step decoded done goesOn
  cases Machine.execute_completes done with
  | next through frame stack =>
    cases goesOn
    have intact := framed.intact.reworks stack fun slot position =>
      spares machine _ instruction _ after slot position framed.calling decoded done
    rw [← frame] at intact
    exact framed.quiet calling intact countedCalls countedReturns
  | branch leaves leads frame stack =>
    cases goesOn
    have intact := framed.intact
    rw [← stack, ← frame] at intact
    exact framed.quiet calling intact countedCalls countedReturns
  | call isCall leads room frame stack =>
    cases goesOn
    subst isCall
    obtain ⟨value, inner⟩ := fits.returnAddress decoded
    have intact := framed.intact.call fits.positions room inner
    rw [← stack, ← frame] at intact
    refine ⟨frame ▸ calling, frame ▸ intact, ⟨framed.newest, framed.linked⟩, ?_, ?_⟩
    · intro call member
      rcases List.mem_cons.mp member with rfl | older
      · exact ⟨Instruction.end_le_size_of_decode decoded, value⟩
      · exact framed.exact call older
    · show after.stats.calls = after.stats.returns + _
      rw [countedCalls, countedReturns]
      exact Flow.balance framed.balance (fun _ same => nomatch same)
  | toCaller returned inner =>
    cases goesOn
    obtain ⟨newest, older, rfl, address, frame, top, intact⟩ := framed.unwind returned inner
    refine ⟨calling, intact, framed.linked.2, ?_, ?_⟩
    · exact fun call member => framed.exact call (List.mem_cons_of_mem _ member)
    · show after.stats.calls = after.stats.returns + _
      rw [countedCalls, countedReturns]
      exact Flow.balance framed.balance (fun _ _ => List.cons_ne_nil _ _)
  | toEngine returned outermost => cases goesOn
  | halt frame stack => cases goesOn

end Framed

/-- The frame that a run starts in is the engine's, and no call is outstanding. -/
theorem framed_of_prepared {argument : UInt32} {prepared : Machine}
    (ready : Machine.prepare image argument machine = .ok () prepared) :
    Framed image machine.stack.capacity prepared prepared [] := by
  have intact := Intact.of_prepared ready
  obtain ⟨-, rfl⟩ := Machine.prepare_eq_ok ready
  exact ⟨.start, intact, trivial, nofun, rfl⟩

theorem Nesting.framed (nesting : Nesting image start machine calls)
    (first : Framed image stackSize start start []) (fits : Machine.Fits image stackSize)
    (spares : SparesHeaders image start) : Framed image stackSize start machine calls := by
  induction nesting with
  | start => exact first
  | step earlier decoded done goesOn ih => exact ih.step fits spares decoded done goesOn

/-! ## Returns -/

/-- The instruction that a machine is at is a return that releases `count` bytes of locals. -/
def AtReturn (image : Image) (machine : Machine) (count : Nat) : Prop :=
  ∃ instruction, Instruction.decode image machine.cursor = .ok instruction ∧
    instruction.released? = some count

/-- A return that ends a run well has left the image. -/
theorem AtReturn.toEngine {count : Nat} {value : UInt32} {final : Machine}
    (returns : AtReturn image machine count)
    (ends : Sequential.step image machine = .done (.ok value) final) :
    ∃ instruction, Instruction.decode image machine.cursor = .ok instruction ∧
      Machine.execute image machine.cursor instruction machine = .ok .toEngine final := by
  obtain ⟨instruction, decoded, releases⟩ := returns
  cases done : Machine.execute image machine.cursor instruction machine with
  | error fault after =>
    rw [step_of_failed decoded done] at ends
    cases ends
  | ok flow after =>
    rw [step_of_done decoded done] at ends
    have leaves := Machine.leaves_of_returned releases done
    cases flow with
    | toEngine =>
      cases ends
      exact ⟨instruction, decoded, done⟩
    | toCaller address => cases ends
    | next => cases leaves
    | branch target => cases leaves
    | call target => cases leaves
    | halt => cases leaves

/-- The ways for a return that releases `count` bytes of locals to fail. -/
inductive ReturnFault (image : Image) (machine : Machine) (calls : List Activation) (count : Nat) :
    FrameFault → Prop
  /-- There are fewer. -/
  | pastFrame (past : machine.stack.top - machine.frame < count) :
    ReturnFault image machine calls count
      (.releasePastFrame count (machine.stack.top - machine.frame))
  /-- There are more. -/
  | locals (left : machine.frame + count < machine.stack.top) :
    ReturnFault image machine calls count
      (.localsRemaining (machine.stack.top - count - machine.frame))
  /-- The image ends with the newest call. -/
  | lastCall {newest : Activation} {older : List Activation} (outstanding : calls = newest :: older)
    (last : newest.returnOffset = image.size) :
    ReturnFault image machine calls count (.returnAddress image.size.toUInt64)

/-- What holds at a round with some outstanding calls. -/
structure Discipline (image : Image) (machine : Machine) (calls : List Activation) : Prop where
  headed : Headed machine.stack calls
  newest : machine.frame = newestFrame calls
  inUse : machine.frame ≤ machine.stack.top
  balance : machine.stats.calls = machine.stats.returns + calls.length
  /-- A return that goes on does so just past the newest call, in the frame and with the top that it
  had. -/
  resumes : ∀ count, AtReturn image machine count → ∀ next, step image machine = .running next →
    ∃ newest older, calls = newest :: older ∧ next.cursor = newest.returnOffset ∧
      next.frame = newest.callerFrame ∧ next.stack.top = newest.callerTop
  /-- A return that ends the run well is one that no call waits for. -/
  halts : ∀ count, AtReturn image machine count → ∀ value final,
    step image machine = .done (.ok value) final →
    calls = [] ∧ final.stats.calls = final.stats.returns ∧ final.stack.top = 4
  fails : ∀ count, AtReturn image machine count → ∀ fault final,
    step image machine = .done (.error fault) final →
    ∃ cause, fault = .malformedFrame machine.cursor cause ∧
      ReturnFault image machine calls count cause

namespace Framed

theorem resumes (framed : Framed image stackSize start machine calls) {count : Nat}
    (returns : AtReturn image machine count) (goesOn : Sequential.step image machine = .running next) :
    ∃ newest older, calls = newest :: older ∧ next.cursor = newest.returnOffset ∧
      next.frame = newest.callerFrame ∧ next.stack.top = newest.callerTop := by
  obtain ⟨instruction, decoded, releases⟩ := returns
  obtain ⟨instruction', flow, after, decoded', done, follows⟩ := done_of_running goesOn
  obtain rfl : instruction' = instruction := Except.ok.inj (decoded'.symm.trans decoded)
  have leaves := Machine.leaves_of_returned releases done
  cases Machine.execute_completes done with
  | toCaller returned inner =>
    cases follows
    obtain ⟨newest, older, rfl, address, frame, top, -⟩ := framed.unwind returned inner
    exact ⟨newest, older, rfl, address, frame, top⟩
  | toEngine returned outermost => cases follows
  | next through frame stack => cases leaves
  | branch leaves' leads frame stack => cases leaves
  | call isCall leads room frame stack => cases leaves
  | halt frame stack => cases leaves

theorem halts (framed : Framed image stackSize start machine calls) {count : Nat}
    (returns : AtReturn image machine count) {value : UInt32} {final : Machine}
    (ends : Sequential.step image machine = .done (.ok value) final) :
    calls = [] ∧ final.stats.calls = final.stats.returns ∧ final.stack.top = 4 := by
  obtain ⟨instruction, -, done⟩ := returns.toEngine ends
  cases Machine.execute_completes done with
  | toEngine returned outermost =>
    obtain ⟨rfl, top⟩ := framed.outermost returned outermost
    obtain ⟨countedCalls, countedReturns⟩ := Machine.balance_of_done done
    refine ⟨rfl, ?_, top⟩
    rw [countedCalls, countedReturns]
    exact framed.balance

/-- The header that a return finds: it is the newest call's, or the engine's. -/
theorem header (framed : Framed image stackSize start machine calls) :
    ∃ saved word, Frame.Header machine.stack machine.frame saved word ∧
      saved ≤ machine.frame - Frame.headerSize ∧
      (word = Frame.noCaller ∨ ∃ newest older, calls = newest :: older ∧
        word.toNat = newest.returnOffset ∧ newest.returnOffset ≤ image.size) := by
  have headed := framed.headed
  rw [framed.newest]
  cases calls with
  | nil => exact ⟨0, Frame.noCaller, headed, Nat.zero_le _, .inl rfl⟩
  | cons newest older =>
    obtain ⟨⟨word, header, value⟩, -, below, -⟩ := headed
    have inside := (framed.exact newest (List.mem_cons_self ..)).1
    refine ⟨newest.callerFrame, word, header, ?_, .inr ⟨newest, older, rfl, value, inside⟩⟩
    rwa [newestFrame, Activation.frame, Nat.add_sub_cancel]

theorem fails (framed : Framed image stackSize start machine calls) {count : Nat}
    (returns : AtReturn image machine count) {fault : Fault} {final : Machine}
    (ends : Sequential.step image machine = .done (.error fault) final) :
    ∃ cause, fault = .malformedFrame machine.cursor cause ∧
      ReturnFault image machine calls count cause := by
  obtain ⟨instruction, decoded, releases⟩ := returns
  cases done : Machine.execute image machine.cursor instruction machine with
  | ok flow after =>
    rw [step_of_done decoded done] at ends
    cases flow <;> cases ends
  | error fault' after =>
    rw [step_of_failed decoded done] at ends
    cases ends
    obtain ⟨stack, failed⟩ := Machine.pop_of_failed_return releases done
    obtain ⟨saved, word, header, below, told⟩ := framed.header
    obtain ⟨cause, rfl, refused⟩ := Frame.pop_eq_error header failed
    refine ⟨cause, rfl, ?_⟩
    cases refused with
    | pastFrame past => exact .pastFrame past
    | locals enough left => exact .locals (by have := framed.intact.below; omega)
    | savedPointer value above => omega
    | returnAddress inner outside =>
      rcases told with mark | ⟨newest, older, outstanding, value, inside⟩
      · exact absurd mark inner
      · have last : newest.returnOffset = image.size := by omega
        have address : word = image.size.toUInt64 := by
          rw [← last, ← value]
          exact UInt64.ofNat_toNat.symm
        rw [address]
        exact .lastCall outstanding last

theorem discipline (framed : Framed image stackSize start machine calls) :
    Discipline image machine calls where
  headed := framed.headed
  newest := framed.newest
  inUse := framed.intact.below
  balance := framed.balance
  resumes _ returns _ goesOn := framed.resumes returns goesOn
  halts _ returns _ _ ends := framed.halts returns ends
  fails _ returns _ _ ends := framed.fails returns ends

end Framed

/-- A run that writes over no header of an outstanding call uses its frames in the order last in,
first out. -/
theorem frame_discipline {argument : UInt32} {prepared : Machine}
    (fits : Machine.Fits image machine.stack.capacity)
    (ready : Machine.prepare image argument machine = .ok () prepared)
    (spares : SparesHeaders image prepared) :
    (∀ n reached, iteration (step image) n prepared = some reached →
      ∃ calls, Nesting image prepared reached calls) ∧
    ∀ reached calls, Nesting image prepared reached calls → Discipline image reached calls := by
  constructor
  · intro n reached iterated
    exact nesting_of_iteration iterated
  · intro reached calls nesting
    exact (nesting.framed (framed_of_prepared ready) fits spares).discipline

/-- An image that ends with a call, of the return in its middle. -/
def trailing : Image where
  bytes := Instruction.assemble
    [.jump .always .near (.relative 1), .ret, .call .near (.relative (-3))]
  entry := 0
  entry_lt := by decide

theorem fits_trailing : Machine.Fits trailing 64 where
  offsets := by decide
  positions := by decide

theorem frame_discipline_trailing :
    ∃ prepared, Machine.prepare trailing 0 (Machine.ofStackSize 64 .upward) = .ok () prepared ∧
      SparesHeaders trailing prepared ∧
      (∀ n reached, iteration (step trailing) n prepared = some reached →
        ∃ calls, Nesting trailing prepared reached calls) ∧
      ∀ reached calls, Nesting trailing prepared reached calls →
        Discipline trailing reached calls := by
  have fits := fits_trailing
  rw [← Machine.stackCapacity_ofStackSize 64 .upward] at fits
  obtain ⟨prepared, ready⟩ := Machine.prepare_ofStackSize trailing 0 .upward (show 20 ≤ 64 by decide)
  have spares := sparesHeaders_of_locals fits (Intact.of_prepared ready)
    (show trailing.WritesLocals by decide +kernel)
  exact ⟨prepared, ready, spares, frame_discipline fits ready spares⟩

/-- There is nothing to return to behind the call. -/
example :
    (match Machine.prepare trailing 0 (Machine.ofStackSize 64 .upward) with
      | .ok () prepared => (run trailing 3 prepared).any
          (·.result matches .error (.malformedFrame 2 (.returnAddress 5)))
      | .error _ _ => false) = true := by
  decide +kernel

end Tandem.Sequential

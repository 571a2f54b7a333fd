import Tandem.Instruction.Encoding
import Tandem.Proofs.Machine.Discipline
import Tandem.Proofs.Threaded.Agreement
import Tandem.Proofs.Threaded.Headers
import Tandem.Proofs.Threaded.Integrity

/-!
# Balanced ends

A run that ends through a return out of the image should have returned from all of its calls.
Threaded runs always have. Sequential runs have if they write over no header of an outstanding call,
and one that has not is noticed: a threaded run that comes as far refuses the return
(`halts_balanced`). Left to itself, sequential dispatch takes any frame with the engine's mark for the
engine's own (`forging_unbalanced`).
-/

namespace Tandem

variable {image : Image} {machine prepared entered : Machine}

/-- A run from `start` ends well with a return, in round `n`, and leaves `final`. -/
def Sequential.ReturnsAt (image : Image) (start : Machine) (n : Nat) (final : Machine) : Prop :=
  ∃ machine count value, iteration (step image) n start = some machine ∧
    AtReturn image machine count ∧ step image machine = .done (.ok value) final

/-- The same of a threaded run. -/
def Threaded.ReturnsAt (image : Image) (code : Code) (start : Thread) (n : Nat) (final : Thread) :
    Prop :=
  ∃ thread value, iteration (step image code) n start = some thread ∧ AtReturn code thread ∧
    step image code thread = .done (.ok value) final

namespace Threaded

variable {thread final start : Thread} {calls : List Activation}

/-- A threaded run that ends with a return has no call outstanding then. -/
theorem Shadow.balanced (shadow : Shadow (Code.ofImage image) thread calls)
    (few : (Code.ofImage image).resumes.size < UInt32.size)
    (returns : AtReturn (Code.ofImage image) thread) {value : UInt32}
    (ends : Threaded.step image (Code.ofImage image) thread = .done (.ok value) final) :
    final.machine.stats.calls = final.machine.stats.returns := by
  obtain rfl := shadow.halts few returns ends
  obtain ⟨op, instruction, after, continuations, succeeds, -, result⟩ := returns.toEngine ends
  obtain ⟨countedCalls, countedReturns⟩ := Machine.balance_of_done succeeds.done
  rw [result]
  show after.stats.calls = after.stats.returns
  rw [countedCalls, countedReturns]
  exact shadow.balance

/-- Where a sequential run ends with a return, a threaded run that agrees with it does so too, or it
finds an id that is not the engine's. -/
theorem Agrees.returns {code : Code} (agrees : Agrees code machine thread)
    (faithful : code.Faithful image) (rooted : Rooted thread.machine.continuations) {count : Nat}
    (returns : Sequential.AtReturn image machine count) {value : UInt32} {left : Machine}
    (ends : Sequential.step image machine = .done (.ok value) left) :
    (AtReturn code thread ∧ ∃ value right, step image code thread = .done (.ok value) right ∧
      left.stats = right.machine.stats) ∨
    ∃ offset id final, step image code thread =
      .done (.error (.malformedFrame offset (.continuation id))) final := by
  obtain ⟨instruction, decoded, done⟩ := returns.toEngine ends
  obtain ⟨instruction', decoded', releases⟩ := returns
  obtain rfl : instruction' = instruction := Except.ok.inj (decoded'.symm.trans decoded)
  rcases agrees.round faithful with ⟨fault, left', right, failed, -⟩ | ran
  · rw [failed] at ends
    cases ends
  · obtain ⟨op, instruction, flow, left', right, ran⟩ := ran
    obtain rfl : instruction = instruction' := Except.ok.inj (ran.decode.symm.trans decoded)
    cases ran.sequential.symm.trans done
    obtain ⟨id, ids, holds, -⟩ := rooted.newest
    rw [← ran.continuations] at holds
    by_cases root : id = rootId
    · subst root
      have last := ran.dispatch_eq.trans (successor_toEngine_of_root holds)
      exact .inl ⟨⟨op, instruction, count, ran.found, ran.decoded, releases⟩, _, _,
        step_of_none ran.found ran.decoded last, ran.similar.stats⟩
    · have strays := ran.dispatch_eq.trans (successor_toEngine_of_mismatch holds root)
      exact .inr ⟨op.offset, id, _, step_of_error ran.found ran.decoded strays⟩

end Threaded

/-- Threaded runs that end with a return end balanced. Sequential runs do if they spare the headers
of outstanding calls; if one does not, a threaded run that comes as far fails over its ids. -/
theorem halts_balanced {argument : UInt32}
    (fits : Threaded.Fits image machine.stack.capacity)
    (size : machine.continuations.capacity = Machine.continuationCapacity machine.stack.capacity)
    (ready : Machine.prepare image argument machine = .ok () prepared) :
    ∃ entered, Machine.onContinuations (Stack.push Threaded.rootId) prepared = .ok () entered ∧
      (∀ n final, Threaded.ReturnsAt image (.ofImage image) ⟨0, entered⟩ n final →
        final.machine.stats.calls = final.machine.stats.returns) ∧
      (Sequential.SparesHeaders image prepared → ∀ n final,
        Sequential.ReturnsAt image prepared n final → final.stats.calls = final.stats.returns) ∧
      ∀ n final thread, Sequential.ReturnsAt image prepared n final →
        iteration (Threaded.step image (.ofImage image)) n ⟨0, entered⟩ = some thread →
        final.stats.calls = final.stats.returns ∨
          ∃ offset id last, Threaded.step image (.ofImage image) thread =
            .done (.error (.malformedFrame offset (.continuation id))) last := by
  obtain ⟨entered, rooted, agrees, holds, -⟩ := Threaded.enters size ready
  have faithful := Threaded.faithful_ofImage image
  have shadow : ∀ {n thread}, iteration (Threaded.step image (.ofImage image)) n ⟨0, entered⟩ =
      some thread → ∃ calls, Threaded.Shadow (.ofImage image) thread calls := by
    intro n thread reached
    obtain ⟨calls, nesting⟩ := Threaded.nesting_of_iteration reached
    exact ⟨calls, nesting.shadow faithful (Threaded.shadow_of_prepared ready rooted)⟩
  refine ⟨entered, rooted, ?_, ?_, ?_⟩
  · rintro n final ⟨thread, value, reached, returns, ends⟩
    obtain ⟨calls, shadow⟩ := shadow reached
    exact shadow.balanced fits.ids returns ends
  · rintro spares n final ⟨reached, count, value, iterated, returns, ends⟩
    obtain ⟨calls, nesting⟩ := Sequential.nesting_of_iteration iterated
    have framed := nesting.framed (Sequential.framed_of_prepared ready) fits.toFits spares
    exact (framed.halts returns ends).2.1
  · rintro n final thread ⟨reached, count, value, iterated, returns, ends⟩ reached'
    have start : Threaded.During (.ofImage image) prepared ⟨0, entered⟩ := ⟨agrees, [], holds⟩
    obtain ⟨agrees, rooted⟩ := (Threaded.lockstepUnless faithful).iteration start iterated reached'
    rcases agrees.returns faithful rooted returns ends with ⟨returns, _, right, ends, same⟩ | refused
    · obtain ⟨calls, shadow⟩ := shadow reached'
      rw [same]
      exact .inl (shadow.balanced fits.ids returns ends)
    · exact .inr refused

/-- An image that calls a return and returns. -/
def returning : Image where
  bytes := Instruction.assemble [.call .near (.relative 1), .ret, .ret]
  entry := 0
  entry_lt := by decide

theorem fits_returning : Threaded.Fits returning 64 where
  offsets := by decide
  positions := by decide
  ids := by decide +kernel

theorem halts_balanced_returning :
    ∃ prepared, Machine.prepare returning 0 (Machine.ofStackSize 64 .upward) = .ok () prepared ∧
      Sequential.SparesHeaders returning prepared ∧
      ∃ entered, Machine.onContinuations (Stack.push Threaded.rootId) prepared = .ok () entered ∧
        (∀ n final, Threaded.ReturnsAt returning (.ofImage returning) ⟨0, entered⟩ n final →
          final.machine.stats.calls = final.machine.stats.returns) ∧
        ∀ n final, Sequential.ReturnsAt returning prepared n final →
          final.stats.calls = final.stats.returns := by
  have fits := fits_returning
  rw [← Machine.stackCapacity_ofStackSize 64 .upward] at fits
  obtain ⟨prepared, ready⟩ := Machine.prepare_ofStackSize returning 0 .upward (show 20 ≤ 64 by decide)
  have spares := Sequential.sparesHeaders_of_locals fits.toFits (Intact.of_prepared ready)
    (show returning.WritesLocals by decide +kernel)
  obtain ⟨entered, rooted, threaded, sequential, -⟩ := halts_balanced fits (by simp) ready
  exact ⟨prepared, ready, spares, entered, rooted, threaded, sequential spares⟩

/-! ## An unbalanced end -/

/-- A machine is at a return that ends the run well although its calls and returns differ. -/
def Sequential.haltsUnbalanced (image : Image) (machine : Machine) : Bool :=
  match Instruction.decode image machine.cursor with
  | .ok instruction =>
    match step image machine with
    | .done (.ok _) final =>
      instruction.released?.isSome && final.stats.calls != final.stats.returns
    | _ => false
  | .error _ => false

theorem Sequential.haltsUnbalanced_iff : haltsUnbalanced image machine = true ↔
    ∃ count value final, AtReturn image machine count ∧ step image machine = .done (.ok value) final ∧
      final.stats.calls ≠ final.stats.returns := by
  unfold haltsUnbalanced
  constructor
  · intro halts
    split at halts
    · split at halts
      · obtain ⟨returns, unbalanced⟩ := Bool.and_eq_true_iff.mp halts
        obtain ⟨count, returns⟩ := Option.isSome_iff_exists.mp returns
        exact ⟨count, _, _, ⟨_, ‹_›, returns⟩, ‹_›, bne_iff_ne.mp unbalanced⟩
      · cases halts
    · cases halts
  · rintro ⟨count, value, final, ⟨instruction, decoded, returns⟩, ends, unbalanced⟩
    simp only [decoded, ends, returns, Option.isSome_some, Bool.true_and]
    exact bne_iff_ne.mpr unbalanced

/-- The inner function of this image makes its caller return to the engine, so that the first call is
never returned from. -/
theorem forging_unbalanced :
    ∃ prepared,
      Machine.prepare Threaded.forging 0 (Machine.ofStackSize 64 .upward) = .ok () prepared ∧
      ∃ n final, Sequential.ReturnsAt Threaded.forging prepared n final ∧
        final.stats.calls ≠ final.stats.returns := by
  have unbalanced : (match Machine.prepare Threaded.forging 0 (Machine.ofStackSize 64 .upward) with
      | .ok () prepared => (iteration (Sequential.step Threaded.forging) 5 prepared).any
          (Sequential.haltsUnbalanced Threaded.forging)
      | .error _ _ => false) = true := by
    decide +kernel
  obtain ⟨prepared, ready⟩ :=
    Machine.prepare_ofStackSize Threaded.forging 0 .upward (show 20 ≤ 64 by decide)
  simp only [ready] at unbalanced
  obtain ⟨machine, reached, halts⟩ := (Option.any_eq_true _ _).mp unbalanced
  obtain ⟨count, value, final, returns, ends, unbalanced⟩ := Sequential.haltsUnbalanced_iff.mp halts
  exact ⟨prepared, ready, 5, final, ⟨machine, count, value, reached, returns, ends⟩, unbalanced⟩

end Tandem

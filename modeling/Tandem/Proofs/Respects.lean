import Tandem.Action

/-!
# Related actions

Two actions on two states, compared side by side: from related states they come to the same value,
or to the same fault, and leave related states. The rules follow the ways to combine actions, so
that whatever is built from related parts is related.

`waived` is a set of faults that excuse the right action: where the left one fails with a waived
fault, nothing is said of the right one. With no waived faults the two actions come to the same in
every case.
-/

namespace Tandem

variable {σ τ α β : Type} {waived : Fault → Prop} {R : σ → τ → Prop}

/-- No fault is waived. -/
def Fault.NoneWaived : Fault → Prop := fun _ => False

namespace Action

/-- Two results that agree, with related states. -/
inductive Related (waived : Fault → Prop) (R : σ → τ → Prop) :
    EStateM.Result Fault σ α → EStateM.Result Fault τ α → Prop
  | ok {value : α} {left : σ} {right : τ} (states : R left right) :
    Related waived R (.ok value left) (.ok value right)
  | error {fault : Fault} {left : σ} {right : τ} (states : R left right) :
    Related waived R (.error fault left) (.error fault right)
  | waived {fault : Fault} {left : σ} {right : EStateM.Result Fault τ α} (excuse : waived fault) :
    Related waived R (.error fault left) right

theorem Related.mono {S : σ → τ → Prop} (wider : ∀ left right, R left right → S left right)
    {left : EStateM.Result Fault σ α} {right : EStateM.Result Fault τ α}
    (related : Related waived R left right) : Related waived S left right := by
  cases related with
  | ok states => exact .ok (wider _ _ states)
  | error states => exact .error (wider _ _ states)
  | waived excuse => exact .waived excuse

theorem Related.of_ok {value : α} {left : σ} {right : EStateM.Result Fault τ α}
    (related : Related waived R (.ok value left) right) :
    ∃ after, right = .ok value after ∧ R left after := by
  cases related with
  | ok states => exact ⟨_, rfl, states⟩

theorem Related.of_error {fault : Fault} {left : σ} {right : EStateM.Result Fault τ α}
    (related : Related Fault.NoneWaived R (.error fault left) right) :
    ∃ after, right = .error fault after ∧ R left after := by
  cases related with
  | error states => exact ⟨_, rfl, states⟩
  | waived excuse => exact excuse.elim

/-- From related states, two actions have related results. -/
def Respects (waived : Fault → Prop) (R : σ → τ → Prop) (left : Action σ α) (right : Action τ α) :
    Prop :=
  ∀ leftState rightState, R leftState rightState →
    Related waived R (left leftState) (right rightState)

namespace Respects

theorem pure (value : α) : Respects waived R (pure value) (pure value) :=
  fun _ _ states => .ok states

theorem throw (fault : Fault) :
    Respects waived R (throw fault : Action σ α) (throw fault : Action τ α) :=
  fun _ _ states => .error states

theorem ofExcept (outcome : Except Fault α) :
    Respects waived R (ofExcept outcome) (ofExcept outcome) := by
  intro left right states
  rw [ofExcept_apply, ofExcept_apply]
  cases outcome with
  | ok value => exact .ok states
  | error fault => exact .error states

theorem modify {change : σ → σ} {change' : τ → τ}
    (keeps : ∀ left right, R left right → R (change left) (change' right)) :
    Respects waived R (modify change) (modify change') :=
  fun left right states => .ok (keeps left right states)

theorem bind {first : Action σ α} {first' : Action τ α} {rest : α → Action σ β}
    {rest' : α → Action τ β} (firstPart : Respects waived R first first')
    (secondPart : ∀ value, Respects waived R (rest value) (rest' value)) :
    Respects waived R (first >>= rest) (first' >>= rest') := by
  intro left right states
  rw [bind_apply, bind_apply]
  have begun := firstPart left right states
  revert begun
  generalize first left = result
  generalize first' right = result'
  intro begun
  cases begun with
  | ok states => exact secondPart _ _ _ states
  | error states => exact .error states
  | waived excuse => exact .waived excuse

/-- Actions that look at their state first are compared at each pair of related states. -/
theorem get {rest : σ → Action σ β} {rest' : τ → Action τ β}
    (agree : ∀ left right, R left right → Related waived R (rest left left) (rest' right right)) :
    Respects waived R (MonadState.get >>= rest) (MonadState.get >>= rest') := by
  intro left right states
  rw [bind_apply, bind_apply]
  exact agree left right states

theorem ensure {condition condition' : Prop} [Decidable condition] [Decidable condition']
    (same : condition ↔ condition') (fault : Fault) :
    Respects waived R (ensure condition fault) (ensure condition' fault) := by
  intro left right states
  by_cases holds : condition
  · rw [Action.ensure, Action.ensure, if_pos holds, if_pos (same.mp holds)]
    exact .ok states
  · rw [Action.ensure, Action.ensure, if_neg holds, if_neg (mt same.mpr holds)]
    exact .error states

/-- Where the left action succeeds, so does the right one. -/
theorem of_ok {left : Action σ α} {right : Action τ α} (respects : Respects waived R left right)
    {leftState leftAfter : σ} {rightState : τ} {value : α} (states : R leftState rightState)
    (done : left leftState = .ok value leftAfter) :
    ∃ rightAfter, right rightState = .ok value rightAfter ∧ R leftAfter rightAfter :=
  Related.of_ok (done ▸ respects leftState rightState states)

/-- Where the left action fails and nothing is waived, so does the right one. -/
theorem of_error {left : Action σ α} {right : Action τ α}
    (respects : Respects Fault.NoneWaived R left right) {leftState leftAfter : σ} {rightState : τ}
    {fault : Fault} (states : R leftState rightState)
    (failed : left leftState = .error fault leftAfter) :
    ∃ rightAfter, right rightState = .error fault rightAfter ∧ R leftAfter rightAfter :=
  Related.of_error (failed ▸ respects leftState rightState states)

end Respects

theorem get_bind (rest : σ → Action σ β) (state : σ) :
    (MonadState.get >>= rest) state = rest state state := rfl

theorem modify_bind (change : σ → σ) (rest : Unit → Action σ β) (state : σ) :
    (modify change >>= rest) state = rest () (change state) := rfl

theorem bind_of_ok {first : Action σ α} {rest : α → Action σ β} {state next : σ} {value : α}
    (done : first state = .ok value next) : (first >>= rest) state = rest value next := by
  rw [bind_apply, done]

theorem bind_of_error {first : Action σ α} {rest : α → Action σ β} {state next : σ} {fault : Fault}
    (failed : first state = .error fault next) : (first >>= rest) state = .error fault next := by
  rw [bind_apply, failed]

/-- An action that succeeds after another one is a success of both. -/
theorem bind_eq_ok {first : Action σ α} {rest : α → Action σ β} {state final : σ} {value : β} :
    (first >>= rest) state = .ok value final ↔
      ∃ middle next, first state = .ok middle next ∧ rest middle next = .ok value final := by
  rw [bind_apply]
  constructor
  · intro done
    cases begun : first state with
    | ok middle next =>
      rw [begun] at done
      exact ⟨middle, next, rfl, done⟩
    | error fault next =>
      rw [begun] at done
      cases done
  · rintro ⟨middle, next, begun, done⟩
    rw [begun]
    exact done

/-- An action that fails after another one is a failure of one of them. -/
theorem bind_eq_error {first : Action σ α} {rest : α → Action σ β} {state final : σ}
    {fault : Fault} :
    (first >>= rest) state = .error fault final ↔
      first state = .error fault final ∨
        ∃ middle next, first state = .ok middle next ∧ rest middle next = .error fault final := by
  rw [bind_apply]
  constructor
  · intro failed
    cases begun : first state with
    | ok middle next =>
      rw [begun] at failed
      exact .inr ⟨middle, next, rfl, failed⟩
    | error fault' next =>
      rw [begun] at failed
      cases failed
      exact .inl rfl
  · rintro (begun | ⟨middle, next, begun, failed⟩)
    · rw [begun]
    · rw [begun]
      exact failed

/-- What only turns the value of an action into another one fails where the action does. -/
theorem error_of_bind_pure {first : Action σ α} {result : α → β} {state final : σ} {fault : Fault}
    (failed : (first >>= fun value => pure (result value)) state = .error fault final) :
    first state = .error fault final := by
  rcases bind_eq_error.mp failed with begun | ⟨_, _, -, never⟩
  · exact begun
  · cases never

theorem modify_eq_ok {change : σ → σ} {state after : σ} {value : Unit}
    (done : (modify change : Action σ Unit) state = .ok value after) : after = change state := by
  cases done
  rfl

end Action

end Tandem

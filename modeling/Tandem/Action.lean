import Tandem.Fault

/-!
# Actions

An operation on a state that can fail with a fault. Unlike a function into `Except`, a failing
action hands back the state too: what it did before it failed stays done. The lemmas say what each
way to combine actions does to a state.
-/

namespace Tandem

/-- An operation on a state that can fail. -/
abbrev Action (σ α : Type) : Type := EStateM Fault σ α

namespace Action

variable {σ α β : Type}

/-- Fail with `fault` unless `condition` holds. -/
def ensure (condition : Prop) [Decidable condition] (fault : Fault) : Action σ Unit := fun state =>
  if condition then .ok () state else .error fault state

@[simp] theorem pure_apply (value : α) (state : σ) :
    (pure value : Action σ α) state = .ok value state := rfl

@[simp] theorem bind_apply (first : Action σ α) (rest : α → Action σ β) (state : σ) :
    (first >>= rest) state =
      match first state with
      | .ok value next => rest value next
      | .error fault next => .error fault next := by
  cases done : first state <;> simp [bind, EStateM.bind, done]

@[simp] theorem map_apply (change : α → β) (action : Action σ α) (state : σ) :
    (change <$> action) state =
      match action state with
      | .ok value next => .ok (change value) next
      | .error fault next => .error fault next := by
  cases done : action state <;> simp [Functor.map, EStateM.map, done]

@[simp] theorem get_apply (state : σ) : (get : Action σ σ) state = .ok state state := rfl

@[simp] theorem modify_apply (change : σ → σ) (state : σ) :
    (modify change : Action σ PUnit) state = .ok ⟨⟩ (change state) := rfl

@[simp] theorem throw_apply (fault : Fault) (state : σ) :
    (throw fault : Action σ α) state = .error fault state := rfl

@[simp] theorem ofExcept_apply (outcome : Except Fault α) (state : σ) :
    (ofExcept outcome : Action σ α) state =
      match outcome with
      | .ok value => .ok value state
      | .error fault => .error fault state := by
  cases outcome <;> rfl

end Action

end Tandem

/-
Actions: computations that work on a state and can fail.

Writing a file, reading a stream and running a muxer are all actions. A
failed action keeps the state it had reached, so that what was done
before the failure can be seen. The laws say what the simplest actions
do to a state, and how an action goes on after its first part.
-/

namespace AudioMux.Action

variable {ε σ α β : Type}

theorem apply_pure (a : α) (state : σ) :
    (pure a : EStateM ε σ α) state = .ok a state := rfl

theorem apply_get (state : σ) :
    (get : EStateM ε σ σ) state = .ok state state := rfl

theorem apply_modify (change : σ → σ) (state : σ) :
    (modify change : EStateM ε σ PUnit) state = .ok ⟨⟩ (change state) := rfl

/-- After a first part that succeeds, the second one works on the state
it left. -/
theorem apply_bind_ok {first : EStateM ε σ α} {second : α → EStateM ε σ β}
    {state after : σ} {a : α} (h : first state = .ok a after) :
    (first >>= second) state = second a after := by
  show EStateM.bind first second state = second a after
  unfold EStateM.bind
  rw [h]

/-- A first part that fails ends the action. -/
theorem apply_bind_error {first : EStateM ε σ α}
    {second : α → EStateM ε σ β} {state after : σ} {failure : ε}
    (h : first state = .error failure after) :
    (first >>= second) state = .error failure after := by
  show EStateM.bind first second state = .error failure after
  unfold EStateM.bind
  rw [h]

end AudioMux.Action

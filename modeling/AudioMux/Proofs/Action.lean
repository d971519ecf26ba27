/-
More laws of actions: working on a part of a state (`focus`), and
leaving something about a state as it was (`Keeps`), whether the action
succeeds or fails.
-/
import AudioMux.Action

namespace AudioMux.Action

variable {ε σ τ α β X : Type}

/-- Only the outcome is thrown away. -/
theorem apply_discard_ok {action : EStateM ε σ α} {a : α}
    {state state' : σ} (h : action state = .ok a state') :
    discard action state = .ok ⟨⟩ state' := by
  show EStateM.map _ action state = _
  unfold EStateM.map
  rw [h]

theorem apply_discard_error {action : EStateM ε σ α} {failure : ε}
    {state state' : σ} (h : action state = .error failure state') :
    discard action state = .error failure state' := by
  show EStateM.map _ action state = _
  unfold EStateM.map
  rw [h]

/-- What succeeds without its outcome succeeds with it. -/
theorem discard_eq_ok {action : EStateM ε σ α} {u : PUnit}
    {state state' : σ} (h : discard action state = .ok u state') :
    ∃ a, action state = .ok a state' := by
  cases hrun : action state with
  | ok a between =>
      cases h.symm.trans (apply_discard_ok hrun)
      exact ⟨a, rfl⟩
  | error failure between => cases h.symm.trans (apply_discard_error hrun)

/-- Both parts of an action that succeeds do. -/
theorem bind_eq_ok {first : EStateM ε σ α} {second : α → EStateM ε σ β}
    {state final : σ} {b : β} (h : (first >>= second) state = .ok b final) :
    ∃ a between, first state = .ok a between
      ∧ second a between = .ok b final := by
  cases hrun : first state with
  | ok a between =>
      rw [apply_bind_ok hrun] at h
      exact ⟨a, between, rfl, h⟩
  | error failure between => cases h.symm.trans (apply_bind_error hrun)

/-- Both parts of a loop that succeeds do. -/
theorem forM_append_eq_ok {ι : Type} {f : ι → EStateM ε σ PUnit}
    {earlier later : List ι} {state final : σ}
    (h : (earlier ++ later).forM f state = .ok ⟨⟩ final) :
    ∃ between, earlier.forM f state = .ok ⟨⟩ between
      ∧ later.forM f between = .ok ⟨⟩ final := by
  induction earlier generalizing state with
  | nil => exact ⟨state, rfl, h⟩
  | cons i earlier ih =>
      obtain ⟨_, next, hrun, hrest⟩ := bind_eq_ok
        (show (f i >>= fun _ => (earlier ++ later).forM f) state = _ from h)
      obtain ⟨between, hearlier, hlater⟩ := ih hrest
      exact ⟨between, (apply_bind_ok hrun).trans hearlier, hlater⟩

/-- A loop goes on from where its first part came. -/
theorem apply_forM_append {ι : Type} {f : ι → EStateM ε σ PUnit}
    {earlier later : List ι} {state between : σ}
    (h : earlier.forM f state = .ok ⟨⟩ between) :
    (earlier ++ later).forM f state = later.forM f between := by
  induction earlier generalizing state with
  | nil =>
      cases h
      rfl
  | cons i earlier ih =>
      obtain ⟨_, next, hrun, hrest⟩ := bind_eq_ok
        (show (f i >>= fun _ => earlier.forM f) state = _ from h)
      exact (apply_bind_ok hrun).trans (ih hrest)

/-- A loop over indices, all of whose rounds succeed. `P n` is what
holds before round `n`. -/
theorem forM_range'_ok {f : Nat → EStateM ε σ PUnit} {P : Nat → σ → Prop}
    {start count : Nat} {state : σ} (hstart : P start state)
    (hround : ∀ n, start ≤ n → n < start + count → ∀ s, P n s →
      ∃ s', f n s = .ok ⟨⟩ s' ∧ P (n + 1) s') :
    ∃ s', (List.range' start count).forM f state = .ok ⟨⟩ s'
      ∧ P (start + count) s' := by
  induction count generalizing start state with
  | zero => exact ⟨state, rfl, hstart⟩
  | succ count ih =>
      obtain ⟨s₁, hrun, hs₁⟩ :=
        hround start (Nat.le_refl _) (by omega) state hstart
      obtain ⟨s₂, hrest, hs₂⟩ := ih hs₁ fun n hlo hhi =>
        hround n (by omega) (by omega)
      refine ⟨s₂, ?_, ?_⟩
      · rw [List.range'_succ]
        exact (apply_bind_ok hrun).trans hrest
      · rw [← Nat.add_assoc, Nat.add_right_comm]
        exact hs₂

theorem forM_range_ok {f : Nat → EStateM ε σ PUnit} {P : Nat → σ → Prop}
    {count : Nat} {state : σ} (hstart : P 0 state)
    (hround : ∀ n, n < count → ∀ s, P n s →
      ∃ s', f n s = .ok ⟨⟩ s' ∧ P (n + 1) s') :
    ∃ s', (List.range count).forM f state = .ok ⟨⟩ s' ∧ P count s' := by
  have hrounds : ∀ n, 0 ≤ n → n < 0 + count → ∀ s, P n s →
      ∃ s', f n s = .ok ⟨⟩ s' ∧ P (n + 1) s' :=
    fun n _ hhi => hround n (by omega)
  obtain ⟨s', hrun, hs'⟩ := forM_range'_ok hstart hrounds
  rw [Nat.zero_add] at hs'
  rw [List.range_eq_range']
  exact ⟨s', hrun, hs'⟩

-- ======================================================= parts of a state

/-- An action on a part of the state, which is taken out and put back. -/
def focus (part : τ → σ) (restore : σ → τ → τ)
    (action : EStateM ε σ α) : EStateM ε τ α := fun whole =>
  match action (part whole) with
  | .ok a s => .ok a (restore s whole)
  | .error failure s => .error failure (restore s whole)

theorem focus_ok {part : τ → σ} {restore : σ → τ → τ}
    {action : EStateM ε σ α} {whole : τ} {a : α} {s : σ}
    (h : action (part whole) = .ok a s) :
    focus part restore action whole = .ok a (restore s whole) := by
  unfold focus
  rw [h]

theorem focus_error {part : τ → σ} {restore : σ → τ → τ}
    {action : EStateM ε σ α} {whole : τ} {failure : ε} {s : σ}
    (h : action (part whole) = .error failure s) :
    focus part restore action whole = .error failure (restore s whole) := by
  unfold focus
  rw [h]

-- ======================================================= what is left alone

/-- The state an action leaves, however it ends. -/
def after : EStateM.Result ε σ α → σ
  | .ok _ state => state
  | .error _ state => state

/-- The failure an action ends with, if it fails. -/
def ending : EStateM.Result ε σ α → Option ε
  | .ok _ _ => none
  | .error failure _ => some failure

/-- What an action gives back, without the state. -/
def outcome : EStateM.Result ε σ α → Except ε α
  | .ok a _ => .ok a
  | .error failure _ => .error failure

/-- Whatever an action does, `look` sees no change. -/
def Keeps (look : σ → X) (action : EStateM ε σ α) : Prop :=
  ∀ state, look (after (action state)) = look state

/-- Where an action comes does not depend on its outcome. -/
theorem after_discard (action : EStateM ε σ α) (state : σ) :
    after (discard action state) = after (action state) := by
  cases hrun : action state with
  | ok a state' =>
      rw [apply_discard_ok hrun]
      rfl
  | error failure state' =>
      rw [apply_discard_error hrun]
      rfl

variable {look : σ → X}

theorem keeps_pure (a : α) : Keeps look (pure a : EStateM ε σ α) :=
  fun _ => rfl

theorem keeps_throw_bind (failure : ε) (second : α → EStateM ε σ β) :
    Keeps look (throw failure >>= second) :=
  fun _ => rfl

theorem keeps_get : Keeps look (get : EStateM ε σ σ) := fun _ => rfl

theorem keeps_modify {change : σ → σ}
    (h : ∀ state, look (change state) = look state) :
    Keeps look (modify change : EStateM ε σ PUnit) :=
  fun state => h state

/-- What both parts leave alone, the whole leaves alone. -/
theorem keeps_bind {first : EStateM ε σ α} {second : α → EStateM ε σ β}
    (hfirst : Keeps look first) (hsecond : ∀ a, Keeps look (second a)) :
    Keeps look (first >>= second) := by
  intro state
  have h := hfirst state
  cases hrun : first state with
  | ok a state' =>
      rw [apply_bind_ok hrun, hsecond a state']
      rw [hrun] at h
      exact h
  | error failure state' =>
      rw [apply_bind_error hrun]
      rw [hrun] at h
      exact h

theorem keeps_ite {c : Prop} [Decidable c] {f g : EStateM ε σ α}
    (hpos : Keeps look f) (hneg : Keeps look g) :
    Keeps look (if c then f else g) := by
  split
  · exact hpos
  · exact hneg

theorem keeps_discard {action : EStateM ε σ α} (h : Keeps look action) :
    Keeps look (discard action) := by
  intro state
  rw [after_discard]
  exact h state

theorem keeps_forM {ι : Type} {f : ι → EStateM ε σ PUnit}
    (h : ∀ i, Keeps look (f i)) : ∀ l : List ι, Keeps look (l.forM f) := by
  intro l
  induction l with
  | nil => exact keeps_pure _
  | cons i l ih => exact keeps_bind (h i) fun _ => ih

end AudioMux.Action

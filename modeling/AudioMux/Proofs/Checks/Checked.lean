/-
Actions with the checks on their way.

The definitions of the muxer count without bounds and cut off differences
at zero, while the numbers of a file are kept in 32 or 64 bits and may
not go below zero. An action also takes some things for granted on its
way. A checked action says where: it is an action together with the
states from which all checks that it comes to hold (`Passes`).

What fails on the way ends the action, and no check behind it is reached.
Nothing is asked for either once the state has left the limits within
which the checks are meant to hold (`Limited`).
-/
import AudioMux.Failure
import AudioMux.Proofs.Action

namespace AudioMux

open AudioMux.Action

/-- States of which some are within limits. -/
class Limited (S : Type) where
  Within : S → Prop

export Limited (Within)

/-- An action with checks on its way. -/
structure Checked (S α : Type) where
  action : EStateM Failure S α
  /-- From this state on all checks that are reached hold. -/
  Passes : S → Prop

namespace Checked

variable {S α β : Type}

/-- An action without checks. -/
def plain (action : EStateM Failure S α) : Checked S α :=
  ⟨action, fun _ => True⟩

/-- A check of the state, and nothing else. -/
def check (condition : S → Prop) : Checked S Unit :=
  ⟨pure (), condition⟩

/-- An action that fails. -/
def refuse (failure : Failure) : Checked S α := plain (throw failure)

/-- Only the outcome is thrown away. -/
def dropping (checked : Checked S α) : Checked S Unit :=
  ⟨discard checked.action, checked.Passes⟩

instance : MonadLift (EStateM Failure S) (Checked S) := ⟨plain⟩

variable [Limited S]

/-- The checks of the second part are reached when the first part has
succeeded and is still within limits. -/
instance : Monad (Checked S) where
  pure a := plain (pure a)
  bind first second :=
    ⟨first.action >>= fun a => (second a).action,
      fun s => first.Passes s ∧ ∀ a s', first.action s = .ok a s' →
        Within s' → (second a).Passes s'⟩

/-- A loop of checked actions is a loop of actions. -/
theorem action_forM {ι : Type} (f : ι → Checked S PUnit) (l : List ι) :
    (l.forM f).action = l.forM fun i => (f i).action := by
  induction l with
  | nil => rfl
  | cons i l ih =>
      show ((f i).action >>= fun _ => (l.forM f).action) = _
      rw [ih]
      rfl

-- =================================================================== passing

variable {s : S}

theorem passes_bind {first : Checked S α} {second : α → Checked S β}
    (h : first.Passes s)
    (hrest : ∀ a s', first.action s = .ok a s' → Within s' →
      (second a).Passes s') :
    (first >>= second).Passes s := ⟨h, hrest⟩

theorem passes_plain_bind {action : EStateM Failure S α}
    {second : α → Checked S β}
    (h : ∀ a s', action s = .ok a s' → Within s' → (second a).Passes s') :
    (plain action >>= second).Passes s := ⟨trivial, h⟩

theorem passes_get_bind {second : S → Checked S β}
    (h : (second s).Passes s) : ((get : Checked S S) >>= second).Passes s := by
  refine passes_plain_bind fun a s' hrun _ => ?_
  cases hrun
  exact h

theorem passes_modify_bind {change : S → S} {second : PUnit → Checked S β}
    (h : Within (change s) → (second ⟨⟩).Passes (change s)) :
    ((modify change : Checked S PUnit) >>= second).Passes s := by
  refine passes_plain_bind fun a s' hrun hwithin => ?_
  cases hrun
  exact h hwithin

theorem passes_check_bind {condition : S → Prop}
    {second : Unit → Checked S β} (hcondition : condition s)
    (h : (second ()).Passes s) : (check condition >>= second).Passes s := by
  refine passes_bind hcondition fun a s' hrun _ => ?_
  cases hrun
  exact h

omit [Limited S] in
theorem passes_ite {c : Prop} [Decidable c] {first second : Checked S α}
    (hpos : c → first.Passes s) (hneg : ¬ c → second.Passes s) :
    (if c then first else second).Passes s := by
  by_cases hc : c
  · rw [if_pos hc]
    exact hpos hc
  · rw [if_neg hc]
    exact hneg hc

/-- A condition under which the action is refused guards the checks that
follow. -/
theorem passes_guard {c : Prop} [Decidable c] {failure : Failure}
    {second : PUnit → Checked S α} (h : ¬ c → (second ⟨⟩).Passes s) :
    (if c then refuse failure >>= second else second ⟨⟩).Passes s := by
  refine passes_ite (fun _ => ?_) h
  exact passes_plain_bind nofun

/-- A loop over indices. `P n` is what holds before round `n`. -/
theorem passes_forM_range' {f : Nat → Checked S PUnit}
    {P : Nat → S → Prop} {start count : Nat} (hstart : P start s)
    (hround : ∀ n, start ≤ n → n < start + count → ∀ s, P n s →
      (f n).Passes s ∧ ∀ s', (f n).action s = .ok ⟨⟩ s' → Within s' →
        P (n + 1) s') :
    ((List.range' start count).forM f).Passes s := by
  induction count generalizing start s with
  | zero => exact trivial
  | succ count ih =>
      obtain ⟨hpasses, hnext⟩ :=
        hround start (Nat.le_refl _) (by omega) s hstart
      rw [List.range'_succ]
      refine passes_bind hpasses fun _ s' hrun hwithin => ?_
      exact ih (hnext s' hrun hwithin) fun n hlo hhi =>
        hround n (by omega) (by omega)

theorem passes_forM_range {f : Nat → Checked S PUnit}
    {P : Nat → S → Prop} {count : Nat} (hstart : P 0 s)
    (hround : ∀ n, n < count → ∀ s, P n s →
      (f n).Passes s ∧ ∀ s', (f n).action s = .ok ⟨⟩ s' → Within s' →
        P (n + 1) s') :
    ((List.range count).forM f).Passes s := by
  rw [List.range_eq_range']
  exact passes_forM_range' hstart fun n _ hhi => hround n (by omega)

end Checked

end AudioMux

/-
Sinks that do what they say, and why it is enough to look at files in
memory.

A faithful sink shows the flat file it stands for (`view`), and an
operation that succeeds does to that file what its name says. Nothing is
asked of an operation that fails: it may have done any part of its work,
or something else. A sink that never fails is a faithful one whose
operations all succeed, reading past the end apart.

# The transfer

`Mirrors f g` says that an action `f` around a faithful sink is the
action `g` around a flat file: it succeeds with the same outcome, or
fails with the same failure, or the sink failed and the fault is
remembered. In the last case, if the sink never fails, `g` met the same
fault. The relation passes through the ways actions are put together, so
one lemma for each action (see `Proofs/Muxer/Mirror`) turns a statement
about runs on flat files into one about runs on all faithful sinks.
-/
import AudioMux.Output
import AudioMux.Proofs.Action
import AudioMux.Proofs.Sink.FlatFile

namespace AudioMux

-- =================================================================== sinks

/-- A sink whose operations do what they say or fail. Writes and reads
of nothing never reach a sink, so nothing is said of them. -/
class FaithfulSink (σ : Type) [Sink σ] where
  /-- The file the sink stands for. -/
  view : σ → FlatFile
  view_write : ∀ {data : Bytes} {sink after : σ}, data ≠ [] →
    Sink.write data sink = .ok () after →
    view after = (view sink).write data
  view_read : ∀ {count : Nat} {bytes : Bytes} {sink after : σ},
    0 < count → Sink.read count sink = .ok bytes after →
    (view sink).cursor + count ≤ (view sink).bytes.length
      ∧ bytes = (view sink).upcoming count
      ∧ view after = (view sink).moveTo ((view sink).cursor + count)
  view_position : ∀ {position : Nat} {sink after : σ},
    Sink.position sink = .ok position after →
    position = (view sink).cursor ∧ view after = view sink
  view_seek : ∀ {target : Nat} {sink after : σ},
    Sink.seek target sink = .ok () after →
    view after = (view sink).moveTo target
  view_flush : ∀ {sink after : σ},
    Sink.flush sink = .ok () after → view after = view sink

/-- A sink none of whose operations fails, except that what is not there
cannot be read. -/
class NeverFails (σ : Type) [Sink σ] [FaithfulSink σ] : Prop where
  write_ok : ∀ {data : Bytes} (sink : σ), data ≠ [] →
    ∃ after, Sink.write data sink = .ok () after
  read_ok : ∀ {count : Nat} (sink : σ), 0 < count →
    (FaithfulSink.view sink).cursor + count
      ≤ (FaithfulSink.view sink).bytes.length →
    ∃ bytes after, Sink.read count sink = .ok bytes after
  position_ok : ∀ sink : σ, ∃ position after,
    Sink.position sink = .ok position after
  seek_ok : ∀ (target : Nat) (sink : σ),
    ∃ after, Sink.seek target sink = .ok () after
  flush_ok : ∀ sink : σ, ∃ after, Sink.flush sink = .ok () after

namespace FlatFile

/-- A flat file stands for itself. -/
instance : FaithfulSink FlatFile where
  view file := file
  view_write := by
    intro data file after _ h
    cases h
    rfl
  view_read := by
    intro count bytes file after _ h
    change read count file = .ok bytes after at h
    unfold read at h
    split at h
    · next hle =>
      cases h
      exact ⟨hle, rfl, rfl⟩
    · cases h
  view_position := by
    intro position file after h
    cases h
    exact ⟨rfl, rfl⟩
  view_seek := by
    intro target file after h
    cases h
    rfl
  view_flush := by
    intro file after h
    cases h
    rfl

instance : NeverFails FlatFile where
  write_ok := fun file _ => ⟨file.write _, rfl⟩
  read_ok := by
    intro count file _ hle
    exact ⟨file.upcoming count, file.moveTo (file.cursor + count),
      read_of_le hle⟩
  position_ok := fun file => ⟨file.cursor, file, rfl⟩
  seek_ok := fun target file => ⟨file.moveTo target, rfl⟩
  flush_ok := fun file => ⟨file, rfl⟩

end FlatFile

-- ============================================================ the relation

/-- How a state around a sink is seen as the same state around a flat
file. -/
class Mirrored (S : Type) (T : outParam Type) where
  /-- The state with the file its sink stands for. -/
  image : S → T
  /-- The fault that the state remembers. -/
  fault? : S → Option Fault
  /-- The fault that the image remembers. -/
  imageFault? : T → Option Fault
  /-- The sink never fails. -/
  Reliable : Prop

open Mirrored

variable {S T α β γ δ : Type} [Mirrored S T]

/-- `f` acts as `g` does on the image, with results compared by `r`,
unless the sink fails. -/
def Mirrors (r : α → β) (f : EStateM Failure S α)
    (g : EStateM Failure T β) : Prop :=
  ∀ s : S,
    (∀ a s', f s = .ok a s' → g (image s) = .ok (r a) (image s'))
    ∧ ∀ e s', f s = .error e s' →
        g (image s) = .error e (image s')
        ∨ (fault? s').isSome
          ∧ (Reliable S → ∃ e' t, g (image s) = .error e' t
              ∧ (imageFault? S t).isSome)

variable {r : α → β}

/-- What succeeds on the image succeeds as well, unless the sink fails. -/
theorem Mirrors.exists_ok {f : EStateM Failure S α}
    {g : EStateM Failure T β} (h : Mirrors r f g) (hrel : Reliable S)
    {s : S} {b : β} {t : T} (hg : g (image s) = .ok b t) :
    ∃ a s', f s = .ok a s' ∧ r a = b ∧ image s' = t := by
  obtain ⟨hok, herr⟩ := h s
  cases hf : f s with
  | ok a s' =>
      cases hg.symm.trans (hok a s' hf)
      exact ⟨a, s', rfl, rfl, rfl⟩
  | error e s' =>
      rcases herr e s' hf with hsame | ⟨_, hboth⟩
      · cases hg.symm.trans hsame
      · obtain ⟨e', t', ht, _⟩ := hboth hrel
        cases hg.symm.trans ht

/-- What fails on the image without a fault fails in the same way. -/
theorem Mirrors.exists_error {f : EStateM Failure S α}
    {g : EStateM Failure T β} (h : Mirrors r f g) (hrel : Reliable S)
    {s : S} {e : Failure} {t : T} (hg : g (image s) = .error e t)
    (hfault : imageFault? S t = none) :
    ∃ s', f s = .error e s' ∧ image s' = t := by
  obtain ⟨hok, herr⟩ := h s
  cases hf : f s with
  | ok a s' => cases hg.symm.trans (hok a s' hf)
  | error e' s' =>
      rcases herr e' s' hf with hsame | ⟨_, hboth⟩
      · cases hg.symm.trans hsame
        exact ⟨s', rfl, rfl⟩
      · obtain ⟨_, t', ht, hlost⟩ := hboth hrel
        cases hg.symm.trans ht
        rw [hfault] at hlost
        cases hlost

/-- What an action that succeeds gives is what it gives on the image. -/
theorem Mirrors.eq_of_ok {f : EStateM Failure S α} {g : EStateM Failure T β}
    (h : Mirrors r f g) {s s' : S} {a : α} {b : β} {t : T}
    (hf : f s = .ok a s') (hg : g (image s) = .ok b t) :
    r a = b ∧ image s' = t := by
  cases hg.symm.trans ((h s).1 a s' hf)
  exact ⟨rfl, rfl⟩

theorem mirrors_pure {a : α} {b : β} (h : r a = b) :
    Mirrors (S := S) r (pure a) (pure b) := by
  intro s
  refine ⟨fun a' s' hok => ?_, fun e s' herr => ?_⟩
  · cases hok
    rw [Action.apply_pure, h]
  · cases herr

theorem mirrors_throw (e : Failure) :
    Mirrors (S := S) r (throw e) (throw e) := by
  intro s
  refine ⟨fun a' s' hok => ?_, fun e' s' herr => ?_⟩
  · cases hok
  · cases herr
    exact Or.inl rfl

/-- Nothing follows a failure, whatever stands there. -/
theorem mirrors_throw_bind (e : Failure) (k : γ → EStateM Failure S α)
    (k' : δ → EStateM Failure T β) :
    Mirrors (S := S) r (throw e >>= k) (throw e >>= k') := by
  intro s
  refine ⟨nofun, fun e' s' herr => ?_⟩
  cases herr
  exact Or.inl rfl

theorem mirrors_get : Mirrors (S := S) image get get := by
  intro s
  refine ⟨fun a' s' hok => ?_, fun e s' herr => ?_⟩
  · cases hok
    rfl
  · cases herr

theorem mirrors_set {s : S} {t : T} (h : image s = t) :
    Mirrors (S := S) id (set s) (set t) := by
  intro s₀
  refine ⟨fun a' s' hok => ?_, fun e s' herr => ?_⟩
  · cases hok
    rw [h]
    rfl
  · cases herr

theorem mirrors_modify {φ : S → S} {ψ : T → T}
    (h : ∀ s, image (φ s) = ψ (image s)) :
    Mirrors id (modify φ) (modify ψ) := by
  intro s
  refine ⟨fun a' s' hok => ?_, fun e s' herr => ?_⟩
  · cases hok
    rw [Action.apply_modify, h]
  · cases herr

/-- What comes second may depend on what the first part gave. -/
theorem mirrors_bind {q : γ → δ} {f : EStateM Failure S α}
    {g : EStateM Failure T β} {k : α → EStateM Failure S γ}
    {k' : β → EStateM Failure T δ} (hfirst : Mirrors r f g)
    (hsecond : ∀ a, Mirrors q (k a) (k' (r a))) :
    Mirrors q (f >>= k) (g >>= k') := by
  intro s
  obtain ⟨hok, herr⟩ := hfirst s
  cases hf : f s with
  | ok a s₁ =>
      rw [Action.apply_bind_ok hf, Action.apply_bind_ok (hok a s₁ hf)]
      exact hsecond a s₁
  | error e s₁ =>
      rw [Action.apply_bind_error hf]
      refine ⟨nofun, fun e' s' h => ?_⟩
      cases h
      rcases herr e s₁ hf with hsame | ⟨hfault, hboth⟩
      · exact Or.inl (Action.apply_bind_error hsame)
      · refine Or.inr ⟨hfault, fun hrel => ?_⟩
        obtain ⟨e', t, ht, hlost⟩ := hboth hrel
        exact ⟨e', t, Action.apply_bind_error ht, hlost⟩

/-- An action that first looks at the state. -/
theorem mirrors_get_bind {q : γ → δ} {k : S → EStateM Failure S γ}
    {k' : T → EStateM Failure T δ}
    (h : ∀ s, Mirrors q (k s) (k' (image s))) :
    Mirrors q (get >>= k) (get >>= k') :=
  mirrors_bind mirrors_get h

theorem mirrors_discard {f : EStateM Failure S α} {g : EStateM Failure T β}
    (h : Mirrors r f g) :
    Mirrors (fun _ => PUnit.unit) (discard f) (discard g) := by
  intro s
  obtain ⟨hok, herr⟩ := h s
  cases hf : f s with
  | ok a s₁ =>
      rw [Action.apply_discard_ok hf]
      refine ⟨fun a' s' heq => ?_, nofun⟩
      cases heq
      exact Action.apply_discard_ok (hok a s₁ hf)
  | error e s₁ =>
      rw [Action.apply_discard_error hf]
      refine ⟨nofun, fun e' s' heq => ?_⟩
      cases heq
      rcases herr e s₁ hf with hsame | ⟨hfault, hboth⟩
      · exact Or.inl (Action.apply_discard_error hsame)
      · refine Or.inr ⟨hfault, fun hrel => ?_⟩
        obtain ⟨e', t, ht, hlost⟩ := hboth hrel
        exact ⟨e', t, Action.apply_discard_error ht, hlost⟩

/-- A condition that both sides agree on guards what follows. -/
theorem mirrors_guard {c : Prop} [Decidable c] {e : Failure}
    {k : PUnit → EStateM Failure S α} {k' : PUnit → EStateM Failure T β}
    (h : ¬ c → Mirrors r (k ⟨⟩) (k' ⟨⟩)) :
    Mirrors r (if c then throw e >>= k else k ⟨⟩)
      (if c then throw e >>= k' else k' ⟨⟩) := by
  by_cases hc : c
  · rw [if_pos hc, if_pos hc]
    exact mirrors_throw_bind e k k'
  · rw [if_neg hc, if_neg hc]
    exact h hc

theorem mirrors_ite {c : Prop} [Decidable c]
    {f f' : EStateM Failure S α} {g g' : EStateM Failure T β}
    (hpos : c → Mirrors r f g) (hneg : ¬ c → Mirrors r f' g') :
    Mirrors r (if c then f else f') (if c then g else g') := by
  by_cases hc : c
  · rw [if_pos hc, if_pos hc]
    exact hpos hc
  · rw [if_neg hc, if_neg hc]
    exact hneg hc

theorem mirrors_forM {ι : Type} {f : ι → EStateM Failure S PUnit}
    {g : ι → EStateM Failure T PUnit} (h : ∀ i, Mirrors id (f i) (g i)) :
    ∀ l : List ι, Mirrors id (l.forM f) (l.forM g) := by
  intro l
  induction l with
  | nil => exact mirrors_pure rfl
  | cons i l ih => exact mirrors_bind (h i) fun _ => ih

-- ============================================================== the output

namespace Output

variable {σ : Type} [Sink σ] [FaithfulSink σ]

/-- The output around the file that the sink stands for. -/
def image (out : Output σ) : Output FlatFile :=
  ⟨FaithfulSink.view out.sink, out.fault?⟩

instance : Mirrored (Output σ) (Output FlatFile) where
  image := Output.image
  fault? := Output.fault?
  imageFault? := Output.fault?
  Reliable := NeverFails σ

theorem image_of_no_fault {out : Output σ} (h : out.fault? = none) :
    out.image = .ofSink (FaithfulSink.view out.sink) :=
  congrArg (Output.mk _) h

omit [Sink σ] [FaithfulSink σ] in
theorem perform_ok {f : EStateM IoFailure σ α} {a : α} {sink after : σ}
    (h : f sink = .ok a after) :
    perform f ⟨sink, none⟩ = .ok a ⟨after, none⟩ := by
  unfold perform
  rw [h]

omit [Sink σ] [FaithfulSink σ] in
theorem perform_error {f : EStateM IoFailure σ α} {e : IoFailure}
    {sink after : σ} (h : f sink = .error e after) :
    perform f ⟨sink, none⟩ = .error (.io e) ⟨after, some (.io e.kind)⟩ := by
  unfold perform
  rw [h]
  rfl

omit [Sink σ] [FaithfulSink σ] in
theorem perform_faulted (f : EStateM IoFailure σ α) (sink : σ)
    (fault : Fault) :
    perform f ⟨sink, some fault⟩ = .error .faulted ⟨sink, some fault⟩ := rfl

/-- An operation of the sink that does to the file what it says, and
that a reliable sink refuses only where the file does. -/
theorem mirrors_perform {f : EStateM IoFailure σ α}
    {g : EStateM IoFailure FlatFile β}
    (hok : ∀ {a sink after}, f sink = .ok a after →
      g (FaithfulSink.view sink) = .ok (r a) (FaithfulSink.view after))
    (herr : NeverFails σ → ∀ {e sink after}, f sink = .error e after →
      ∃ e' file, g (FaithfulSink.view sink) = .error e' file) :
    Mirrors r (perform f) (perform g) := by
  rintro ⟨sink, _ | fault⟩
  · cases hf : f sink with
    | ok a after =>
        rw [perform_ok hf]
        refine ⟨fun a' s' h => ?_, nofun⟩
        cases h
        exact perform_ok (hok hf)
    | error e after =>
        rw [perform_error hf]
        refine ⟨nofun, fun e' s' h => ?_⟩
        cases h
        refine Or.inr ⟨rfl, fun hrel => ?_⟩
        obtain ⟨e', file, hg⟩ := herr hrel hf
        exact ⟨_, _, perform_error hg, rfl⟩
  · rw [perform_faulted]
    refine ⟨nofun, fun e s' h => ?_⟩
    cases h
    exact Or.inl rfl

theorem mirrors_position :
    Mirrors (S := Output σ) id position position := by
  refine mirrors_perform ?_ ?_
  · intro position sink after h
    obtain ⟨rfl, hview⟩ := FaithfulSink.view_position h
    rw [hview]
    rfl
  · intro hrel e sink after h
    obtain ⟨position, file, hok⟩ := hrel.position_ok sink
    rw [hok] at h
    cases h

theorem mirrors_seek (target : Nat) :
    Mirrors (S := Output σ) id (seek target) (seek target) := by
  refine mirrors_perform ?_ ?_
  · intro _ sink after h
    rw [FaithfulSink.view_seek h]
    rfl
  · intro hrel e sink after h
    obtain ⟨file, hok⟩ := hrel.seek_ok target sink
    rw [hok] at h
    cases h

theorem mirrors_flush : Mirrors (S := Output σ) id flush flush := by
  refine mirrors_perform ?_ ?_
  · intro _ sink after h
    rw [FaithfulSink.view_flush h]
    rfl
  · intro hrel e sink after h
    obtain ⟨file, hok⟩ := hrel.flush_ok sink
    rw [hok] at h
    cases h

theorem mirrors_write (data : Bytes) :
    Mirrors (S := Output σ) id (write data) (write data) := by
  by_cases hdata : data = []
  · subst hdata
    refine mirrors_perform ?_ ?_
    · intro _ sink after h
      cases h
      rfl
    · intro _ e sink after h
      cases h
  · have hempty : data.isEmpty = false := by simpa using hdata
    refine mirrors_perform ?_ ?_
    · intro _ sink after h
      unfold Sink.writeAll at h ⊢
      rw [hempty] at h ⊢
      rw [FaithfulSink.view_write hdata h]
      rfl
    · intro hrel e sink after h
      obtain ⟨file, hok⟩ := hrel.write_ok sink hdata
      unfold Sink.writeAll at h
      rw [hempty, if_neg Bool.false_ne_true, hok] at h
      cases h

theorem mirrors_read (count : Nat) :
    Mirrors (S := Output σ) id (read count) (read count) := by
  by_cases hcount : count = 0
  · subst hcount
    refine mirrors_perform ?_ ?_
    · intro _ sink after h
      cases h
      rfl
    · intro _ e sink after h
      cases h
  · have hpos : 0 < count := Nat.pos_of_ne_zero hcount
    refine mirrors_perform ?_ ?_
    · intro bytes sink after h
      unfold Sink.readExact at h ⊢
      rw [if_neg hcount] at h ⊢
      obtain ⟨hle, rfl, hview⟩ := FaithfulSink.view_read hpos h
      rw [hview]
      exact FlatFile.read_of_le hle
    · intro hrel e sink after h
      unfold Sink.readExact at h ⊢
      rw [if_neg hcount] at h ⊢
      refine ⟨_, _, if_neg fun hle => ?_⟩
      obtain ⟨bytes, file, hok⟩ := hrel.read_ok sink hpos hle
      rw [hok] at h
      cases h

theorem mirrors_writeWord32At (target n : Nat) :
    Mirrors (S := Output σ) id (writeWord32At target n)
      (writeWord32At target n) := by
  refine mirrors_bind mirrors_position fun here => ?_
  refine mirrors_bind (mirrors_seek target) fun _ => ?_
  exact mirrors_bind (mirrors_write _) fun _ => mirrors_seek here

theorem mirrors_put {β : Type} [Box.Format β] (box : β) :
    Mirrors (S := Output σ) id (put box) (put box) :=
  mirrors_write (Box.encode box)

theorem mirrors_openBox (kind : FourCC) :
    Mirrors (S := Output σ) id (openBox kind) (openBox kind) := by
  refine mirrors_bind mirrors_position fun start => ?_
  refine mirrors_bind (mirrors_write _) fun _ => ?_
  exact mirrors_bind (mirrors_write _) fun _ => mirrors_pure rfl

theorem mirrors_closeBox (start : Nat) :
    Mirrors (S := Output σ) id (closeBox start) (closeBox start) := by
  refine mirrors_bind mirrors_position fun position => ?_
  refine mirrors_guard fun _ => ?_
  exact mirrors_bind (mirrors_writeWord32At start _) fun _ =>
    mirrors_pure rfl

/-- Only the fault is looked at. -/
theorem mirrors_check : Mirrors (S := Output σ) id check check :=
  mirrors_get_bind fun _ => mirrors_ite (fun _ => mirrors_throw _) fun _ =>
    mirrors_pure rfl

end Output

end AudioMux

/-
A sink under watch: any sink, and a list of the failures it has reported.
Nothing else about the sink changes, and nothing is asked of it.

What is known of an output on such a sink is that it has told of every
failure (`Told`): the fault it remembers is that of each failure on the
list, so without a fault the list is empty. Whatever is done through the
output keeps that up (`told_perform`).
-/
import AudioMux.Proofs.Sink.Faithful

namespace AudioMux

open AudioMux.Action (after ending)

/-- A sink and the failures it has reported, in order. -/
structure Watched (σ : Type) where
  sink : σ
  failures : List IoFailure

namespace Watched

variable {σ α : Type}

/-- A sink that has not failed yet. -/
def ofSink (sink : σ) : Watched σ := ⟨sink, []⟩

/-- Does something with the sink and puts its failure on the list. -/
def noting (operation : EStateM IoFailure σ α) :
    EStateM IoFailure (Watched σ) α := fun watched =>
  match operation watched.sink with
  | .ok a sink => .ok a ⟨sink, watched.failures⟩
  | .error failure sink =>
    .error failure ⟨sink, watched.failures ++ [failure]⟩

/-- An operation that puts its failure on the list, if it fails. -/
def Notes (operation : EStateM IoFailure (Watched σ) α) : Prop :=
  ∀ watched, (after (operation watched)).failures
    = watched.failures ++ (ending (operation watched)).toList

theorem notes_noting (operation : EStateM IoFailure σ α) :
    Notes (noting operation) := by
  intro watched
  unfold noting
  cases operation watched.sink with
  | ok a sink => exact (List.append_nil _).symm
  | error failure sink => rfl

theorem notes_pure (a : α) :
    Notes (pure a : EStateM IoFailure (Watched σ) α) :=
  fun watched => (List.append_nil watched.failures).symm

variable [Sink σ]

instance : Sink (Watched σ) where
  write bytes := noting (Sink.write bytes)
  read count := noting (Sink.read count)
  position := noting Sink.position
  seek target := noting (Sink.seek target)
  flush := noting Sink.flush

theorem notes_writeAll (bytes : Bytes) :
    Notes (Sink.writeAll (σ := Watched σ) bytes) := by
  unfold Sink.writeAll
  split
  · exact notes_pure _
  · exact notes_noting _

theorem notes_readExact (count : Nat) :
    Notes (Sink.readExact (σ := Watched σ) count) := by
  unfold Sink.readExact
  split
  · exact notes_pure _
  · exact notes_noting _

end Watched

namespace Output

variable {σ α : Type}

/-- The fault remembered is that of every failure on the list. -/
def Told (out : Output (Watched σ)) : Prop :=
  ∀ failure ∈ out.sink.failures, out.fault? = some (.io failure.kind)

theorem told_ofSink (sink : σ) : Told (ofSink (Watched.ofSink sink)) := by
  intro failure hfailure
  cases hfailure

/-- Without a fault no failure was reported. -/
theorem Told.failures_eq_nil {out : Output (Watched σ)} (h : out.Told)
    (hfault : out.fault? = none) : out.sink.failures = [] := by
  refine List.eq_nil_iff_forall_not_mem.mpr fun failure hfailure => ?_
  have hsome := h failure hfailure
  rw [hfault] at hsome
  cases hsome

/-- A failure that comes later does not replace the first. -/
theorem Told.latch {out : Output (Watched σ)} (h : out.Told)
    (failure : Failure) : (Output.latch failure out).Told := by
  intro first hfirst
  show out.fault?.or failure.fault? = _
  rw [h first hfirst]
  rfl

theorem told_perform {operation : EStateM IoFailure (Watched σ) α}
    (hnotes : Watched.Notes operation) {out : Output (Watched σ)}
    (h : out.Told) :
    (after (perform operation out)).Told := by
  obtain ⟨watched, _ | fault⟩ := out
  · have hnone := h.failures_eq_nil rfl
    have hlist := hnotes watched
    rw [hnone] at hlist
    cases hrun : operation watched with
    | ok a next =>
        rw [hrun] at hlist
        rw [perform_ok hrun]
        intro failure (hfailure : failure ∈ next.failures)
        rw [show next.failures = [] from hlist] at hfailure
        cases hfailure
    | error cause next =>
        rw [hrun] at hlist
        rw [perform_error hrun]
        intro failure (hfailure : failure ∈ next.failures)
        rw [show next.failures = [cause] from hlist] at hfailure
        obtain rfl := List.mem_singleton.mp hfailure
        rfl
  · exact h

end Output

end AudioMux

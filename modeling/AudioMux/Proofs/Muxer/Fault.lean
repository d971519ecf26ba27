/-
Faults: once a sink has failed, or memory has run out, the muxer is of no
more use, and it stays as it is.

A call can fail for a lack of memory wherever a table or a buffer has to
grow (`Call.requests`). An `Attempt` is a call with the one of these
requests that is refused, if any; so a list of attempts is a run of a
muxer in which the sink and the memory may fail at any point.

Two rules that all actions keep (`Conduct`) carry the result
(`Muxer.faults_stick`). The fault remembered is the first one that was
told (`latching`), and what a sink under watch has reported is what is
remembered (`telling`).
-/
import AudioMux.Proofs.Muxer.Conduct
import AudioMux.Proofs.Sink.Watched
import AudioMux.Sink.SparseFile

namespace AudioMux

open AudioMux.Action (after ending)

-- ================================================================== requests

namespace Track

/-- Refuses a sample that is too large for a file. -/
def acceptSize {σ : Type} (data : Bytes) : Tracking σ Unit := do
  if Box.maxWord32 < data.length then
    throw (.unsupported (.sampleTooLarge data.length))

/-- Writes the open chunk, if a sample of this duration needs a new
one. -/
def makeRoomFor {σ : Type} [Sink σ] (data : Bytes) (duration : UInt32) :
    Tracking σ Unit := do
  acceptSize data
  discard (makeRoom ((← get).1.fixedDuration?.getD duration))

end Track

namespace Muxer

variable {σ : Type}

/-- Refuses a tag that cannot be encoded. -/
def acceptTag (tag : Tag) : Muxing σ Unit := do
  checkConfigurable
  match tag.encode with
  | .error failure => throw failure
  | .ok _ => pure ()

/-- Does something with a track to which samples can be appended. -/
def onWritingTrack (index : Nat) (action : Tracking σ Unit) :
    Muxing σ Unit := do
  checkFault
  if (← get).phase ≠ .writing then
    throw (.unsupported .notWriting)
  onTrack index action

/-- Fails for a lack of memory. -/
def runOut : Muxing σ Unit := fun muxer =>
  .error .outOfMemory
    { muxer with out := Output.latch .outOfMemory muxer.out }

variable [Sink σ]

/-- Starts to close the file: no more samples, and all chunks written. -/
def startClosing : Muxing σ Unit := do
  checkFault
  match (← get).phase with
  | .configuring => throw (.unsupported .neverBegun)
  | .finalized => throw (.unsupported .alreadyFinalized)
  | .writing => pure ()
  modify fun muxer => { muxer with phase := .finalized }
  finishTracks

/-- Goes on to close the file until the media is to be moved. -/
def prepareMove : Muxing σ Unit := do
  startClosing
  addGaplessItem
  writeMediaHeader
  match relocationGap (← get) with
  | .error failure => throw failure
  | .ok _ => pure ()

end Muxer

namespace Call

variable {σ : Type} [Sink σ]

/-- What a call has done when it asks for memory, for each time it may do
so: to copy what a decoder asks for, to enter a sample and a chunk, to
hold the bytes of a sample back, to enter a tag, and to move the
media. -/
def requests : Call → List (Muxing σ Unit)
  | setDecoderInfo index _ => [Muxer.configureTrack index id]
  | addTag tag => [Muxer.acceptTag tag]
  | appendSample index data duration =>
      [Muxer.onWritingTrack index (Track.acceptSize data),
        Muxer.onWritingTrack index (Track.makeRoomFor data duration)]
  | finalize optimize =>
      if optimize then [Muxer.startClosing, Muxer.prepareMove]
      else [Muxer.startClosing]
  | _ => []

end Call

/-- A call, and which of its requests for memory is refused, if any. -/
structure Attempt where
  call : Call
  refused? : Option Nat

namespace Attempt

variable {σ : Type} [Sink σ]

/-- Makes the call as far as memory lasts. -/
def perform (attempt : Attempt) : Muxing σ Unit :=
  match attempt.refused?.bind fun request => attempt.call.requests[request]?
    with
  | some upToRequest => do
    upToRequest
    Muxer.runOut
  | none => attempt.call.perform

/-- With all the memory it asks for an attempt is the call. -/
theorem perform_unrefused (call : Call) :
    perform (σ := σ) ⟨call, none⟩ = call.perform := rfl

end Attempt

/-- Makes attempts, one after the other, whatever comes of each. -/
def Muxer.make {σ : Type} [Sink σ] (muxer : Muxer σ)
    (attempts : List Attempt) : Muxer σ :=
  attempts.foldl (fun muxer attempt => after (attempt.perform muxer)) muxer

-- ===================================================================== rules

section
variable {σ : Type} [Sink σ] (conduct : Conduct σ)

theorem Track.obeys_acceptSize (data : Bytes) :
    Obeys conduct Prod.snd (Track.acceptSize (σ := σ) data) :=
  obeys_ite (obeys_throw rfl) (obeys_pure _)

theorem Track.obeys_makeRoomFor (data : Bytes) (duration : UInt32) :
    Obeys conduct Prod.snd (Track.makeRoomFor (σ := σ) data duration) :=
  obeys_bind (Track.obeys_acceptSize conduct data) fun _ =>
    obeys_bind obeys_get fun _ =>
      obeys_discard (Track.obeys_makeRoom conduct _)

namespace Muxer

theorem obeys_acceptTag (tag : Tag) :
    Obeys conduct Muxer.out (acceptTag (σ := σ) tag) := by
  refine obeys_bind (obeys_checkConfigurable conduct) fun _ => ?_
  cases hencode : tag.encode with
  | error failure =>
      obtain ⟨reason, rfl⟩ := Tag.exists_reason_of_encode hencode
      exact obeys_throw rfl
  | ok stored? => exact obeys_pure _

theorem obeys_onWritingTrack (index : Nat) {action : Tracking σ Unit}
    (h : Obeys conduct Prod.snd action) :
    Obeys conduct Muxer.out (onWritingTrack index action) := by
  refine obeys_bind (obeys_checkFault conduct) fun _ => ?_
  refine obeys_bind obeys_get fun muxer => ?_
  exact obeys_guard (obeys_onTrack conduct index h)

theorem obeys_runOut : Obeys conduct Muxer.out (runOut (σ := σ)) :=
  fun muxer => conduct.starve muxer.out

theorem obeys_startClosing :
    Obeys conduct Muxer.out (startClosing (σ := σ)) :=
  obeys_close conduct (obeys_finishTracks conduct)

theorem obeys_prepareMove :
    Obeys conduct Muxer.out (prepareMove (σ := σ)) := by
  refine obeys_bind (obeys_startClosing conduct) fun _ => ?_
  refine obeys_bind (obeys_addGaplessItem conduct) fun _ => ?_
  refine obeys_bind (obeys_writeMediaHeader conduct) fun _ => ?_
  refine obeys_bind obeys_get fun muxer => ?_
  cases hgap : muxer.relocationGap with
  | error failure =>
      obtain ⟨reason, rfl⟩ := exists_reason_of_relocationGap hgap
      exact obeys_throw rfl
  | ok gap => exact obeys_pure _

end Muxer

theorem Call.obeys_of_mem_requests {call : Call} {request : Muxing σ Unit}
    (h : request ∈ call.requests) : Obeys conduct Muxer.out request := by
  cases call with
  | setDecoderInfo index info =>
      obtain rfl := List.mem_singleton.mp h
      exact Muxer.obeys_configureTrack conduct index id
  | addTag tag =>
      obtain rfl := List.mem_singleton.mp h
      exact Muxer.obeys_acceptTag conduct tag
  | appendSample index data duration =>
      rcases List.mem_cons.mp h with rfl | h
      · exact Muxer.obeys_onWritingTrack conduct index
          (Track.obeys_acceptSize conduct data)
      · obtain rfl := List.mem_singleton.mp h
        exact Muxer.obeys_onWritingTrack conduct index
          (Track.obeys_makeRoomFor conduct data duration)
  | finalize optimize =>
      cases optimize with
      | false =>
          obtain rfl := List.mem_singleton.mp h
          exact Muxer.obeys_startClosing conduct
      | true =>
          rcases List.mem_cons.mp h with rfl | h
          · exact Muxer.obeys_startClosing conduct
          · obtain rfl := List.mem_singleton.mp h
            exact Muxer.obeys_prepareMove conduct
  | addTrack | setChannels | setFixedDuration | setVariableBitrate
  | setPriming | setGapless | beginWriting => cases h

/-- Every attempt keeps to every rule. -/
theorem Attempt.obeys_perform (attempt : Attempt) :
    Obeys conduct Muxer.out (attempt.perform (σ := σ)) := by
  unfold Attempt.perform
  split
  · next request hrequest =>
    obtain ⟨n, _, hget⟩ := Option.bind_eq_some_iff.mp hrequest
    have hmem := List.mem_of_getElem? hget
    exact obeys_bind (Call.obeys_of_mem_requests conduct hmem) fun _ =>
      Muxer.obeys_runOut conduct
  · exact Call.obeys_perform conduct attempt.call

end

-- =================================================================== latching

section
variable {σ : Type} [Sink σ]

/-- What is remembered after an action: the fault from before, or else
that of the failure the action ended with. -/
def Latches (before : Output σ) (end? : Option Failure)
    (later : Output σ) : Prop :=
  later.fault? = before.fault?.or (end?.bind Failure.fault?)

omit [Sink σ] in
theorem latches_perform {α : Type} (operation : EStateM IoFailure σ α)
    (out : Output σ) :
    Latches out (ending (Output.perform operation out))
      (after (Output.perform operation out)) := by
  obtain ⟨sink, _ | fault⟩ := out
  · cases hrun : operation sink with
    | ok a next =>
        rw [Output.perform_ok hrun]
        rfl
    | error failure next =>
        rw [Output.perform_error hrun]
        rfl
  · rfl

/-- The first fault is remembered, and nothing else is. -/
def latching (σ : Type) [Sink σ] : Conduct σ where
  Admits := Latches
  rest out := (Option.or_none).symm
  follow := by
    intro first second third end? hfirst hsecond
    have hsame : second.fault? = first.fault? := by
      rw [show second.fault? = first.fault?.or none from hfirst,
        Option.or_none]
    rw [Latches, ← hsame]
    exact hsecond
  refuse := by
    intro failure out h
    rw [Latches, Option.bind_some, h, Option.or_none]
  starve out := rfl
  position out := latches_perform Sink.position out
  seek target out := latches_perform (Sink.seek target) out
  write bytes out := latches_perform (Sink.writeAll bytes) out
  read count out := latches_perform (Sink.readExact count) out
  flush out := latches_perform Sink.flush out

/-- An output that has told of all failures goes on to do so. -/
def telling (σ : Type) [Sink σ] : Conduct (Watched σ) where
  Admits before _ later := before.Told → later.Told
  rest _ := id
  follow hfirst hsecond h := hsecond (hfirst h)
  refuse _ _ := id
  starve _ h := h.latch .outOfMemory
  position _ := Output.told_perform (Watched.notes_noting _)
  seek _ _ := Output.told_perform (Watched.notes_noting _)
  write _ _ := Output.told_perform (Watched.notes_writeAll _)
  read _ _ := Output.told_perform (Watched.notes_readExact _)
  flush _ := Output.told_perform (Watched.notes_noting _)

end

-- =================================================================== stillness

section
variable {σ : Type} [Sink σ] {muxer : Muxer σ}

/-- After a fault nothing is done up to any request. -/
theorem Call.request_of_fault {call : Call} {request : Muxing σ Unit}
    (hrequest : request ∈ call.requests) (h : muxer.out.fault?.isSome) :
    request muxer = .error .faulted muxer := by
  have hcheck := Call.checkFault_of_fault h
  have hconf := Call.checkConfigurable_of_fault h
  have hclosing : Muxer.startClosing muxer = .error .faulted muxer :=
    Action.apply_bind_error hcheck
  cases call with
  | setDecoderInfo | addTag =>
      obtain rfl := List.mem_singleton.mp hrequest
      exact Action.apply_bind_error hconf
  | appendSample index data duration =>
      rcases List.mem_cons.mp hrequest with rfl | hrequest
      · exact Action.apply_bind_error hcheck
      · obtain rfl := List.mem_singleton.mp hrequest
        exact Action.apply_bind_error hcheck
  | finalize optimize =>
      cases optimize with
      | false =>
          obtain rfl := List.mem_singleton.mp hrequest
          exact hclosing
      | true =>
          rcases List.mem_cons.mp hrequest with rfl | hrequest
          · exact hclosing
          · obtain rfl := List.mem_singleton.mp hrequest
            exact Action.apply_bind_error hclosing
  | addTrack | setChannels | setFixedDuration | setVariableBitrate
  | setPriming | setGapless | beginWriting => cases hrequest

/-- After a fault every attempt is refused and changes nothing. -/
theorem Attempt.perform_of_fault (attempt : Attempt)
    (h : muxer.out.fault?.isSome) :
    attempt.perform muxer = .error .faulted muxer := by
  unfold Attempt.perform
  rcases hrequest : attempt.refused?.bind fun request =>
      attempt.call.requests (σ := σ)[request]? with _ | request
  · exact attempt.call.perform_of_fault h
  · obtain ⟨n, _, hget⟩ := Option.bind_eq_some_iff.mp hrequest
    exact Action.apply_bind_error
      (Call.request_of_fault (List.mem_of_getElem? hget) h)

namespace Muxer

theorem make_append (muxer : Muxer σ) (attempts later : List Attempt) :
    muxer.make (attempts ++ later) = (muxer.make attempts).make later :=
  List.foldl_append

/-- What every attempt keeps, a run keeps. -/
theorem make_induction {P : Muxer σ → Prop} (hstart : P muxer)
    (hstep : ∀ muxer (attempt : Attempt),
      P muxer → P (after (attempt.perform muxer)))
    (attempts : List Attempt) : P (muxer.make attempts) := by
  apply List.foldlRecOn attempts _ hstart
  intro muxer hmuxer attempt _
  exact hstep muxer attempt hmuxer

/-- A fault ends a run. -/
theorem make_of_fault (h : muxer.out.fault?.isSome)
    (attempts : List Attempt) : muxer.make attempts = muxer := by
  refine make_induction (P := (· = muxer)) rfl ?_ attempts
  intro other attempt hother
  subst hother
  rw [attempt.perform_of_fault h]
  rfl

/-- On a sink under watch all failures have been told. -/
theorem told_make {config : MuxerConfig} {now : UInt64} {sink : σ}
    {watched : Muxer (Watched σ)}
    (hcreate : create config now (Watched.ofSink sink) = .ok watched)
    (attempts : List Attempt) : (watched.make attempts).out.Told := by
  have hout : watched.out = .ofSink (Watched.ofSink sink) := by
    unfold create at hcreate
    split at hcreate
    · cases hcreate
    split at hcreate
    · cases hcreate
    · cases hcreate
      rfl
  refine make_induction (P := fun muxer => muxer.out.Told) ?_ ?_ attempts
  · rw [hout]
    exact Output.told_ofSink sink
  · intro muxer attempt htold
    exact attempt.obeys_perform (telling σ) muxer htold

/-- A muxer that can be finalized has no fault, before or after. -/
theorem fault?_of_finalize {optimize : Bool} {final : Muxer σ}
    (h : finalize optimize muxer = .ok () final) :
    final.out.fault? = none := by
  have hlatch := Muxer.obeys_finalize (latching σ) optimize muxer
  rw [h] at hlatch
  have hfault : muxer.out.fault? = none := by
    rcases Option.eq_none_or_eq_some muxer.out.fault? with hnone | ⟨f, hsome⟩
    · exact hnone
    · have hrefused : finalize optimize muxer = .error .faulted muxer :=
        (Call.finalize optimize).perform_of_fault (by rw [hsome]; rfl)
      rw [hrefused] at h
      cases h
  rw [show final.out.fault? = muxer.out.fault?.or none from hlatch, hfault]
  rfl

-- ==================================================================== results

/-- Whatever is attempted with a muxer, and however sink and memory fail on
the way:

* an attempt ends with a failure of the sink or of memory exactly when the
  muxer had no fault before it and has one after it, and it is the fault
  of that failure;
* once there is a fault, every attempt is refused for it, and neither the
  muxer nor its sink changes any more;
* a muxer is only ever finalized on a sink that has not failed once. -/
theorem faults_stick (muxer : Muxer σ) (before : List Attempt) :
    (∀ attempt : Attempt,
      ((∃ failure later,
          attempt.perform (muxer.make before) = .error failure later
            ∧ failure.fault?.isSome)
        ↔ (muxer.make before).out.fault? = none
            ∧ (muxer.make (before ++ [attempt])).out.fault?.isSome)
      ∧ ∀ failure later,
          attempt.perform (muxer.make before) = .error failure later →
          failure.fault?.isSome →
          (muxer.make (before ++ [attempt])).out.fault? = failure.fault?)
    ∧ ((muxer.make before).out.fault?.isSome →
        (∀ attempt : Attempt, attempt.perform (muxer.make before)
            = .error .faulted (muxer.make before))
          ∧ ∀ later, muxer.make (before ++ later) = muxer.make before)
    ∧ ∀ config now (sink : σ) watched,
        create config now (Watched.ofSink sink) = .ok watched →
        ∀ optimize final,
          finalize optimize (watched.make before) = .ok () final →
          final.out.sink.failures = [] := by
  refine ⟨fun attempt => ?_, fun hfault => ⟨?_, ?_⟩, ?_⟩
  · have hnext : muxer.make (before ++ [attempt])
        = after (attempt.perform (muxer.make before)) :=
      make_append muxer before [attempt]
    have hlatch : Latches _ _ _ :=
      attempt.obeys_perform (latching σ) (muxer.make before)
    rw [hnext]
    generalize muxer.make before = here at hlatch ⊢
    rcases Option.eq_none_or_eq_some here.out.fault? with hnone | ⟨f, hsome⟩
    · unfold Latches at hlatch
      rw [hnone, Option.none_or] at hlatch
      rw [hlatch]
      cases attempt.perform here with
      | ok u later => simp [ending]
      | error failure later => simp [ending, hnone]
    · rw [attempt.perform_of_fault (by rw [hsome]; rfl)]
      simp [hsome, Failure.fault?]
  · intro attempt
    exact attempt.perform_of_fault hfault
  · intro later
    rw [make_append]
    exact make_of_fault hfault later
  · intro config now sink watched hcreate optimize final hfinal
    have htold := told_make hcreate (before ++ [⟨.finalize optimize, none⟩])
    have hlast : (watched.make before).make [⟨.finalize optimize, none⟩]
        = final := congrArg after hfinal
    rw [make_append, hlast] at htold
    exact htold.failures_eq_nil (fault?_of_finalize hfinal)

end Muxer

end

/-- A muxer on a disk with room for the file type alone. -/
def crampedMuxer : Muxer SparseFile :=
  { freshMuxer with out := .ofSink { SparseFile.empty with capacity := 24 } }

/-- The disk is full before the media data starts, and the muxer cannot be
finalized any more. -/
theorem faults_stick_crampedMuxer :
    (crampedMuxer.make [⟨.beginWriting, none⟩]).out.fault?
        = some (.io .writeZero)
      ∧ Muxer.finalize false (crampedMuxer.make [⟨.beginWriting, none⟩])
        = .error .faulted (crampedMuxer.make [⟨.beginWriting, none⟩]) := by
  have hfault : (crampedMuxer.make [⟨.beginWriting, none⟩]).out.fault?
      = some (.io .writeZero) := by decide +kernel
  obtain ⟨_, hinert, _⟩ :=
    Muxer.faults_stick crampedMuxer [⟨.beginWriting, none⟩]
  obtain ⟨hrefused, _⟩ := hinert (by rw [hfault]; rfl)
  exact ⟨hfault, hrefused ⟨.finalize false, none⟩⟩

end AudioMux

/-
Sessions: a caller works with a muxer, one call after the other, and
keeps its own account of what it handed in.

The account (`Intake`) is kept from the outside. It only knows which
calls succeeded and what their arguments were, and never looks at the
muxer's tables. What a file must give back is stated in its terms.

A session on a faithful sink that has met no fault is the same session
on a flat file (`image_run`), since every call is mirrored and a fault,
once met, stays (`run_of_fault`). If the sink never fails, the flat file
decides whether there is a fault (`image_run_of_reliable`).
-/
import AudioMux.Proofs.Muxer.Mirror

namespace AudioMux

-- ============================================================ the account

/-- What was handed in for one sample: its data, and the duration that
was in force. -/
structure AccessUnit where
  data : Bytes
  duration : UInt32
  deriving DecidableEq, Repr

/-- What a caller knows of a track: the fixed duration it asked for, if
any, and the units that were accepted, in order. -/
structure Intake where
  fixedDuration? : Option UInt32
  units : List AccessUnit
  deriving DecidableEq, Repr

namespace Intake

/-- A track that nothing was handed in for. -/
def empty : Intake := ⟨none, []⟩

/-- Zero takes a fixed duration back. -/
def fix (duration : UInt32) (intake : Intake) : Intake :=
  { intake with
    fixedDuration? := if duration = 0 then none else some duration }

/-- One more unit. A fixed duration counts for more than its own. -/
def accept (data : Bytes) (duration : UInt32) (intake : Intake) : Intake :=
  { intake with
    units := intake.units ++
      [⟨data, intake.fixedDuration?.getD duration⟩] }

end Intake

-- ================================================================== calls

/-- The calls that can change a muxer, with their arguments. -/
inductive Call where
  | addTrack (codec : Codec) (timescale : UInt32)
  | setChannels (index : Nat) (channels : UInt16)
  | setFixedDuration (index : Nat) (duration : UInt32)
  | setDecoderInfo (index : Nat) (info : Bytes)
  | setVariableBitrate (index : Nat) (varies : Bool)
  | setPriming (index : Nat) (delay padding : UInt32)
  | setGapless (mode : GaplessMode)
  | addTag (tag : Tag)
  | beginWriting
  | appendSample (index : Nat) (data : Bytes) (duration : UInt32)
  | finalize (optimize : Bool)

namespace Call

/-- What a call does to the caller's account once it has succeeded. -/
def record : Call → List Intake → List Intake
  | addTrack _ _, intakes => intakes ++ [.empty]
  | setFixedDuration index duration, intakes =>
      intakes.modify index (·.fix duration)
  | appendSample index data duration, intakes =>
      intakes.modify index (·.accept data duration)
  | _, intakes => intakes

variable {σ : Type} [Sink σ]

/-- The call itself. -/
def perform : Call → Muxing σ Unit
  | addTrack codec timescale => discard (Muxer.addTrack codec timescale)
  | setChannels index channels => Muxer.setChannels index channels
  | setFixedDuration index duration => Muxer.setFixedDuration index duration
  | setDecoderInfo index info => Muxer.setDecoderInfo index info
  | setVariableBitrate index varies => Muxer.setVariableBitrate index varies
  | setPriming index delay padding => Muxer.setPriming index delay padding
  | setGapless mode => Muxer.setGapless mode
  | addTag tag => Muxer.addTag tag
  | beginWriting => Muxer.beginWriting
  | appendSample index data duration =>
      Muxer.appendSample index data duration
  | finalize optimize => Muxer.finalize optimize

theorem mirrors_perform [FaithfulSink σ] (call : Call) :
    Mirrors (S := Muxer σ) id call.perform call.perform := by
  cases call with
  | addTrack codec timescale =>
      exact mirrors_discard (Muxer.mirrors_addTrack codec timescale)
  | setChannels index channels => exact Muxer.mirrors_configureTrack index _
  | setFixedDuration index duration =>
      exact Muxer.mirrors_configureTrack index _
  | setDecoderInfo index info => exact Muxer.mirrors_configureTrack index _
  | setVariableBitrate index varies =>
      exact Muxer.mirrors_configureTrack index _
  | setPriming index delay padding =>
      exact Muxer.mirrors_configureTrack index _
  | setGapless mode => exact Muxer.mirrors_setGapless mode
  | addTag tag => exact Muxer.mirrors_addTag tag
  | beginWriting => exact Muxer.mirrors_beginWriting
  | appendSample index data duration =>
      exact Muxer.mirrors_appendSample index data duration
  | finalize optimize => exact Muxer.mirrors_finalize optimize

omit [Sink σ] in
theorem checkFault_of_fault {muxer : Muxer σ}
    (h : muxer.out.fault?.isSome) :
    Muxer.checkFault muxer = .error .faulted muxer := by
  unfold Muxer.checkFault Muxer.onOutput Output.check
  rw [Action.apply_bind_ok (Action.apply_get _), if_pos h]
  rfl

omit [Sink σ] in
theorem checkConfigurable_of_fault {muxer : Muxer σ}
    (h : muxer.out.fault?.isSome) :
    Muxer.checkConfigurable muxer = .error .faulted muxer :=
  Action.apply_bind_error (checkFault_of_fault h)

/-- After a fault every call is refused and changes nothing. -/
theorem perform_of_fault (call : Call) {muxer : Muxer σ}
    (h : muxer.out.fault?.isSome) :
    call.perform muxer = .error .faulted muxer := by
  have hcheck := checkFault_of_fault h
  have hconf := checkConfigurable_of_fault h
  cases call with
  | addTrack codec timescale =>
      have hadd : Muxer.addTrack codec timescale muxer
          = .error .faulted muxer := Action.apply_bind_error hconf
      exact Action.apply_discard_error hadd
  | setChannels | setFixedDuration | setDecoderInfo | setVariableBitrate
  | setPriming | setGapless | addTag | beginWriting =>
      exact Action.apply_bind_error hconf
  | appendSample | finalize => exact Action.apply_bind_error hcheck

omit [Sink σ] in
theorem checkFault_of_no_fault {muxer : Muxer σ}
    (h : muxer.out.fault? = none) :
    Muxer.checkFault muxer = .ok () muxer := by
  unfold Muxer.checkFault Muxer.onOutput Output.check
  rw [Action.apply_bind_ok (Action.apply_get _),
    if_neg (by rw [h]; decide)]
  rfl

/-- A finalized muxer refuses every call and changes nothing. -/
theorem perform_of_finalized (call : Call) {muxer : Muxer σ}
    (h : muxer.phase = .finalized) :
    ∃ failure, call.perform muxer = .error failure muxer := by
  by_cases hfault : muxer.out.fault?.isSome
  · exact ⟨.faulted, call.perform_of_fault hfault⟩
  have hcheck := checkFault_of_no_fault (by simpa using hfault)
  have hconf : Muxer.checkConfigurable muxer
      = .error (.unsupported .finalized) muxer := by
    unfold Muxer.checkConfigurable
    rw [Action.apply_bind_ok hcheck, Action.apply_bind_ok
      (Action.apply_get _), if_pos h]
    rfl
  cases call with
  | addTrack codec timescale =>
      have hadd : Muxer.addTrack codec timescale muxer
          = .error (.unsupported .finalized) muxer :=
        Action.apply_bind_error hconf
      exact ⟨_, Action.apply_discard_error hadd⟩
  | setChannels | setFixedDuration | setDecoderInfo | setVariableBitrate
  | setPriming | setGapless | addTag | beginWriting =>
      exact ⟨_, Action.apply_bind_error hconf⟩
  | appendSample index data duration =>
      refine ⟨.unsupported .notWriting, ?_⟩
      show Muxer.appendSample index data duration muxer = _
      unfold Muxer.appendSample
      rw [Action.apply_bind_ok hcheck, Action.apply_bind_ok
        (Action.apply_get _), if_pos (by rw [h]; decide)]
      rfl
  | finalize optimize =>
      refine ⟨.unsupported .alreadyFinalized, ?_⟩
      show Muxer.finalize optimize muxer = _
      unfold Muxer.finalize
      rw [Action.apply_bind_ok hcheck, Action.apply_bind_ok
        (Action.apply_get _), h]
      rfl

end Call

-- =============================================================== sessions

/-- A muxer and the caller's account of it, one entry for each track. -/
structure Session (σ : Type) where
  muxer : Muxer σ
  intakes : List Intake

namespace Session

variable {σ : Type}

/-- A session with a muxer that was just created. -/
def opened (muxer : Muxer σ) : Session σ := ⟨muxer, [.empty]⟩

variable [Sink σ]

/-- Makes a call. Only a success goes into the account. -/
def proceed (session : Session σ) (call : Call) : Session σ :=
  match call.perform session.muxer with
  | .ok () muxer => ⟨muxer, call.record session.intakes⟩
  | .error _ muxer => ⟨muxer, session.intakes⟩

/-- Makes calls, one after the other. -/
def run (session : Session σ) (calls : List Call) : Session σ :=
  calls.foldl proceed session

theorem proceed_ok {session : Session σ} (call : Call) {muxer : Muxer σ}
    (h : call.perform session.muxer = .ok () muxer) :
    session.proceed call = ⟨muxer, call.record session.intakes⟩ := by
  unfold proceed
  rw [h]

theorem proceed_error {session : Session σ} (call : Call)
    {failure : Failure} {muxer : Muxer σ}
    (h : call.perform session.muxer = .error failure muxer) :
    session.proceed call = ⟨muxer, session.intakes⟩ := by
  unfold proceed
  rw [h]

/-- What holds at the start and is kept by every call holds after any
calls. -/
theorem run_induction {P : Session σ → Prop} {session : Session σ}
    (hstart : P session)
    (hstep : ∀ (session : Session σ) (call : Call),
      P session → P (session.proceed call))
    (calls : List Call) : P (session.run calls) := by
  apply List.foldlRecOn calls proceed hstart
  intro session hsession call _
  exact hstep session call hsession

-- ================================================================= faults

/-- The session has met a fault of its sink. -/
def Faulted (session : Session σ) : Prop :=
  session.muxer.out.fault?.isSome

theorem proceed_of_fault {session : Session σ} (h : session.Faulted)
    (call : Call) : session.proceed call = session :=
  proceed_error call (call.perform_of_fault h)

/-- A fault ends a session: whatever is called after it, nothing
happens. -/
theorem run_of_fault {session : Session σ} (h : session.Faulted)
    (calls : List Call) : session.run calls = session :=
  run_induction (P := fun other => other = session) rfl
    (fun other call hother => by
      subst hother
      exact proceed_of_fault h call)
    calls

variable [FaithfulSink σ]

/-- The session around the file that its sink stands for. -/
def image (session : Session σ) : Session FlatFile :=
  ⟨session.muxer.image, session.intakes⟩

/-- A call leads to a fault, or to the same session around the flat
file. In the first case, if the sink never fails, the flat file met a
fault as well. -/
theorem image_proceed (session : Session σ) (call : Call) :
    (session.proceed call).image = session.image.proceed call
      ∨ (session.proceed call).Faulted
        ∧ (NeverFails σ → (session.image.proceed call).Faulted) := by
  obtain ⟨hok, herr⟩ := call.mirrors_perform session.muxer
  cases h : call.perform session.muxer with
  | ok u muxer =>
      have hfile : session.image.proceed call
          = ⟨muxer.image, call.record session.intakes⟩ :=
        proceed_ok call (hok u muxer h)
      rw [proceed_ok call h, hfile]
      exact Or.inl rfl
  | error failure muxer =>
      rw [proceed_error call h]
      rcases herr failure muxer h with hsame | ⟨hfault, hboth⟩
      · have hfile : session.image.proceed call
            = ⟨muxer.image, session.intakes⟩ := proceed_error call hsame
        rw [hfile]
        exact Or.inl rfl
      · refine Or.inr ⟨hfault, fun hrel => ?_⟩
        obtain ⟨failure', muxer', himage, hfault'⟩ := hboth hrel
        have hfile : session.image.proceed call
            = ⟨muxer', session.intakes⟩ := proceed_error call himage
        rw [hfile]
        exact hfault'

/-- The same for any number of calls. -/
theorem image_run_or (session : Session σ) (calls : List Call) :
    (session.run calls).image = session.image.run calls
      ∨ (session.run calls).Faulted
        ∧ (NeverFails σ → (session.image.run calls).Faulted) := by
  induction calls generalizing session with
  | nil => exact Or.inl rfl
  | cons call calls ih =>
      show ((session.proceed call).run calls).image
          = (session.image.proceed call).run calls
        ∨ ((session.proceed call).run calls).Faulted
          ∧ (NeverFails σ →
            ((session.image.proceed call).run calls).Faulted)
      rcases image_proceed session call with hsame | ⟨hfault, hboth⟩
      · rw [← hsame]
        exact ih (session.proceed call)
      · refine Or.inr ⟨?_, fun hrel => ?_⟩
        · rw [run_of_fault hfault]
          exact hfault
        · rw [run_of_fault (hboth hrel)]
          exact hboth hrel

/-- Without a fault the flat file shows what happened. -/
theorem image_run {session : Session σ} {calls : List Call}
    (h : ¬ (session.run calls).Faulted) :
    (session.run calls).image = session.image.run calls := by
  rcases image_run_or session calls with hsame | ⟨hfault, _⟩
  · exact hsame
  · exact absurd hfault h

/-- A sink that never fails shows what happens on the flat file. -/
theorem image_run_of_reliable [NeverFails σ] (session : Session σ)
    {calls : List Call} (h : ¬ (session.image.run calls).Faulted) :
    (session.run calls).image = session.image.run calls := by
  rcases image_run_or session calls with hsame | ⟨_, hboth⟩
  · exact hsame
  · exact absurd (hboth inferInstance) h

end Session

-- ======================================================== a short session

/-- A muxer as it is created for AAC on an empty file. -/
def freshMuxer : Muxer FlatFile where
  out := .ofSink .empty
  timescale := 44100
  creationTime := 0
  modificationTime := 0
  gapless := .legacy
  headerEnd := 0
  mediaStart := 0
  mediaSize := 0
  tracks := [.new .aac 44100]
  metadata := .empty
  phase := .configuring

theorem create_default :
    Muxer.create .default 0 .empty = .ok freshMuxer := rfl

/-- Calls for two tracks: one call is refused, samples are empty or not,
and the first track fills more than a chunk. -/
def shortSession : List Call :=
  [.appendSample 0 [9] 1, .addTrack .text 1000, .setFixedDuration 1 700,
    .beginWriting, .appendSample 0 [1, 2, 3] 22000, .appendSample 1 [] 5,
    .appendSample 0 [] 1024, .appendSample 1 [4, 5] 5,
    .appendSample 0 [6] 1024]

theorem writing_shortSession :
    ((Session.opened freshMuxer).run shortSession).muxer.phase
      = .writing := by decide +kernel

theorem not_faulted_shortSession :
    ¬ ((Session.opened freshMuxer).run shortSession).Faulted := by
  unfold Session.Faulted
  decide +kernel

/-- The short session can be finalized either way. -/
theorem finalize_shortSession (optimize : Bool) :
    ∃ final, Muxer.finalize optimize
        ((Session.opened freshMuxer).run shortSession).muxer
          = .ok () final
      ∧ final.out.sink.bytes.length < 2 ^ 32 := by
  have hsmall : (match Muxer.finalize optimize
        ((Session.opened freshMuxer).run shortSession).muxer with
      | .ok _ final => decide (final.out.sink.bytes.length < 2 ^ 32)
      | .error _ _ => false) = true := by
    cases optimize with
    | false => decide +kernel
    | true => decide +kernel
  split at hsmall
  · next final hfinal => exact ⟨final, hfinal, of_decide_eq_true hsmall⟩
  · cases hsmall

end AudioMux

/-
The life of a muxer: which of a caller's calls succeed, told from the
calls before them alone.

A muxer begins to write with the first call that asks for it, and is over
with the first call after that to close the file. Tracks are added before
it begins. The muxer agrees with this account after any calls (`Stands`):
a call that the account allows succeeds and brings both a step further,
and any other call is refused, which leaves the muxer where it is and the
account as it was.

Hence calls that are refused can be left out of a session, and nothing
else is different (`replies_kept`).
-/
import AudioMux.Proofs.Muxer.Permits
import Mathlib.Data.List.Induction
import Mathlib.Data.List.TakeWhile

namespace AudioMux

-- =============================================================== histories

namespace Call

/-- A call to add a track, with arguments that make sense. -/
def addsTrack : Call → Bool
  | addTrack _ timescale => timescale ≠ 0
  | _ => false

/-- A call to begin writing. -/
def begins : Call → Bool
  | beginWriting => true
  | _ => false

/-- Writing has begun. -/
def Begun (before : List Call) : Prop := .beginWriting ∈ before

/-- Closing the file was asked for after writing had begun. -/
def Ended (before : List Call) : Prop :=
  ∃ early optimize, early ++ [.finalize optimize] <+: before ∧ Begun early

/-- How many tracks there are: the first one, and as many of those that
were added before writing began as a file can have. -/
def trackCount (before : List Call) : Nat :=
  min maxTracks
    (1 + (before.takeWhile fun call => ! call.begins).countP addsTrack)

/-- What a call needs: to come at the right time, to name a track that
exists, and arguments that make sense. -/
def Allowed (before : List Call) : Call → Prop
  | addTrack _ timescale =>
      ¬ Begun before ∧ trackCount before < maxTracks ∧ timescale ≠ 0
  | setChannels index _ | setFixedDuration index _ | setDecoderInfo index _
  | setVariableBitrate index _ | setPriming index _ _ =>
      ¬ Ended before ∧ index < trackCount before
  | setGapless _ => ¬ Ended before
  | addTag tag => ¬ Ended before ∧ ∃ stored?, tag.encode = .ok stored?
  | beginWriting => ¬ Begun before
  | appendSample index data _ => Begun before ∧ ¬ Ended before
      ∧ index < trackCount before ∧ data.length < 2 ^ 32
  | finalize _ => Begun before ∧ ¬ Ended before

variable {before : List Call} {call : Call}

theorem begun_snoc : Begun (before ++ [call])
    ↔ Begun before ∨ call = .beginWriting := by
  unfold Begun
  rw [List.mem_append, List.mem_singleton, eq_comm (a := call)]

theorem ended_snoc : Ended (before ++ [call])
    ↔ Ended before ∨ Begun before ∧ ∃ optimize, call = .finalize optimize := by
  constructor
  · rintro ⟨early, optimize, hprefix, hbegun⟩
    rcases List.prefix_concat_iff.mp hprefix with heq | hprefix
    · obtain ⟨rfl, hcall⟩ := List.append_inj' heq rfl
      exact .inr ⟨hbegun, optimize, (List.singleton_inj.mp hcall).symm⟩
    · exact .inl ⟨early, optimize, hprefix, hbegun⟩
  · rintro (⟨early, optimize, hprefix, hbegun⟩ | ⟨hbegun, optimize, rfl⟩)
    · exact ⟨early, optimize, hprefix.trans (List.prefix_append _ _), hbegun⟩
    · exact ⟨before, optimize, List.prefix_rfl, hbegun⟩

theorem Ended.begun (h : Ended before) : Begun before := by
  obtain ⟨early, optimize, hprefix, hbegun⟩ := h
  exact hprefix.subset (List.mem_append_left _ hbegun)

theorem trackCount_le (before : List Call) :
    trackCount before ≤ maxTracks := Nat.min_le_left _ _

/-- No tracks are added once writing has begun. -/
theorem trackCount_snoc_of_begun (h : Begun before) :
    trackCount (before ++ [call]) = trackCount before := by
  unfold trackCount
  rw [List.takeWhile_append, if_neg]
  intro hlength
  have hall : before.takeWhile (fun call => ! call.begins) = before :=
    (List.takeWhile_prefix _).eq_of_length hlength
  have hbegins := List.takeWhile_eq_self_iff.mp hall _ h
  cases hbegins

theorem trackCount_snoc_of_not_begun (h : ¬ Begun before) :
    trackCount (before ++ [call]) = min maxTracks
      (trackCount before + if call.addsTrack then 1 else 0) := by
  have hall : before.takeWhile (fun call => ! call.begins) = before := by
    rw [List.takeWhile_eq_self_iff]
    intro call hcall
    cases call with
    | beginWriting => exact absurd hcall h
    | addTrack | setChannels | setFixedDuration | setDecoderInfo
    | setVariableBitrate | setPriming | setGapless | addTag | appendSample
    | finalize => rfl
  have hlast : ([call].takeWhile fun call => ! call.begins).countP addsTrack
      = if call.addsTrack then 1 else 0 := by
    cases call with
    | addTrack codec timescale =>
        exact List.countP_singleton
    | beginWriting | setChannels | setFixedDuration | setDecoderInfo
    | setVariableBitrate | setPriming | setGapless | addTag | appendSample
    | finalize => rfl
  unfold trackCount
  rw [List.takeWhile_append, if_pos (by rw [hall]), List.countP_append,
    hlast, hall]
  omega

/-- A call that adds no track does not count. -/
theorem trackCount_snoc_of_not_adds (h : call.addsTrack = false) :
    trackCount (before ++ [call]) = trackCount before := by
  by_cases hbegun : Begun before
  · exact trackCount_snoc_of_begun hbegun
  · have hle := trackCount_le before
    rw [trackCount_snoc_of_not_begun hbegun, h, if_neg (by decide)]
    omega

-- A call that is not allowed leaves the account as it was.

theorem begun_snoc_of_not_allowed (h : ¬ call.Allowed before) :
    Begun (before ++ [call]) ↔ Begun before := by
  rw [begun_snoc, or_iff_left_of_imp]
  rintro rfl
  exact not_not.mp h

theorem ended_snoc_of_not_allowed (h : ¬ call.Allowed before) :
    Ended (before ++ [call]) ↔ Ended before := by
  rw [ended_snoc, or_iff_left_of_imp]
  rintro ⟨hbegun, optimize, rfl⟩
  by_contra hended
  exact h ⟨hbegun, hended⟩

theorem trackCount_snoc_of_not_allowed (h : ¬ call.Allowed before) :
    trackCount (before ++ [call]) = trackCount before := by
  by_cases hbegun : Begun before
  · exact trackCount_snoc_of_begun hbegun
  by_cases hadds : call.addsTrack = true
  · have hfull : maxTracks ≤ trackCount before := by
      cases call with
      | addTrack codec timescale =>
          have hscale : timescale ≠ 0 := of_decide_eq_true hadds
          by_contra hfew
          exact h ⟨hbegun, Nat.lt_of_not_le hfew, hscale⟩
      | beginWriting | setChannels | setFixedDuration | setDecoderInfo
      | setVariableBitrate | setPriming | setGapless | addTag
      | appendSample | finalize => cases hadds
    have hle := trackCount_le before
    rw [trackCount_snoc_of_not_begun hbegun]
    omega
  · exact trackCount_snoc_of_not_adds (Bool.eq_false_iff.mpr hadds)

end Call

-- ============================================================ where it stands

open Call

/-- A muxer that is where these calls have to bring it. -/
structure Stands {σ : Type} (before : List Call) (muxer : Muxer σ) :
    Prop where
  fault : muxer.out.fault? = none
  configuring : muxer.phase = .configuring ↔ ¬ Begun before
  finalized : muxer.phase = .finalized ↔ Ended before
  tracks : ¬ Ended before → muxer.tracks.length = trackCount before

namespace Stands

variable {σ : Type} {before : List Call} {call : Call} {muxer : Muxer σ}

theorem writing (h : Stands before muxer) :
    muxer.phase = .writing ↔ Begun before ∧ ¬ Ended before := by
  rw [← not_not (a := Begun before), ← h.configuring, ← h.finalized]
  cases muxer.phase with
  | configuring | writing | finalized => decide

/-- The muxer permits what the account allows. -/
theorem permitted_iff (h : Stands before muxer) (call : Call) :
    call.Permitted muxer ↔ call.Allowed before := by
  have hopen : muxer.phase ≠ .finalized ↔ ¬ Ended before :=
    not_congr h.finalized
  have hindex : ∀ index, muxer.phase ≠ .finalized
      ∧ index < muxer.tracks.length
        ↔ ¬ Ended before ∧ index < trackCount before := by
    intro index
    rw [hopen]
    exact and_congr_right fun hended => by rw [h.tracks hended]
  cases call with
  | addTrack codec timescale =>
      have hnotEnded : ¬ Begun before → ¬ Ended before :=
        fun hbegun hended => hbegun hended.begun
      unfold Permitted Allowed
      rw [h.configuring]
      exact and_congr_right fun hbegun => by rw [h.tracks (hnotEnded hbegun)]
  | setChannels index | setFixedDuration index | setDecoderInfo index
  | setVariableBitrate index | setPriming index => exact hindex index
  | setGapless => exact hopen
  | addTag => exact and_congr_left' hopen
  | beginWriting => exact h.configuring
  | appendSample index data duration =>
      show muxer.phase = .writing ∧ _ ↔ Begun before ∧ ¬ Ended before ∧ _
      rw [h.writing, and_assoc]
      exact and_congr_right fun _ => and_congr_right fun hended => by
        rw [h.tracks hended]
  | finalize => exact h.writing

/-- A call that is refused brings a muxer nowhere. -/
theorem refused (h : Stands before muxer) (hcall : ¬ call.Allowed before) :
    Stands (before ++ [call]) muxer where
  fault := h.fault
  configuring := by
    rw [begun_snoc_of_not_allowed hcall]
    exact h.configuring
  finalized := by
    rw [ended_snoc_of_not_allowed hcall]
    exact h.finalized
  tracks := by
    rw [ended_snoc_of_not_allowed hcall, trackCount_snoc_of_not_allowed hcall]
    exact h.tracks

/-- A call that succeeded before the file is closed. -/
theorem accepted (h : Stands before muxer)
    (hcall : ∀ optimize, call ≠ .finalize optimize)
    (hallowed : call.Allowed before) {next : Muxer σ}
    (hfault : next.out.fault? = none)
    (hphase : next.phase = call.phaseAfter muxer.phase)
    (htracks : next.tracks.length = call.tracksAfter muxer.tracks.length) :
    Stands (before ++ [call]) next := by
  have hended : Ended (before ++ [call]) ↔ Ended before := by
    rw [ended_snoc, or_iff_left_of_imp]
    rintro ⟨_, optimize, hfinal⟩
    exact absurd hfinal (hcall optimize)
  cases call with
  | beginWriting =>
      have hbegun : ¬ Begun before := hallowed
      refine ⟨hfault, ?_, ?_, ?_⟩
      · rw [hphase, begun_snoc]
        exact iff_of_false nofun fun hno => hno (.inr rfl)
      · rw [hphase, hended]
        exact iff_of_false nofun fun hended => hbegun hended.begun
      · rw [htracks, hended, trackCount_snoc_of_not_adds rfl]
        exact h.tracks
  | addTrack codec timescale =>
      obtain ⟨hbegun, hfew, hscale⟩ := hallowed
      have hadds : (addTrack codec timescale).addsTrack = true :=
        decide_eq_true hscale
      refine ⟨hfault, ?_, ?_, fun _ => ?_⟩
      · rw [hphase, begun_snoc, or_iff_left nofun]
        exact h.configuring
      · rw [hphase, hended]
        exact h.finalized
      · rw [htracks, trackCount_snoc_of_not_begun hbegun, hadds, if_pos rfl,
          ← h.tracks fun hended => hbegun hended.begun]
        have hlength := h.tracks fun hended => hbegun hended.begun
        show muxer.tracks.length + 1 = _
        omega
  | finalize optimize => exact absurd rfl (hcall optimize)
  | setChannels | setFixedDuration | setDecoderInfo | setVariableBitrate
  | setPriming | setGapless | addTag | appendSample =>
      refine ⟨hfault, ?_, ?_, ?_⟩
      · rw [hphase, begun_snoc, or_iff_left nofun]
        exact h.configuring
      · rw [hphase, hended]
        exact h.finalized
      · rw [htracks, hended, trackCount_snoc_of_not_adds rfl]
        exact h.tracks

/-- A muxer that was asked to close the file, whatever came of that. -/
theorem closed {optimize : Bool} (hbegun : Begun before)
    (hfault : muxer.out.fault? = none) (hphase : muxer.phase = .finalized) :
    Stands (before ++ [.finalize optimize]) muxer := by
  have hended : Ended (before ++ [.finalize optimize]) :=
    ended_snoc.mpr (.inr ⟨hbegun, optimize, rfl⟩)
  refine ⟨hfault, ?_, ?_, fun hnot => absurd hended hnot⟩
  · rw [hphase]
    exact iff_of_false nofun fun hno => hno hended.begun
  · rw [hphase]
    exact iff_of_true rfl hended

end Stands

theorem stands_created {σ : Type} {config : MuxerConfig} {now : UInt64}
    {sink : σ} {muxer : Muxer σ}
    (h : Muxer.create config now sink = .ok muxer) : Stands [] muxer := by
  have hended : ¬ Ended [] := by
    rintro ⟨early, optimize, hprefix, hbegun⟩
    cases List.append_eq_nil_iff.mp (List.prefix_nil.mp hprefix) with
    | intro _ hcons => cases hcons
  unfold Muxer.create at h
  split at h
  · cases h
  split at h
  · cases h
  · cases h
    exact ⟨rfl, iff_of_true rfl List.not_mem_nil,
      iff_of_false nofun hended, fun _ => rfl⟩

namespace Session

section
variable {σ : Type} [Sink σ]

theorem run_snoc (session : Session σ) (before : List Call) (call : Call) :
    session.run (before ++ [call]) = (session.run before).proceed call :=
  List.foldl_concat proceed session call before

end

section
variable {session : Session FlatFile}

/-- Who can make a call that is permitted has not closed the file. -/
theorem InOrder.active_of_permitted (h : session.InOrder) {call : Call}
    (hpermitted : call.Permitted session.muxer) : session.Active := by
  cases h with
  | active h => exact h
  | finalized hphase =>
      unfold Permitted at hpermitted
      rw [hphase] at hpermitted
      cases call with
      | addTrack | appendSample => cases hpermitted.1
      | setChannels | setFixedDuration | setDecoderInfo
      | setVariableBitrate | setPriming | addTag =>
          exact absurd rfl hpermitted.1
      | setGapless => exact absurd rfl hpermitted
      | beginWriting | finalize => cases hpermitted

theorem Active.recording_of_writing (h : session.Active)
    (hphase : session.muxer.phase = .writing) :
    ∃ ledger blocks, session.Recording ledger blocks := by
  cases h with
  | configuring ledger h => cases h.phase.symm.trans hphase
  | recording ledger blocks h => exact ⟨ledger, blocks, h⟩

/-- On a flat file a muxer stands where its calls have to bring it. -/
theorem stands_run {config : MuxerConfig} {now : UInt64}
    {muxer : Muxer FlatFile}
    (hcreate : Muxer.create config now .empty = .ok muxer)
    (calls : List Call) : Stands calls ((opened muxer).run calls).muxer := by
  induction calls using List.reverseRecOn with
  | nil => exact stands_created hcreate
  | append_singleton before call ih =>
      have horder := inOrder_run hcreate before
      have hfault := not_faulted_run hcreate (before ++ [call])
      rw [run_snoc] at hfault ⊢
      generalize (opened muxer).run before = session at *
      have hfault :
          (session.proceed call).muxer.out.fault? = none := by
        simpa [Faulted] using hfault
      by_cases hallowed : call.Allowed before
      · have hpermitted := (ih.permitted_iff call).mpr hallowed
        have hactive := horder.active_of_permitted hpermitted
        by_cases hcall : ∃ optimize, call = .finalize optimize
        · obtain ⟨optimize, rfl⟩ := hcall
          obtain ⟨ledger, blocks, h⟩ :=
            hactive.recording_of_writing hpermitted
          exact .closed hallowed.1 hfault (h.phase_proceed_finalize optimize)
        · have hcall : ∀ optimize, call ≠ .finalize optimize :=
            fun optimize heq => hcall ⟨optimize, heq⟩
          obtain ⟨next, hok, hphase, htracks⟩ :=
            hactive.accepts hcall hpermitted
          rw [proceed_ok call hok] at hfault ⊢
          exact ih.accepted hcall hallowed hfault hphase htracks
      · have hnot : ¬ call.Permitted session.muxer := fun hpermitted =>
          hallowed ((ih.permitted_iff call).mp hpermitted)
        obtain ⟨reason, herror⟩ := Call.refused ih.fault hnot
        rw [proceed_error call herror]
        exact ih.refused hallowed

/-- A call that is permitted succeeds, if it does not close the file with
a movie box that is too large. -/
theorem InOrder.accepts (h : session.InOrder) {call : Call}
    (hpermitted : call.Permitted session.muxer)
    (hmovie : ∀ optimize movie closing, call = .finalize optimize →
      Muxer.closingMovie optimize session.muxer = .ok movie closing →
      (Box.encode movie).length < 2 ^ 32) :
    ∃ next, call.perform session.muxer = .ok () next := by
  have hactive := h.active_of_permitted hpermitted
  by_cases hcall : ∃ optimize, call = .finalize optimize
  · obtain ⟨optimize, rfl⟩ := hcall
    obtain ⟨ledger, blocks, h⟩ := hactive.recording_of_writing hpermitted
    obtain ⟨movie, closing, hclosing, hfits⟩ := h.accepts_finalize optimize
    exact hfits (hmovie optimize movie closing rfl hclosing)
  · obtain ⟨next, hok, _⟩ := hactive.accepts
      (fun optimize heq => hcall ⟨optimize, heq⟩) hpermitted
    exact ⟨next, hok⟩

end

end Session

-- ================================================================== any sink

section
variable {σ : Type} [Sink σ] [FaithfulSink σ]

namespace Muxer

theorem mirrors_startClosing :
    Mirrors (S := Muxer σ) id startClosing startClosing :=
  mirrors_close mirrors_finishTracks

theorem mirrors_closingMovie (optimize : Bool) :
    Mirrors (S := Muxer σ) id (closingMovie optimize)
      (closingMovie optimize) := by
  refine mirrors_bind mirrors_startClosing fun _ => ?_
  refine mirrors_bind mirrors_addGaplessItem fun _ => ?_
  refine mirrors_bind mirrors_writeMediaHeader fun _ => ?_
  refine mirrors_get_bind fun muxer => mirrors_pure ?_
  have hgap : (Mirrored.image muxer).relocationGap = muxer.relocationGap :=
    relocationGap_image muxer
  rw [hgap]
  rfl

end Muxer

theorem Stands.of_image {before : List Call} {muxer : Muxer σ}
    (h : Stands before muxer.image) : Stands before muxer :=
  ⟨h.fault, h.configuring, h.finalized, h.tracks⟩

namespace Session

variable [NeverFails σ]

/-- What is permitted succeeds on every sink that never fails. -/
theorem accepts_of_image {session : Session σ}
    (h : session.image.InOrder) {call : Call}
    (hpermitted : call.Permitted session.muxer)
    (hmovie : ∀ optimize movie closing, call = .finalize optimize →
      Muxer.closingMovie optimize session.muxer = .ok movie closing →
      (Box.encode movie).length < 2 ^ 32) :
    ∃ next, call.perform session.muxer = .ok () next := by
  have hflat : call.Permitted session.image.muxer := by
    cases call with
    | addTrack | setChannels | setFixedDuration | setDecoderInfo
    | setVariableBitrate | setPriming | setGapless | addTag | beginWriting
    | appendSample | finalize => exact hpermitted
  obtain ⟨next, hok⟩ := h.accepts hflat fun optimize movie closing hcall
      hclosing => by
    obtain ⟨_, closing', hclosing', rfl, _⟩ :=
      (Muxer.mirrors_closingMovie optimize).exists_ok inferInstance hclosing
    exact hmovie optimize _ closing' hcall hclosing'
  obtain ⟨_, next', hok', _⟩ :=
    call.mirrors_perform.exists_ok inferInstance hok
  exact ⟨next', hok'⟩

variable {config : MuxerConfig} {now : UInt64} {sink : σ} {muxer : Muxer σ}
  (hfresh : FaithfulSink.view sink = .empty)
  (hcreate : Muxer.create config now sink = .ok muxer)

include hfresh hcreate

/-- Whatever was called on a fresh sink, the muxer stands where it has to,
and its books are in order. -/
theorem stands_of_create (before : List Call) :
    Stands before ((opened muxer).run before).muxer
      ∧ ((opened muxer).run before).image.InOrder := by
  have hflat := Muxer.create_image hcreate
  rw [hfresh] at hflat
  have hstands := stands_run hflat before
  have horder := inOrder_run hflat before
  rw [← image_run_of_create hfresh hcreate before] at hstands horder
  exact ⟨.of_image hstands, horder⟩

/-- A call that is allowed succeeds, if it does not close the file with a
movie box that is too large. -/
theorem exists_ok_of_allowed {before : List Call} {call : Call}
    (hallowed : call.Allowed before)
    (hmovie : ∀ optimize movie closing, call = .finalize optimize →
      Muxer.closingMovie optimize ((opened muxer).run before).muxer
        = .ok movie closing →
      (Box.encode movie).length < 2 ^ 32) :
    ∃ next, call.perform ((opened muxer).run before).muxer
      = .ok () next := by
  obtain ⟨hstands, horder⟩ := stands_of_create hfresh hcreate before
  exact accepts_of_image horder
    ((hstands.permitted_iff call).mpr hallowed) hmovie

end Session

end

-- =================================================================== replies

namespace Session

variable {σ : Type} [Sink σ]

/-- Calls, each with what comes back from it. -/
def replies (session : Session σ) :
    List Call → List (Call × Except Failure (Option Nat))
  | [] => []
  | call :: calls =>
      (call, Action.outcome (call.answer session.muxer))
        :: (session.proceed call).replies calls

/-- The calls that succeeded, with what came back from them. -/
def kept (session : Session σ) (calls : List Call) :
    List (Call × Except Failure (Option Nat)) :=
  (session.replies calls).filter fun reply => reply.2.isOk

theorem proceed_of_refused {session : Session σ} {call : Call}
    {failure : Failure}
    (h : call.answer session.muxer = .error failure session.muxer) :
    session.proceed call = session := by
  cases hrun : call.perform session.muxer with
  | ok u next =>
      obtain ⟨answer, hok⟩ := answer_of_ok hrun
      cases h.symm.trans hok
  | error failure' next =>
      cases h.symm.trans (answer_of_error hrun)
      exact proceed_error call hrun

/-- Where every failure leaves the muxer as it was, the calls that fail can
be left out. -/
theorem replies_kept {session : Session σ} {calls : List Call}
    (h : ∀ before call, before ++ [call] <+: calls → ∀ failure next,
      call.answer (session.run before).muxer = .error failure next →
      next = (session.run before).muxer) :
    session.replies ((session.kept calls).map Prod.fst)
        = session.kept calls
      ∧ session.run ((session.kept calls).map Prod.fst)
        = session.run calls := by
  induction calls generalizing session with
  | nil => exact ⟨rfl, rfl⟩
  | cons call calls ih =>
      obtain ⟨hreplies, hrun⟩ := @ih (session.proceed call)
        fun before later hprefix =>
          h (call :: before) later (List.cons_prefix_cons.mpr ⟨rfl, hprefix⟩)
      cases hanswer : call.answer session.muxer with
      | ok answer next =>
          have hkept : session.kept (call :: calls) = (call, .ok answer)
              :: (session.proceed call).kept calls := by
            unfold kept
            rw [replies, hanswer]
            rfl
          rw [hkept]
          refine ⟨?_, hrun⟩
          show (call, Action.outcome (call.answer session.muxer))
            :: (session.proceed call).replies _ = _
          rw [hanswer, hreplies]
          rfl
      | error failure next =>
          have hsame : next = session.muxer :=
            h [] call (List.prefix_append [call] calls) failure next hanswer
          rw [hsame] at hanswer
          have hkept : session.kept (call :: calls)
              = (session.proceed call).kept calls := by
            unfold kept
            rw [replies, hanswer]
            rfl
          have hproceed := proceed_of_refused hanswer
          rw [hkept]
          rw [hproceed] at hreplies hrun ⊢
          refine ⟨hreplies, hrun.trans ?_⟩
          show session.run calls = (session.proceed call).run calls
          rw [hproceed]

-- =================================================================== results

/-- Calls on a muxer for a fresh sink that never fails, all of whose movie
boxes are below 2 ^ 32 bytes. A call succeeds exactly if it is allowed
after the calls before it. Any other call is refused as not supported and
changes nothing. So the calls that succeed give back the same without
those that are refused, and lead to the same muxer and the same file. -/
theorem lifecycle [FaithfulSink σ] [NeverFails σ] {config : MuxerConfig}
    {now : UInt64} {sink : σ} {muxer : Muxer σ} {calls : List Call}
    (hfresh : FaithfulSink.view sink = .empty)
    (hcreate : Muxer.create config now sink = .ok muxer)
    (hmovie : ∀ before optimize,
      before ++ [.finalize optimize] <+: calls → ∀ movie closing,
      Muxer.closingMovie optimize ((opened muxer).run before).muxer
        = .ok movie closing →
      (Box.encode movie).length < 2 ^ 32) :
    (∀ before call, before ++ [call] <+: calls →
      (call.Allowed before →
        ∃ answer next,
          call.answer ((opened muxer).run before).muxer = .ok answer next)
      ∧ (¬ call.Allowed before →
        ∃ reason, call.answer ((opened muxer).run before).muxer
          = .error (.unsupported reason) ((opened muxer).run before).muxer))
    ∧ (opened muxer).replies (((opened muxer).kept calls).map Prod.fst)
      = (opened muxer).kept calls
    ∧ (opened muxer).run (((opened muxer).kept calls).map Prod.fst)
      = (opened muxer).run calls := by
  have hcalls : ∀ before call, before ++ [call] <+: calls →
      (call.Allowed before →
        ∃ answer next,
          call.answer ((opened muxer).run before).muxer = .ok answer next)
      ∧ (¬ call.Allowed before →
        ∃ reason, call.answer ((opened muxer).run before).muxer
          = .error (.unsupported reason)
            ((opened muxer).run before).muxer) := by
    intro before call hprefix
    refine ⟨fun hallowed => ?_, fun hnot => ?_⟩
    · obtain ⟨next, hok⟩ := exists_ok_of_allowed hfresh hcreate hallowed
        fun optimize movie closing hcall hclosing => by
          subst hcall
          exact hmovie before optimize hprefix movie closing hclosing
      obtain ⟨answer, hanswer⟩ := answer_of_ok hok
      exact ⟨answer, next, hanswer⟩
    · obtain ⟨hstands, _⟩ := stands_of_create hfresh hcreate before
      obtain ⟨reason, herror⟩ := Call.refused hstands.fault
        fun hpermitted => hnot ((hstands.permitted_iff call).mp hpermitted)
      exact ⟨reason, answer_of_error herror⟩
  refine ⟨hcalls, replies_kept fun before call hprefix failure next h => ?_⟩
  obtain ⟨haccept, hrefuse⟩ := hcalls before call hprefix
  by_cases hallowed : call.Allowed before
  · obtain ⟨answer, next', hok⟩ := haccept hallowed
    cases h.symm.trans hok
  · obtain ⟨reason, herror⟩ := hrefuse hallowed
    cases h.symm.trans herror
    rfl

end Session

/-- The short session can be closed, and its first call is refused. -/
theorem lifecycle_shortSession :
    (∃ answer next, (Call.finalize true).answer
        ((Session.opened freshMuxer).run shortSession).muxer
          = .ok answer next)
      ∧ ∃ reason, (Call.appendSample 0 [9] 1).answer freshMuxer
        = .error (.unsupported reason) freshMuxer := by
  obtain ⟨hcalls, _⟩ := Session.lifecycle
    (rfl : FaithfulSink.view FlatFile.empty = .empty) create_default
      fun _ _ => closingMovie_shortSession
  have hended : ¬ Ended shortSession := by
    rintro ⟨early, optimize, hprefix, _⟩
    have hmem := hprefix.subset
      (List.mem_append_right early (List.mem_singleton_self _))
    simp [shortSession] at hmem
  have hbegun : Begun shortSession := by simp [Begun, shortSession]
  refine ⟨(hcalls shortSession _ List.prefix_rfl).1 ⟨hbegun, hended⟩, ?_⟩
  exact (hcalls [] (.appendSample 0 [9] 1) ⟨_, rfl⟩).2 fun hallowed =>
    List.not_mem_nil hallowed.1

end AudioMux

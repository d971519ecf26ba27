/-
The tracks of a file do not disturb each other.

All tracks share one file, one cursor and one count of the media, and a
chunk of one track may be written between two samples of another. Yet
what becomes of a track depends on its own samples alone, except for where
its chunks lie: a sample changes its own track and no other
(`Recording.proceed_append`), so it is the samples of each track, in order,
that decide, however those of different tracks are mixed
(`Recording.run_appends`, `foldl_modify_of_sameForEach`).

So two files into which the same samples were mixed in different ways have
the same tables but for the chunk offsets, and a reader gets the same
samples from both (`tracks_undisturbed`). When the two muxers were created
does not matter either (`Active.run_dated`).
-/
import AudioMux.Proofs.Muxer.Places
import AudioMux.Proofs.Muxer.Script

namespace AudioMux

open Box

-- ================================================================= samples

/-- A sample that is handed in for a track. -/
structure Append where
  index : Nat
  data : Bytes
  duration : UInt32

namespace Append

def call (append : Append) : Call :=
  .appendSample append.index append.data append.duration

/-- What a track comes to that the sample is handed in for. A sample that
is too large is refused. -/
def onTrack (append : Append) (track : Track) : Track :=
  if append.data.length ≤ maxWord32 then
    (track.grown append.data (track.durationInForce append.duration)
      0).unplaced
  else track

/-- What the caller then knows of the track. -/
def onIntake (append : Append) (intake : Intake) : Intake :=
  if append.data.length ≤ maxWord32 then
    intake.accept append.data append.duration
  else intake

end Append

/-- Samples for the same tracks, which for each of them come in the same
order. -/
def SameForEach (appends appends' : List Append) : Prop :=
  ∀ index, (appends'.filter fun append => append.index = index)
    = appends.filter fun append => append.index = index

/-- What becomes of one item of a list, if each sample changes that of its
track. -/
theorem getElem?_foldl_modify {α : Type} (change : Append → α → α)
    (appends : List Append) (items : List α) (index : Nat) :
    (appends.foldl (fun items append =>
        items.modify append.index (change append)) items)[index]?
      = items[index]?.map fun item =>
        (appends.filter fun append => append.index = index).foldl
          (fun item append => change append item) item := by
  induction appends generalizing items with
  | nil => simp
  | cons append appends ih =>
      rw [List.foldl_cons, ih, List.getElem?_modify]
      by_cases h : append.index = index
      · rw [List.filter_cons_of_pos (by simpa using h)]
        simp [h, Function.comp_def]
      · rw [List.filter_cons_of_neg (by simpa using h)]
        simp [h]

/-- However samples of different tracks are mixed, it comes to the same. -/
theorem foldl_modify_of_sameForEach {α : Type} (change : Append → α → α)
    {appends appends' : List Append} (h : SameForEach appends appends')
    (items : List α) :
    appends'.foldl (fun items append =>
        items.modify append.index (change append)) items
      = appends.foldl (fun items append =>
        items.modify append.index (change append)) items := by
  refine List.ext_getElem? fun index => ?_
  rw [getElem?_foldl_modify, getElem?_foldl_modify, h index]

namespace Session

variable {session : Session FlatFile} {ledger : List Entry}
  {blocks : List Block}

/-- One sample concerns its own track only, apart from the places. -/
theorem Recording.proceed_append (h : session.Recording ledger blocks)
    (append : Append) :
    (∃ ledger' blocks',
        (session.proceed append.call).Recording ledger' blocks')
      ∧ (session.proceed append.call).muxer.unplacedTracks
        = session.muxer.unplacedTracks.modify append.index append.onTrack
      ∧ (session.proceed append.call).intakes
        = session.intakes.modify append.index append.onIntake := by
  obtain ⟨index, data, duration⟩ := append
  have hcounts : session.intakes.length = session.muxer.tracks.length := by
    rw [h.kept.intakes, h.kept.tracks, List.length_map, List.length_map]
  by_cases hpermitted : (Call.appendSample index data duration).Permitted
    session.muxer
  · obtain ⟨_, hindex, hsmall⟩ := hpermitted
    have hdata : data.length ≤ maxWord32 := by
      unfold maxWord32
      omega
    have htrack := List.getElem?_eq_getElem hindex
    obtain ⟨ledger', blocks', hnext⟩ := h.appendSample htrack hdata
    have hok : (Call.appendSample index data duration).perform session.muxer
        = _ := Muxer.appendSample_flat h.out h.phase htrack hdata
    have hstep : session.proceed (Append.call ⟨index, data, duration⟩) = _ :=
      proceed_ok _ hok
    have hunplaced : session.muxer.unplacedTracks[index]?
        = some (session.muxer.tracks[index]).unplaced := by
      unfold Muxer.unplacedTracks
      rw [List.getElem?_map, htrack]
      rfl
    rw [hstep]
    refine ⟨⟨ledger', blocks', hnext⟩, ?_, ?_⟩
    · show (session.muxer.tracks.set index _).map Track.unplaced = _
      rw [modify_eq_set_of_getElem? hunplaced, List.map_set,
        Track.unplaced_grown _ _ _ _ 0]
      unfold Append.onTrack
      rw [if_pos hdata]
      rfl
    · unfold Append.onIntake
      simp only [if_pos hdata]
      rfl
  · -- A sample that is refused changes nothing.
    obtain ⟨reason, hrefused⟩ := Call.refused h.fault hpermitted
    have hstep : session.proceed (Append.call ⟨index, data, duration⟩)
        = session := proceed_error _ hrefused
    rw [hstep]
    refine ⟨⟨ledger, blocks, h⟩, ?_⟩
    by_cases hdata : data.length ≤ maxWord32
    · have hindex : session.muxer.tracks.length ≤ index := by
        by_contra hlt
        refine hpermitted ⟨h.phase, by omega, ?_⟩
        unfold maxWord32 at hdata
        omega
      constructor
      · refine (List.modify_eq_self ?_).symm
        unfold Muxer.unplacedTracks
        rw [List.length_map]
        exact hindex
      · exact (List.modify_eq_self (hcounts ▸ hindex)).symm
    · have htrack : Append.onTrack ⟨index, data, duration⟩ = id :=
        funext fun track => if_neg hdata
      have hintake : Append.onIntake ⟨index, data, duration⟩ = id :=
        funext fun intake => if_neg hdata
      rw [htrack, hintake, List.modify_id, List.modify_id]
      exact ⟨rfl, rfl⟩

/-- It is the samples of each track that decide, in order. -/
theorem Recording.run_appends (h : session.Recording ledger blocks)
    (appends : List Append) :
    (∃ ledger' blocks',
        (session.run (appends.map Append.call)).Recording ledger' blocks')
      ∧ (session.run (appends.map Append.call)).muxer.unplacedTracks
        = appends.foldl (fun tracks append =>
            tracks.modify append.index append.onTrack)
          session.muxer.unplacedTracks
      ∧ (session.run (appends.map Append.call)).intakes
        = appends.foldl (fun intakes append =>
            intakes.modify append.index append.onIntake)
          session.intakes := by
  induction appends generalizing session ledger blocks with
  | nil => exact ⟨⟨ledger, blocks, h⟩, rfl, rfl⟩
  | cons append appends ih =>
      obtain ⟨⟨ledger', blocks', hnext⟩, htracks, hintakes⟩ :=
        h.proceed_append append
      rw [List.foldl_cons, List.foldl_cons, ← htracks, ← hintakes]
      exact ih hnext

end Session

-- =================================================================== times

/-- The muxer as if it had been created at another time. -/
def Muxer.dated {σ : Type} (time : UInt64) (muxer : Muxer σ) : Muxer σ :=
  { muxer with creationTime := time, modificationTime := time }

theorem Muxer.create_dated {σ : Type} {config : MuxerConfig}
    {now : UInt64} {sink : σ} {muxer : Muxer σ}
    (h : create config now sink = .ok muxer) (now' : UInt64) :
    ∃ time, create config now' sink = .ok (muxer.dated time) := by
  unfold create at h ⊢
  split at h
  · cases h
  · split at h
    · cases h
    · cases h
      next hcodec hscale =>
      rw [if_neg hcodec, if_neg hscale]
      exact ⟨_, rfl⟩

namespace Session

variable {session : Session FlatFile}

def dated (time : UInt64) (session : Session FlatFile) : Session FlatFile :=
  ⟨session.muxer.dated time, session.intakes⟩

theorem Recording.dated {ledger : List Entry} {blocks : List Block}
    (h : session.Recording ledger blocks) (time : UInt64) :
    (session.dated time).Recording ledger blocks :=
  ⟨h.phase, h.fault, h.headerEnd, h.mediaStart, h.kept, h.shelved⟩

/-- A call that is permitted does not look at the times before the file is
closed. -/
theorem Active.perform_dated (h : session.Active) {call : Call}
    (hcall : ∀ optimize, call ≠ .finalize optimize)
    (hpermitted : call.Permitted session.muxer) (time : UInt64) :
    ∃ next, call.perform session.muxer = .ok () next
      ∧ call.perform (session.muxer.dated time)
        = .ok () (next.dated time) := by
  obtain ⟨file, hout⟩ := h.out
  have hout' : (session.muxer.dated time).out = .ofSink file := hout
  have hfault' : (session.muxer.dated time).out.fault? = none := h.fault
  have hphase' : (session.muxer.dated time).phase ≠ .finalized := h.phase
  have hconf := Muxer.checkConfigurable_flat hout h.phase
  have hconf' := Muxer.checkConfigurable_flat hout' hphase'
  cases call with
  | addTrack codec timescale =>
      obtain ⟨hphase, hfew, hscale⟩ := hpermitted
      exact ⟨_,
        Action.apply_discard_ok (Muxer.addTrack_flat hout hphase hfew hscale),
        Action.apply_discard_ok (Muxer.addTrack_flat hout' hphase hfew
          hscale)⟩
  | setChannels index | setFixedDuration index | setDecoderInfo index
  | setVariableBitrate index | setPriming index =>
      have htrack := List.getElem?_eq_getElem hpermitted.2
      exact ⟨_, Muxer.configureTrack_flat hout h.phase htrack _,
        Muxer.configureTrack_flat hout' hphase' htrack _⟩
  | setGapless mode =>
      exact ⟨_, Action.apply_bind_ok hconf, Action.apply_bind_ok hconf'⟩
  | addTag tag =>
      obtain ⟨_, stored?, hencode⟩ := hpermitted
      exact ⟨_, Muxer.addTag_ok h.fault h.phase hencode,
        Muxer.addTag_ok hfault' hphase' hencode⟩
  | beginWriting =>
      cases h with
      | configuring ledger h =>
          exact ⟨_, Muxer.beginWriting_flat h.out h.phase,
            Muxer.beginWriting_flat h.out h.phase⟩
      | recording ledger blocks h => cases h.phase.symm.trans hpermitted
  | appendSample index data duration =>
      obtain ⟨hphase, hindex, hdata⟩ := hpermitted
      have hfits : data.length ≤ maxWord32 := by
        unfold maxWord32
        omega
      have htrack := List.getElem?_eq_getElem hindex
      exact ⟨_, Muxer.appendSample_flat hout hphase htrack hfits,
        Muxer.appendSample_flat hout' hphase htrack hfits⟩
  | finalize optimize => exact absurd rfl (hcall optimize)

/-- No call looks at the times before the file is closed. -/
theorem Active.proceed_dated (h : session.Active) {call : Call}
    (hcall : ∀ optimize, call ≠ .finalize optimize) (time : UInt64) :
    (session.dated time).proceed call
      = (session.proceed call).dated time := by
  by_cases hpermitted : call.Permitted session.muxer
  · obtain ⟨next, hok, hok'⟩ := h.perform_dated hcall hpermitted time
    have hstep : (session.dated time).proceed call = _ :=
      proceed_ok call hok'
    rw [hstep, proceed_ok call hok]
    rfl
  · have hfault' : (session.muxer.dated time).out.fault? = none := h.fault
    have hpermitted' : ¬ call.Permitted (session.muxer.dated time) := by
      cases call <;> exact hpermitted
    obtain ⟨_, hrefused⟩ := Call.refused h.fault hpermitted
    obtain ⟨_, hrefused'⟩ := Call.refused hfault' hpermitted'
    have hstep : (session.dated time).proceed call = session.dated time :=
      proceed_error call hrefused'
    rw [hstep, proceed_error call hrefused]

/-- As long as the file is not closed a session goes the same way whenever
the muxer was created. -/
theorem Active.run_dated (h : session.Active) (calls : List Call)
    (time : UInt64) (hphase : (session.run calls).muxer.phase ≠ .finalized) :
    (session.dated time).run calls = (session.run calls).dated time := by
  induction calls generalizing session with
  | nil => rfl
  | cons call calls ih =>
      have hrun : session.run (call :: calls)
          = (session.proceed call).run calls := rfl
      have hrun' : (session.dated time).run (call :: calls)
          = ((session.dated time).proceed call).run calls := rfl
      rw [hrun] at hphase ⊢
      rw [hrun']
      by_cases hcall : ∃ optimize, call = .finalize optimize
      · obtain ⟨optimize, rfl⟩ := hcall
        cases h with
        | configuring ledger h =>
            have h' : (session.dated time).Configuring ledger :=
              ⟨h.phase, h.out, h.size, h.kept, h.blank⟩
            rw [h.proceed_finalize] at hphase ⊢
            rw [h'.proceed_finalize]
            exact ih (.configuring ledger h) hphase
        | recording ledger blocks h =>
            -- Nothing opens a file again that was closed.
            have hclosed := h.phase_proceed_finalize optimize
            have hstays := run_induction
              (P := fun other : Session FlatFile =>
                other.muxer.phase = .finalized) hclosed
              (fun other call hother => by
                rw [proceed_of_finalized hother]
                exact hother) calls
            exact absurd hstays hphase
      · have hopen : ∀ optimize, call ≠ .finalize optimize :=
          fun optimize heq => hcall ⟨optimize, heq⟩
        rw [h.proceed_dated hopen]
        exact ih (h.proceed hopen) hphase

end Session

-- =================================================================== results

/-- Two sessions that were handed the same samples for each track. However
closing their files ends, the muxers then have the same tracks but for the
places of the chunks, so the same tables to write, and as much media. If
both files are closed, a reader finds the same tables in them, and if both
are below 2 ^ 32 bytes they are closed and a reader gets the same samples
from them. -/
structure Undisturbed {σ τ : Type} [Sink σ] [FaithfulSink σ] [Sink τ]
    [FaithfulSink τ] (optimize : Bool) (session : Session σ)
    (session' : Session τ) : Prop where
  tracks : (session'.proceed (.finalize optimize)).muxer.unplacedTracks
    = (session.proceed (.finalize optimize)).muxer.unplacedTracks
  mediaSize : (session'.proceed (.finalize optimize)).muxer.mediaSize
    = (session.proceed (.finalize optimize)).muxer.mediaSize
  tables : (session'.proceed
      (.finalize optimize)).muxer.tracks.map Track.plainTables
    = (session.proceed
      (.finalize optimize)).muxer.tracks.map Track.plainTables
  reads_tables : ∀ final final',
    Muxer.finalize optimize session.muxer = .ok () final →
    Muxer.finalize optimize session'.muxer = .ok () final' →
    (FaithfulSink.view final.out.sink).bytes.length < 2 ^ 64 →
    (FaithfulSink.view final'.out.sink).bytes.length < 2 ^ 64 →
    ∃ tables,
      readTables? (FaithfulSink.view final.out.sink).bytes = some tables
        ∧ readTables? (FaithfulSink.view final'.out.sink).bytes
          = some tables
  reads_samples :
    (FaithfulSink.view (session.proceed
      (.finalize optimize)).muxer.out.sink).bytes.length < 2 ^ 32 →
    (FaithfulSink.view (session'.proceed
      (.finalize optimize)).muxer.out.sink).bytes.length < 2 ^ 32 →
    ∃ final final' recovered,
      Muxer.finalize optimize session.muxer = .ok () final
        ∧ Muxer.finalize optimize session'.muxer = .ok () final'
        ∧ readFile? (FaithfulSink.view final.out.sink).bytes
          = some recovered
        ∧ readFile? (FaithfulSink.view final'.out.sink).bytes
          = some recovered

namespace Session

/-- Closing a file that was handed in so far what is in the account. -/
theorem Recording.exists_read {σ : Type} [Sink σ] [FaithfulSink σ]
    [NeverFails σ] {session : Session σ} {ledger : List Entry}
    {blocks : List Block} (h : session.image.Recording ledger blocks)
    {optimize : Bool}
    (hlength : (FaithfulSink.view (session.proceed
      (.finalize optimize)).muxer.out.sink).bytes.length < 2 ^ 32) :
    ∃ final, Muxer.finalize optimize session.muxer = .ok () final
      ∧ readFile? (FaithfulSink.view final.out.sink).bytes
        = some (session.intakes.map Intake.recovered) := by
  obtain ⟨final, hfinalize⟩ := h.exists_finalized hlength
  rw [proceed_ok (.finalize optimize) hfinalize] at hlength
  obtain ⟨done, ledger', blocks', gap, hclosed⟩ :=
    Muxer.closed_of_recording h
      ((Muxer.mirrors_finalize optimize _).1 () final hfinalize)
  exact ⟨final, hfinalize, hclosed.readFile?_eq hlength⟩

/-- On a sink that never fails closing the file leaves the same tracks as on
a flat file. -/
theorem Recording.image_finalize {σ : Type} [Sink σ] [FaithfulSink σ]
    [NeverFails σ] {session : Session σ} {ledger : List Entry}
    {blocks : List Block} (h : session.image.Recording ledger blocks)
    {optimize : Bool} :
    (session.proceed (.finalize optimize)).muxer.unplacedTracks
        = session.muxer.unplacedTracks.map Track.completed
      ∧ (session.proceed (.finalize optimize)).muxer.mediaSize
        = (session.muxer.unplacedTracks.map fun track =>
          track.completed.chunks.totalSize).sum := by
  have hflat := h.proceed_finalize optimize
  rw [← image_proceed_finalize h optimize] at hflat
  exact hflat

variable {σ τ : Type} [Sink σ] [FaithfulSink σ] [NeverFails σ] [Sink τ]
  [FaithfulSink τ] [NeverFails τ]

/-- Two muxers that are writing and have the same tracks, apart from the
places. -/
theorem Recording.undisturbed {session : Session σ} {session' : Session τ}
    {ledger ledger' : List Entry} {blocks blocks' : List Block}
    (h : session.image.Recording ledger blocks)
    (h' : session'.image.Recording ledger' blocks')
    (htracks : session'.muxer.unplacedTracks = session.muxer.unplacedTracks)
    (hintakes : session'.intakes = session.intakes) (optimize : Bool) :
    Undisturbed optimize session session' where
  tracks := by
    rw [h.image_finalize.1, h'.image_finalize.1, htracks]
  mediaSize := by
    rw [h.image_finalize.2, h'.image_finalize.2, htracks]
  tables := by
    rw [Muxer.plainTables_eq, Muxer.plainTables_eq, h.image_finalize.1,
      h'.image_finalize.1, htracks]
  reads_tables := by
    intro final final' hfinalize hfinalize' hlength hlength'
    have hread := h.readTables?_eq
      ((Muxer.mirrors_finalize optimize _).1 () final hfinalize) hlength
    have hread' := h'.readTables?_eq
      ((Muxer.mirrors_finalize optimize _).1 () final' hfinalize') hlength'
    have hsame : session'.image.muxer.unplacedTracks
        = session.image.muxer.unplacedTracks := htracks
    rw [hsame] at hread'
    exact ⟨_, hread, hread'⟩
  reads_samples := by
    intro hlength hlength'
    obtain ⟨final, hfinalize, hread⟩ := h.exists_read hlength
    obtain ⟨final', hfinalize', hread'⟩ := h'.exists_read hlength'
    rw [hintakes] at hread'
    exact ⟨final, final', _, hfinalize, hfinalize', hread, hread'⟩

/-- Samples that are the same for each track, however they are mixed, lead
two muxers with the same configuration to the same tracks but for the
places of the chunks. -/
theorem Recording.alike {session : Session FlatFile} {ledger : List Entry}
    {blocks : List Block} (h : session.Recording ledger blocks)
    {appends appends' : List Append} (hsame : SameForEach appends appends')
    (time : UInt64) :
    ((session.dated time).run
          (appends'.map Append.call)).muxer.unplacedTracks
        = (session.run (appends.map Append.call)).muxer.unplacedTracks
      ∧ ((session.dated time).run (appends'.map Append.call)).intakes
        = (session.run (appends.map Append.call)).intakes := by
  obtain ⟨_, htracks, hintakes⟩ := h.run_appends appends
  obtain ⟨_, htracks', hintakes'⟩ := (h.dated time).run_appends appends'
  rw [htracks, hintakes, htracks', hintakes',
    foldl_modify_of_sameForEach _ hsame, foldl_modify_of_sameForEach _ hsame]
  exact ⟨rfl, rfl⟩

end Session

/-- Tracks do not disturb each other: two muxers with the same
configuration, on sinks that never fail, that are handed the same samples
for each track come to the same tracks, however the samples of different
tracks are mixed. -/
theorem tracks_undisturbed {σ τ : Type} [Sink σ] [FaithfulSink σ]
    [NeverFails σ] [Sink τ] [FaithfulSink τ] [NeverFails τ]
    {config : MuxerConfig} {now now' : UInt64} {sink : σ} {sink' : τ}
    {muxer : Muxer σ} {muxer' : Muxer τ}
    (hfresh : FaithfulSink.view sink = .empty)
    (hfresh' : FaithfulSink.view sink' = .empty)
    (hcreate : Muxer.create config now sink = .ok muxer)
    (hcreate' : Muxer.create config now' sink' = .ok muxer')
    {before : List Call}
    (hphase : ((Session.opened muxer).run before).muxer.phase = .writing)
    {appends appends' : List Append} (hsame : SameForEach appends appends')
    (optimize : Bool) :
    Undisturbed optimize
      ((Session.opened muxer).run (before ++ appends.map Append.call))
      ((Session.opened muxer').run (before ++ appends'.map Append.call)) := by
  have hflat := Muxer.create_image hcreate
  have hflat' := Muxer.create_image hcreate'
  rw [hfresh] at hflat
  rw [hfresh'] at hflat'
  obtain ⟨time, hdated⟩ := Muxer.create_dated hflat now'
  have hmuxers : muxer'.image = muxer.image.dated time :=
    Except.ok.inj (hflat'.symm.trans hdated)
  -- What both sessions come to around the flat file.
  have himage := Session.image_run_of_create hfresh hcreate
  have himage' := Session.image_run_of_create hfresh' hcreate'
  have hfault : ¬ ((Session.opened muxer).run before).Faulted := by
    have hnone := Session.not_faulted_run hflat before
    rw [← himage] at hnone
    exact hnone
  obtain ⟨ledger, blocks, h⟩ :=
    Session.exists_recording hfresh hcreate hphase hfault
  rw [himage] at h
  have hopen := (Session.active_opened hflat).run_dated before time
    (by rw [h.phase]; decide)
  have hfirst : ((Session.opened muxer).run
        (before ++ appends.map Append.call)).image
      = ((Session.opened muxer.image).run before).run
        (appends.map Append.call) := by
    rw [himage, Session.run_append]
  have hsecond : ((Session.opened muxer').run
        (before ++ appends'.map Append.call)).image
      = (((Session.opened muxer.image).run before).dated time).run
        (appends'.map Append.call) := by
    rw [himage', hmuxers, Session.run_append, ← hopen]
    rfl
  obtain ⟨⟨_, _, hrecording⟩, _⟩ := h.run_appends appends
  obtain ⟨⟨_, _, hrecording'⟩, _⟩ := (h.dated time).run_appends appends'
  obtain ⟨htracks, hintakes⟩ := h.alike hsame time
  rw [← hfirst] at hrecording htracks hintakes
  rw [← hsecond] at hrecording' htracks hintakes
  exact hrecording.undisturbed hrecording' htracks hintakes optimize

-- ========================================================== two ways to mix

/-- Two tracks that are ready to be written. -/
def twoTracks : List Call :=
  [.addTrack .text 1000, .setFixedDuration 1 700, .beginWriting]

/-- Samples of both tracks in turn. -/
def samplesInTurn : List Append :=
  [⟨0, [1, 2, 3], 22000⟩, ⟨1, [], 5⟩, ⟨0, [], 1024⟩, ⟨1, [4, 5], 5⟩,
    ⟨0, [6], 1024⟩, ⟨1, [7], 5⟩]

/-- The same samples, those of the second track first. -/
def samplesByTrack : List Append :=
  [⟨1, [], 5⟩, ⟨1, [4, 5], 5⟩, ⟨1, [7], 5⟩, ⟨0, [1, 2, 3], 22000⟩,
    ⟨0, [], 1024⟩, ⟨0, [6], 1024⟩]

theorem sameForEach_samplesByTrack :
    SameForEach samplesInTurn samplesByTrack := by
  intro index
  by_cases hfirst : index = 0
  · subst hfirst
    rfl
  by_cases hsecond : index = 1
  · subst hsecond
    rfl
  simp [samplesInTurn, samplesByTrack, Ne.symm hfirst, Ne.symm hsecond]

/-- The chunks come to lie elsewhere, and nothing else changes. -/
theorem tracks_undisturbed_samplesByTrack :
    Undisturbed true
        ((Session.opened freshMuxer).run
          (twoTracks ++ samplesInTurn.map Append.call))
        ((Session.opened freshMuxer).run
          (twoTracks ++ samplesByTrack.map Append.call))
      ∧ ((Session.opened freshMuxer).run
            (twoTracks ++ samplesByTrack.map Append.call)).muxer.tracks
        ≠ ((Session.opened freshMuxer).run
            (twoTracks ++ samplesInTurn.map Append.call)).muxer.tracks := by
  have hfresh : FaithfulSink.view FlatFile.empty = .empty := rfl
  have hwriting : ((Session.opened freshMuxer).run
      twoTracks).muxer.phase = .writing := by decide +kernel
  refine ⟨tracks_undisturbed hfresh hfresh create_default create_default
    hwriting sameForEach_samplesByTrack true, ?_⟩
  decide +kernel

end AudioMux

/-
The books of a session on a flat file: at every moment the tables of the
muxer, the bytes of the file and the caller's account say the same.

While the muxer is configured nothing is stored yet (`Configuring`).
While it writes, the media region is shelved and every track holds back
what its newest chunk consists of (`Recording`). Once it is finalized
there is nothing to keep, since it refuses every call. Each call leads
from one of these states to one of them (`InOrder.proceed`), so a
session that starts with an empty file is always in order
(`inOrder_run`).
-/
import AudioMux.Proofs.Muxer.Region

namespace AudioMux

-- ============================================================ the invariant

/-- The ledger lists the tracks of a muxer and the intakes of the
caller, no more than there may be, and each entry is sound and holds
back its newest chunk. -/
structure Kept (tracks : List Track) (intakes : List Intake)
    (ledger : List Entry) : Prop where
  tracks : tracks = ledger.map Entry.track
  intakes : intakes = ledger.map Entry.intake
  few : ledger.length ≤ maxTracks
  sound : ∀ entry ∈ ledger, entry.Sound
  held : ∀ entry ∈ ledger, entry.Held

namespace Session

/-- The muxer is being configured: the file is empty and so are the
chunk tables. -/
structure Configuring (session : Session FlatFile) (ledger : List Entry) :
    Prop where
  phase : session.muxer.phase = .configuring
  out : session.muxer.out = .ofSink .empty
  size : session.muxer.mediaSize = 0
  kept : Kept session.muxer.tracks session.intakes ledger
  blank : ∀ entry ∈ ledger, entry.track.chunks = .empty

/-- The muxer is writing: the media region is shelved. -/
structure Recording (session : Session FlatFile) (ledger : List Entry)
    (blocks : List Block) : Prop where
  phase : session.muxer.phase = .writing
  fault : session.muxer.out.fault? = none
  headerEnd : session.muxer.headerEnd = 32
  mediaStart : session.muxer.mediaStart = mediaOrigin
  kept : Kept session.muxer.tracks session.intakes ledger
  shelved : Shelved session.muxer.out.sink session.muxer.mediaSize ledger
    blocks

/-- The books are in order, and the muxer is not finalized yet. -/
inductive Active (session : Session FlatFile) : Prop where
  | configuring (ledger : List Entry) (h : session.Configuring ledger)
  | recording (ledger : List Entry) (blocks : List Block)
      (h : session.Recording ledger blocks)

/-- The books are in order, as long as there is anything to keep. -/
inductive InOrder (session : Session FlatFile) : Prop where
  | active (h : session.Active)
  | finalized (h : session.muxer.phase = .finalized)

variable {session : Session FlatFile} {ledger : List Entry}
  {blocks : List Block}

theorem Recording.out (h : session.Recording ledger blocks) :
    session.muxer.out = .ofSink session.muxer.out.sink := by
  show (⟨_, session.muxer.out.fault?⟩ : Output FlatFile) = _
  rw [h.fault]
  rfl

end Session

-- ================================================================== entries

namespace Kept

variable {tracks : List Track} {intakes : List Intake}
  {ledger : List Entry}

/-- Each track has its entry. -/
theorem exists_entry (h : Kept tracks intakes ledger) {index : Nat}
    {track : Track} (htrack : tracks[index]? = some track) :
    ∃ entry, ledger[index]? = some entry ∧ entry.track = track
      ∧ intakes[index]? = some entry.intake := by
  rw [h.tracks, List.getElem?_map] at htrack
  obtain ⟨entry, hentry, hsame⟩ := Option.map_eq_some_iff.mp htrack
  refine ⟨entry, hentry, hsame, ?_⟩
  rw [h.intakes, List.getElem?_map, hentry]
  rfl

/-- One entry makes way for another. -/
theorem set (h : Kept tracks intakes ledger) (index : Nat) {entry : Entry}
    (hsound : entry.Sound) (hheld : entry.Held) :
    Kept (tracks.set index entry.track) (intakes.set index entry.intake)
      (ledger.set index entry) := by
  refine ⟨?_, ?_, ?_, ?_, ?_⟩
  · rw [h.tracks, List.map_set]
  · rw [h.intakes, List.map_set]
  · rw [List.length_set]
    exact h.few
  · intro other hother
    rcases List.mem_or_eq_of_mem_set hother with hold | rfl
    · exact h.sound other hold
    · exact hsound
  · intro other hother
    rcases List.mem_or_eq_of_mem_set hother with hold | rfl
    · exact h.held other hold
    · exact hheld

end Kept

namespace Entry

/-- The settings of a track change, on both sides. -/
structure Reconfigures (entry entry' : Entry) : Prop where
  samples : entry'.track.samples = entry.track.samples
  chunks : entry'.track.chunks = entry.track.chunks
  units : entry'.intake.units = entry.intake.units
  parts : entry'.parts = entry.parts
  fixed : entry'.track.fixedDuration? = entry'.intake.fixedDuration?

variable {entry entry' : Entry}

theorem Reconfigures.sound (h : Reconfigures entry entry')
    (hsound : entry.Sound) : entry'.Sound where
  fixed := h.fixed
  samples := by rw [h.samples, h.units, hsound.samples]
  small := by
    rw [h.units]
    exact hsound.small
  chunks := by
    rw [h.chunks, h.parts]
    exact hsound.chunks
  units := by rw [h.parts, h.units, hsound.units]

theorem Reconfigures.held (h : Reconfigures entry entry')
    (hheld : entry.Held) : entry'.Held := by
  unfold Held at hheld ⊢
  rw [h.chunks, h.parts, hheld]

theorem Reconfigures.stored (h : Reconfigures entry entry') :
    entry'.stored = entry.stored := by
  unfold Entry.stored closed
  rw [h.chunks, h.parts]

end Entry

-- ==================================================================== steps

namespace Session

variable {session : Session FlatFile}

/-- Settings of one track may change at any time. -/
theorem Active.reconfigure (h : session.Active) {index : Nat}
    {track : Track} (htrack : session.muxer.tracks[index]? = some track)
    {track' : Track} {change : Intake → Intake}
    (hsamples : track'.samples = track.samples)
    (hchunks : track'.chunks = track.chunks)
    (hunits : ∀ intake, (change intake).units = intake.units)
    (hfixed : ∀ intake : Intake,
      track.fixedDuration? = intake.fixedDuration? →
        track'.fixedDuration? = (change intake).fixedDuration?) :
    Active ⟨{ session.muxer with
        tracks := session.muxer.tracks.set index track' },
      session.intakes.modify index change⟩ := by
  -- The entry of the track with the settings changed on both sides.
  have hentries : ∀ ledger,
      Kept session.muxer.tracks session.intakes ledger →
      ∃ entry entry', ledger[index]? = some entry
        ∧ entry.track = track ∧ Entry.Reconfigures entry entry'
        ∧ entry'.track = track'
        ∧ session.intakes.modify index change
          = session.intakes.set index entry'.intake := by
    intro ledger hkept
    obtain ⟨entry, hentry, rfl, hintake⟩ := hkept.exists_entry htrack
    have hsound := hkept.sound entry (List.mem_of_getElem? hentry)
    refine ⟨entry, ⟨track', change entry.intake, entry.parts⟩, hentry, rfl,
      ⟨hsamples, hchunks, hunits _, rfl, hfixed _ hsound.fixed⟩, rfl, ?_⟩
    exact modify_eq_set_of_getElem? hintake change
  cases h with
  | configuring ledger h =>
      obtain ⟨entry, entry', hentry, rfl, hsame, rfl, hintakes⟩ :=
        hentries ledger h.kept
      have hmem := List.mem_of_getElem? hentry
      refine .configuring (ledger.set index entry')
        ⟨h.phase, h.out, h.size, ?_, ?_⟩
      · rw [hintakes]
        exact h.kept.set index (hsame.sound (h.kept.sound entry hmem))
          (hsame.held (h.kept.held entry hmem))
      · intro other hother
        rcases List.mem_or_eq_of_mem_set hother with hold | rfl
        · exact h.blank other hold
        · rw [hsame.chunks]
          exact h.blank entry hmem
  | recording ledger blocks h =>
      obtain ⟨entry, entry', hentry, rfl, hsame, rfl, hintakes⟩ :=
        hentries ledger h.kept
      have hmem := List.mem_of_getElem? hentry
      refine .recording (ledger.set index entry') blocks
        ⟨h.phase, h.fault, h.headerEnd, h.mediaStart, ?_,
          h.shelved.replace hentry hsame.stored⟩
      rw [hintakes]
      exact h.kept.set index (hsame.sound (h.kept.sound entry hmem))
        (hsame.held (h.kept.held entry hmem))

/-- What is neither a track nor a part of the file may change freely. -/
theorem Active.change (h : session.Active) {muxer : Muxer FlatFile}
    (hphase : muxer.phase = session.muxer.phase)
    (hout : muxer.out = session.muxer.out)
    (hsize : muxer.mediaSize = session.muxer.mediaSize)
    (hheader : muxer.headerEnd = session.muxer.headerEnd)
    (hstart : muxer.mediaStart = session.muxer.mediaStart)
    (htracks : muxer.tracks = session.muxer.tracks) :
    Active ⟨muxer, session.intakes⟩ := by
  cases h with
  | configuring ledger h =>
      refine .configuring ledger ⟨?_, ?_, ?_, ?_, h.blank⟩
      · rw [hphase, h.phase]
      · rw [hout, h.out]
      · rw [hsize, h.size]
      · rw [htracks]
        exact h.kept
  | recording ledger blocks h =>
      refine .recording ledger blocks ⟨?_, ?_, ?_, ?_, ?_, ?_⟩
      · rw [hphase, h.phase]
      · rw [hout, h.fault]
      · rw [hheader, h.headerEnd]
      · rw [hstart, h.mediaStart]
      · rw [htracks]
        exact h.kept
      · rw [hout, hsize]
        exact h.shelved

/-- A track is added while the muxer is configured. -/
theorem Configuring.addTrack {ledger : List Entry}
    (h : session.Configuring ledger)
    (hfew : session.muxer.tracks.length < maxTracks) (codec : Codec)
    (timescale : UInt32) :
    Configuring ⟨{ session.muxer with
        tracks := session.muxer.tracks ++ [Track.new codec timescale] },
      session.intakes ++ [.empty]⟩
      (ledger ++ [.fresh codec timescale]) := by
  refine ⟨h.phase, h.out, h.size, ⟨?_, ?_, ?_, ?_, ?_⟩, ?_⟩
  · rw [List.map_append, ← h.kept.tracks]
    rfl
  · rw [List.map_append, ← h.kept.intakes]
    rfl
  · rw [h.kept.tracks, List.length_map] at hfew
    rw [List.length_append]
    exact hfew
  · intro entry hentry
    rcases List.mem_append.mp hentry with hold | hlast
    · exact h.kept.sound entry hold
    · rw [List.mem_singleton.mp hlast]
      exact Entry.sound_fresh codec timescale
  · intro entry hentry
    rcases List.mem_append.mp hentry with hold | hlast
    · exact h.kept.held entry hold
    · rw [List.mem_singleton.mp hlast]
      exact Entry.held_fresh codec timescale
  · intro entry hentry
    rcases List.mem_append.mp hentry with hold | hlast
    · exact h.blank entry hold
    · rw [List.mem_singleton.mp hlast]
      rfl

/-- Writing starts. -/
theorem Configuring.beginWriting {ledger : List Entry}
    (h : session.Configuring ledger) :
    Recording ⟨{ session.muxer with
        out := .ofSink (FlatFile.empty.write Muxer.preamble)
        headerEnd := 32
        mediaStart := 48
        phase := .writing }, session.intakes⟩ ledger [] := by
  refine ⟨rfl, rfl, rfl, rfl, h.kept, ?_⟩
  show Shelved _ session.muxer.mediaSize ledger []
  rw [h.size]
  exact Shelved.start fun entry hentry =>
    Entry.stored_of_blank (h.blank entry hentry)

/-- A sample is appended: the heart of the matter. -/
theorem Recording.appendSample {ledger : List Entry}
    {blocks : List Block} (h : session.Recording ledger blocks)
    {index : Nat} {track : Track} {data : Bytes} {duration : UInt32}
    (htrack : session.muxer.tracks[index]? = some track)
    (hdata : data.length ≤ Box.maxWord32) :
    ∃ ledger' blocks', Recording
      ⟨{ session.muxer with
          out := .ofSink (session.muxer.out.sink.write
            (track.released (track.durationInForce duration)))
          tracks := session.muxer.tracks.set index
            (track.grown data (track.durationInForce duration)
              session.muxer.out.sink.cursor)
          mediaSize := session.muxer.mediaSize +
            (track.released (track.durationInForce duration)).length },
        session.intakes.modify index (·.accept data duration)⟩
      ledger' blocks' := by
  obtain ⟨entry, hentry, rfl, hintake⟩ := h.kept.exists_entry htrack
  have hmem := List.mem_of_getElem? hentry
  have hsound := h.kept.sound entry hmem
  have hheld := h.kept.held entry hmem
  have hforce : entry.track.durationInForce duration
      = entry.intake.fixedDuration?.getD duration := by
    unfold Track.durationInForce
    rw [hsound.fixed]
  have haccept : session.intakes.modify index (·.accept data duration)
      = session.intakes.set index
          (entry.grow data (entry.track.durationInForce duration)
            session.muxer.out.sink.cursor).intake := by
    rw [modify_eq_set_of_getElem? hintake, Entry.intake_grow, hforce]
    rfl
  refine ⟨_, _, h.phase, rfl, h.headerEnd, h.mediaStart, ?_,
    h.shelved.store hentry (Entry.stored_grow hsound hheld data _ _)⟩
  rw [haccept, ← Entry.track_grow]
  exact h.kept.set index (hsound.grow hheld hdata _ _)
    (hheld.grow hsound _ _ _)

end Session

-- ==================================================================== calls

namespace Muxer

open AudioMux.Action

variable {σ : Type} {α X : Type}

/-- Something about a muxer that has to do with neither its output, nor
its tags, nor how much media there is. -/
structure Aside (look : Muxer σ → X) : Prop where
  out : ∀ (muxer : Muxer σ) out, look { muxer with out := out } = look muxer
  metadata : ∀ (muxer : Muxer σ) metadata,
    look { muxer with metadata := metadata } = look muxer
  mediaSize : ∀ (muxer : Muxer σ) size,
    look { muxer with mediaSize := size } = look muxer

theorem aside_phase : Aside (Muxer.phase (σ := σ)) :=
  ⟨fun _ _ => rfl, fun _ _ => rfl, fun _ _ => rfl⟩

section
variable {look : Muxer σ → X} (h : Aside look)

include h

theorem keeps_onOutput (action : Writing σ α) :
    Keeps look (onOutput action) := by
  intro muxer
  unfold onOutput
  cases action muxer.out with
  | ok a out => exact h.out muxer out
  | error failure out => exact h.out muxer out

theorem keeps_storeTag (tag : Tag) : Keeps look (storeTag tag) := by
  intro muxer
  unfold storeTag
  rw [apply_bind_ok (apply_get _)]
  cases muxer.metadata.add tag with
  | error failure => rfl
  | ok metadata => exact h.metadata muxer metadata

theorem keeps_addGaplessItem : Keeps look addGaplessItem := by
  refine keeps_bind keeps_get fun muxer => keeps_ite ?_ (keeps_pure _)
  cases muxer.tracks.head? with
  | none => exact keeps_pure _
  | some track => exact keeps_ite (keeps_storeTag h _) (keeps_pure _)

theorem keeps_countMedia (written : Nat) :
    Keeps look (countMedia written) :=
  keeps_modify fun muxer => h.mediaSize muxer _

variable [Sink σ]

theorem keeps_finishTracks
    (hfinish : ∀ index, Keeps look (onTrack index Track.finish)) :
    Keeps look finishTracks := by
  refine keeps_bind keeps_get fun muxer => keeps_forM (fun index => ?_) _
  exact keeps_bind (hfinish index) (keeps_countMedia h)

theorem keeps_writeMediaHeader : Keeps look writeMediaHeader :=
  keeps_bind keeps_get fun _ =>
    keeps_bind (keeps_onOutput h _) fun _ =>
      keeps_bind (keeps_onOutput h _) fun _ => keeps_onOutput h _

theorem keeps_appendMovie : Keeps look appendMovie :=
  keeps_bind keeps_get fun _ => keeps_discard (keeps_onOutput h _)

theorem keeps_prependMovie
    (hmove : ∀ gap block, Keeps look (moveMedia gap block)) :
    Keeps look prependMovie := by
  have hend : Keeps look
      (get >>= fun m => get >>= fun m' =>
        onOutput (Output.seek (m.mediaStart + m'.mediaSize))) :=
    keeps_bind keeps_get fun _ => keeps_bind keeps_get fun _ =>
      keeps_onOutput h _
  refine keeps_bind keeps_get fun muxer => ?_
  cases muxer.relocationGap with
  | error failure => exact keeps_throw_bind _ _
  | ok gap =>
      refine keeps_bind (keeps_pure _) fun gap => ?_
      refine keeps_bind (hmove _ _) fun _ => ?_
      refine keeps_bind keeps_get fun _ => ?_
      refine keeps_bind (keeps_onOutput h _) fun _ => ?_
      refine keeps_bind (keeps_onOutput h _) fun _ => ?_
      refine keeps_bind (keeps_discard (keeps_onOutput h _)) fun _ => ?_
      refine keeps_bind (keeps_writeMediaHeader h) fun _ => ?_
      refine keeps_bind keeps_get fun _ => ?_
      refine keeps_bind (keeps_onOutput h _) fun _ => ?_
      refine keeps_bind keeps_get fun _ => ?_
      refine keeps_bind (keeps_onOutput h _) fun _ => ?_
      exact keeps_ite (keeps_bind (keeps_onOutput h _) fun _ => hend) hend

end

theorem keeps_phase_onTrack (index : Nat) (action : Tracking σ α) :
    Keeps Muxer.phase (onTrack index action) := by
  intro muxer
  unfold onTrack
  cases muxer.tracks[index]? with
  | none => rfl
  | some track =>
      dsimp only
      cases action (track, muxer.out) <;> rfl

variable [Sink σ]

theorem keeps_phase_moveMedia (gap block : Nat) :
    Keeps Muxer.phase (moveMedia (σ := σ) gap block) :=
  keeps_bind keeps_get fun _ => keeps_bind (keeps_onOutput aside_phase _)
    fun _ => keeps_modify fun _ => rfl

/-- What follows once a muxer has agreed to finalize. -/
def closeFile (optimize : Bool) : Muxing σ Unit := do
  modify fun muxer => { muxer with phase := .finalized }
  finishTracks
  addGaplessItem
  writeMediaHeader
  if optimize then prependMovie else appendMovie
  onOutput Output.flush

/-- A muxer that is writing agrees to finalize. -/
theorem finalize_of_writing {muxer : Muxer σ}
    (hfault : muxer.out.fault? = none) (hphase : muxer.phase = .writing)
    (optimize : Bool) :
    finalize optimize muxer = closeFile optimize muxer := by
  have hcheck := Call.checkFault_of_no_fault hfault
  unfold finalize closeFile
  rw [apply_bind_ok hcheck, apply_bind_ok (apply_get _), hphase]

/-- However closing a file ends, the muxer is finalized after it. -/
theorem phase_closeFile (optimize : Bool) (muxer : Muxer σ) :
    (after (closeFile optimize muxer)).phase = .finalized := by
  have hout : Keeps Muxer.phase (onOutput (Output.flush (σ := σ))) :=
    keeps_onOutput aside_phase _
  have hrest : Keeps Muxer.phase (σ := Muxer σ) (do
      finishTracks
      addGaplessItem
      writeMediaHeader
      if optimize then prependMovie else appendMovie
      onOutput Output.flush) := by
    refine keeps_bind (keeps_finishTracks aside_phase fun index =>
      keeps_phase_onTrack index _) fun _ => ?_
    refine keeps_bind (keeps_addGaplessItem aside_phase) fun _ => ?_
    refine keeps_bind (keeps_writeMediaHeader aside_phase) fun _ => ?_
    exact keeps_ite
      (keeps_bind (keeps_prependMovie aside_phase keeps_phase_moveMedia)
        fun _ => hout)
      (keeps_bind (keeps_appendMovie aside_phase) fun _ => hout)
  unfold closeFile
  rw [apply_bind_ok (apply_modify _ _)]
  exact hrest _

end Muxer

-- ================================================================= sessions

namespace Session

variable {session : Session FlatFile}

/-- A call that is refused without any change. -/
theorem Active.refuse (h : session.Active) {call : Call}
    (failure : Failure)
    (hcall : call.perform session.muxer = .error failure session.muxer) :
    (session.proceed call).Active := by
  rw [proceed_error call hcall]
  exact h

/-- A call that succeeds. -/
theorem Active.accept {call : Call} {muxer : Muxer FlatFile}
    (hcall : call.perform session.muxer = .ok () muxer)
    (h : Active ⟨muxer, call.record session.intakes⟩) :
    (session.proceed call).Active := by
  rw [proceed_ok call hcall]
  exact h

/-- Before it is finalized a muxer on a flat file has met no fault. -/
theorem Active.out (h : session.Active) :
    ∃ file, session.muxer.out = .ofSink file := by
  cases h with
  | configuring ledger h => exact ⟨_, h.out⟩
  | recording ledger blocks h => exact ⟨_, h.out⟩

theorem Active.fault (h : session.Active) :
    session.muxer.out.fault? = none := by
  obtain ⟨file, hout⟩ := h.out
  rw [hout]
  rfl

theorem Active.phase (h : session.Active) :
    session.muxer.phase ≠ .finalized := by
  cases h with
  | configuring ledger h =>
      rw [h.phase]
      decide
  | recording ledger blocks h =>
      rw [h.phase]
      decide

/-- Any call that changes the settings of one track. -/
theorem Active.configureTrack (h : session.Active) {call : Call}
    {index : Nat} {change : Track → Track} {change' : Intake → Intake}
    (hcall : call.perform session.muxer
      = Muxer.configureTrack index change session.muxer)
    (hrecord : call.record session.intakes
      = session.intakes.modify index change')
    (hsamples : ∀ track, (change track).samples = track.samples)
    (hchunks : ∀ track, (change track).chunks = track.chunks)
    (hunits : ∀ intake, (change' intake).units = intake.units)
    (hfixed : ∀ (track : Track) (intake : Intake),
      track.fixedDuration? = intake.fixedDuration? →
        (change track).fixedDuration? = (change' intake).fixedDuration?) :
    (session.proceed call).Active := by
  obtain ⟨file, hout⟩ := h.out
  cases htrack : session.muxer.tracks[index]? with
  | none =>
      refine h.refuse (.unsupported (.trackOutOfRange index
        session.muxer.tracks.length)) (hcall.trans ?_)
      unfold Muxer.configureTrack
      rw [Action.apply_bind_ok (Muxer.checkConfigurable_flat hout h.phase)]
      exact Muxer.onTrack_none htrack _
  | some track =>
      refine Active.accept (hcall.trans
        (Muxer.configureTrack_flat hout h.phase htrack change)) ?_
      rw [hrecord]
      exact h.reconfigure htrack (hsamples track) (hchunks track)
        hunits (hfixed track)

theorem Active.proceed_addTrack (h : session.Active) (codec : Codec)
    (timescale : UInt32) :
    (session.proceed (.addTrack codec timescale)).Active := by
  obtain ⟨file, hout⟩ := h.out
  have hrefuse : ∀ failure,
      Muxer.addTrack codec timescale session.muxer
        = .error failure session.muxer →
      (session.proceed (.addTrack codec timescale)).Active :=
    fun failure hadd => h.refuse failure (Action.apply_discard_error hadd)
  have hadd : Muxer.addTrack codec timescale session.muxer = _ :=
    (Action.apply_bind_ok (Muxer.checkConfigurable_flat hout h.phase)).trans
      (Action.apply_bind_ok (Action.apply_get _))
  dsimp only at hadd
  split at hadd
  · exact hrefuse _ hadd
  · next hconf =>
    split at hadd
    · exact hrefuse _ hadd
    · next hfew =>
      split at hadd
      · exact hrefuse _ hadd
      · cases h with
        | configuring ledger h =>
            exact Active.accept (Action.apply_discard_ok hadd)
              (.configuring _ (h.addTrack (by omega) codec timescale))
        | recording ledger blocks h =>
            rw [h.phase] at hconf
            exact absurd (by decide) hconf

theorem Active.proceed_addTag (h : session.Active) (tag : Tag) :
    (session.proceed (.addTag tag)).Active := by
  obtain ⟨file, hout⟩ := h.out
  have hadd : Muxer.addTag tag session.muxer
      = Muxer.storeTag tag session.muxer :=
    Action.apply_bind_ok (Muxer.checkConfigurable_flat hout h.phase)
  unfold Muxer.storeTag at hadd
  rw [Action.apply_bind_ok (Action.apply_get _)] at hadd
  cases htable : session.muxer.metadata.add tag with
  | error failure =>
      rw [htable] at hadd
      exact h.refuse failure hadd
  | ok metadata =>
      rw [htable] at hadd
      exact Active.accept hadd (h.change rfl rfl rfl rfl rfl rfl)

theorem Active.proceed_setGapless (h : session.Active) (mode : GaplessMode) :
    (session.proceed (.setGapless mode)).Active := by
  obtain ⟨file, hout⟩ := h.out
  exact Active.accept
    (Action.apply_bind_ok (Muxer.checkConfigurable_flat hout h.phase))
    (h.change rfl rfl rfl rfl rfl rfl)

theorem Active.proceed_beginWriting (h : session.Active) :
    (session.proceed .beginWriting).Active := by
  cases h with
  | configuring ledger h =>
      exact Active.accept (Muxer.beginWriting_flat h.out h.phase)
        (.recording ledger [] h.beginWriting)
  | recording ledger blocks h =>
      refine Active.refuse (.recording ledger blocks h)
        (.unsupported .alreadyWriting) ?_
      show Muxer.beginWriting session.muxer = _
      unfold Muxer.beginWriting
      rw [Action.apply_bind_ok (Muxer.checkConfigurable_flat h.out
          (Active.recording ledger blocks h).phase),
        Action.apply_bind_ok (Action.apply_get _),
        if_pos (by rw [h.phase]; decide)]
      rfl

theorem Active.proceed_appendSample (h : session.Active) (index : Nat)
    (data : Bytes) (duration : UInt32) :
    (session.proceed (.appendSample index data duration)).Active := by
  have horder := h
  cases h with
  | configuring ledger h =>
      refine horder.refuse (.unsupported .notWriting) ?_
      show Muxer.appendSample index data duration session.muxer = _
      unfold Muxer.appendSample
      rw [Action.apply_bind_ok (Muxer.checkFault_flat h.out),
        Action.apply_bind_ok (Action.apply_get _),
        if_pos (by rw [h.phase]; decide)]
      rfl
  | recording ledger blocks h =>
      cases htrack : session.muxer.tracks[index]? with
      | none =>
          exact horder.refuse _
            (Muxer.appendSample_flat_error h.out h.phase
              (Muxer.onTrack_none htrack _))
      | some track =>
          by_cases hdata : data.length ≤ Box.maxWord32
          · obtain ⟨ledger', blocks', h'⟩ := h.appendSample htrack hdata
            exact Active.accept
              (Muxer.appendSample_flat h.out h.phase htrack hdata)
              (.recording ledger' blocks' h')
          · have hlong : Box.maxWord32 < data.length := by omega
            refine horder.refuse
              (.unsupported (.sampleTooLarge data.length))
              (Muxer.appendSample_flat_error h.out h.phase ?_)
            rw [Muxer.onTrack_error htrack
              (Track.append_too_large track duration hlong _),
              set_of_getElem? htrack]

/-- Every call but the last keeps the books, whether it succeeds or
not. -/
theorem Active.proceed (h : session.Active) {call : Call}
    (hcall : ∀ optimize, call ≠ .finalize optimize) :
    (session.proceed call).Active := by
  have hsame : ∀ index : Nat,
      session.intakes = session.intakes.modify index id := by
    intro index
    exact (List.modify_id index session.intakes).symm
  cases call with
  | addTrack codec timescale => exact h.proceed_addTrack _ _
  | setChannels index channels =>
      exact h.configureTrack rfl (hsame index) (fun _ => rfl)
        (fun _ => rfl) (fun _ => rfl) (fun _ _ => id)
  | setFixedDuration index duration =>
      exact h.configureTrack rfl rfl (fun _ => rfl) (fun _ => rfl)
        (fun _ => rfl) (fun _ _ _ => rfl)
  | setDecoderInfo index info =>
      exact h.configureTrack rfl (hsame index) (fun _ => rfl)
        (fun _ => rfl) (fun _ => rfl) (fun _ _ => id)
  | setVariableBitrate index varies =>
      exact h.configureTrack rfl (hsame index) (fun _ => rfl)
        (fun _ => rfl) (fun _ => rfl) (fun _ _ => id)
  | setPriming index delay padding =>
      exact h.configureTrack rfl (hsame index) (fun _ => rfl)
        (fun _ => rfl) (fun _ => rfl) (fun _ _ => id)
  | setGapless mode => exact h.proceed_setGapless mode
  | addTag tag => exact h.proceed_addTag tag
  | beginWriting => exact h.proceed_beginWriting
  | appendSample index data duration =>
      exact h.proceed_appendSample index data duration
  | finalize optimize => exact absurd rfl (hcall optimize)

/-- A file that was never begun is not finalized. -/
theorem Configuring.proceed_finalize {ledger : List Entry}
    (h : session.Configuring ledger) (optimize : Bool) :
    session.proceed (.finalize optimize) = session := by
  have hrefuse : Muxer.finalize optimize session.muxer
      = .error (.unsupported .neverBegun) session.muxer := by
    unfold Muxer.finalize
    rw [Action.apply_bind_ok (Muxer.checkFault_flat h.out),
      Action.apply_bind_ok (Action.apply_get _), h.phase]
    rfl
  exact proceed_error (.finalize optimize) hrefuse

/-- However closing the file ends, it is over. -/
theorem Recording.phase_proceed_finalize
    (h : session.Recording ledger blocks) (optimize : Bool) :
    (session.proceed (.finalize optimize)).muxer.phase = .finalized := by
  have hclose : (Call.finalize optimize).perform session.muxer = _ :=
    Muxer.finalize_of_writing h.fault h.phase optimize
  have hafter := Muxer.phase_closeFile optimize session.muxer
  cases hrun : Muxer.closeFile optimize session.muxer with
  | ok u muxer =>
      rw [hrun] at hclose hafter
      rw [proceed_ok _ hclose]
      exact hafter
  | error failure muxer =>
      rw [hrun] at hclose hafter
      rw [proceed_error _ hclose]
      exact hafter

theorem Active.proceed_finalize (h : session.Active) (optimize : Bool) :
    (session.proceed (.finalize optimize)).InOrder := by
  cases h with
  | configuring ledger h =>
      rw [h.proceed_finalize optimize]
      exact .active (.configuring ledger h)
  | recording ledger blocks h =>
      exact .finalized (h.phase_proceed_finalize optimize)

/-- A finalized muxer stays as it is. -/
theorem proceed_of_finalized (h : session.muxer.phase = .finalized)
    (call : Call) : session.proceed call = session := by
  obtain ⟨failure, hrefuse⟩ := call.perform_of_finalized h
  exact proceed_error call hrefuse

/-- Every call keeps the books in order. -/
theorem InOrder.proceed (h : session.InOrder) (call : Call) :
    (session.proceed call).InOrder := by
  cases h with
  | active h =>
      by_cases hcall : ∃ optimize, call = .finalize optimize
      · obtain ⟨optimize, rfl⟩ := hcall
        exact h.proceed_finalize optimize
      · exact .active (h.proceed fun optimize heq => hcall ⟨optimize, heq⟩)
  | finalized h =>
      rw [proceed_of_finalized h]
      exact .finalized h

/-- A muxer that was just created on an empty file. -/
theorem active_opened {config : MuxerConfig} {now : UInt64}
    {muxer : Muxer FlatFile}
    (h : Muxer.create config now .empty = .ok muxer) :
    (opened muxer).Active := by
  unfold Muxer.create at h
  split at h
  · cases h
  · split at h
    · cases h
    · cases h
      refine .configuring [.fresh config.codec config.timescale]
        ⟨rfl, rfl, rfl, ⟨rfl, rfl, Nat.le_succ 1, ?_, ?_⟩, ?_⟩
      · intro entry hentry
        rw [List.mem_singleton.mp hentry]
        exact Entry.sound_fresh _ _
      · intro entry hentry
        rw [List.mem_singleton.mp hentry]
        exact Entry.held_fresh _ _
      · intro entry hentry
        rw [List.mem_singleton.mp hentry]
        rfl

/-- Whatever is called, the books stay in order. -/
theorem inOrder_run {config : MuxerConfig} {now : UInt64}
    {muxer : Muxer FlatFile}
    (h : Muxer.create config now .empty = .ok muxer) (calls : List Call) :
    ((opened muxer).run calls).InOrder :=
  run_induction (.active (active_opened h)) (fun _ call hsession =>
    hsession.proceed call) calls

section
variable {σ : Type} [Sink σ] [FaithfulSink σ] {config : MuxerConfig}
  {now : UInt64} {sink : σ} {muxer : Muxer σ} {calls : List Call}

/-- On any faithful sink that was empty, a muxer that has met no fault
shows a flat file whose books are in order. -/
theorem inOrder_image (hfresh : FaithfulSink.view sink = .empty)
    (hcreate : Muxer.create config now sink = .ok muxer)
    (hfault : ¬ ((opened muxer).run calls).Faulted) :
    ((opened muxer).run calls).image.InOrder := by
  have hflat := Muxer.create_image hcreate
  rw [hfresh] at hflat
  have horder := inOrder_run hflat calls
  have himage : ((opened muxer).run calls).image
      = (opened muxer.image).run calls := image_run hfault
  rw [← himage] at horder
  exact horder

theorem exists_configuring (hfresh : FaithfulSink.view sink = .empty)
    (hcreate : Muxer.create config now sink = .ok muxer)
    (hphase : ((opened muxer).run calls).muxer.phase = .configuring)
    (hfault : ¬ ((opened muxer).run calls).Faulted) :
    ∃ ledger, ((opened muxer).run calls).image.Configuring ledger := by
  cases inOrder_image hfresh hcreate hfault with
  | active h =>
      cases h with
      | configuring ledger h => exact ⟨ledger, h⟩
      | recording ledger blocks h =>
          have hother : ((opened muxer).run calls).muxer.phase
            = .writing := h.phase
          cases hphase.symm.trans hother
  | finalized h =>
      have hother : ((opened muxer).run calls).muxer.phase
        = .finalized := h
      cases hphase.symm.trans hother

theorem exists_recording (hfresh : FaithfulSink.view sink = .empty)
    (hcreate : Muxer.create config now sink = .ok muxer)
    (hphase : ((opened muxer).run calls).muxer.phase = .writing)
    (hfault : ¬ ((opened muxer).run calls).Faulted) :
    ∃ ledger blocks,
      ((opened muxer).run calls).image.Recording ledger blocks := by
  cases inOrder_image hfresh hcreate hfault with
  | active h =>
      cases h with
      | configuring ledger h =>
          have hother : ((opened muxer).run calls).muxer.phase
            = .configuring := h.phase
          cases hphase.symm.trans hother
      | recording ledger blocks h => exact ⟨ledger, blocks, h⟩
  | finalized h =>
      have hother : ((opened muxer).run calls).muxer.phase
        = .finalized := h
      cases hphase.symm.trans hother

end

end Session

end AudioMux

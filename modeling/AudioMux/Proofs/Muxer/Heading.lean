/-
What is said about a file as a whole, apart from its tracks: the timescale
of the movie, how priming is signaled, and the tags.

Such a thing (`Muxer.IsHeading`) has to do with neither the output nor the
tracks, so almost every call leaves it alone (`Call.keeps_heading`). Only
two calls are about it, and closing the file may add a tag of its own
(`metadata_addGaplessItem`). So before a file is closed the movie counts in the
ticks of its first track, and its metadata is a table that tags were added
to (`Session.headed_run`).
-/
import AudioMux.Proofs.Muxer.Durations
import AudioMux.Proofs.Muxer.Places
import AudioMux.Proofs.Tag.Table

namespace AudioMux

open AudioMux.Action

namespace Muxer

variable {σ α X : Type} {look : Muxer σ → X}

/-- Something about the file as a whole. -/
def IsHeading (look : Muxer σ → X) : Prop :=
  ∀ (muxer : Muxer σ) out headerEnd mediaStart mediaSize tracks phase,
    look { muxer with
      out := out
      headerEnd := headerEnd
      mediaStart := mediaStart
      mediaSize := mediaSize
      tracks := tracks
      phase := phase } = look muxer

theorem isHeading_timescale : IsHeading (Muxer.timescale (σ := σ)) :=
  fun _ _ _ _ _ _ _ => rfl

theorem isHeading_gapless : IsHeading (Muxer.gapless (σ := σ)) :=
  fun _ _ _ _ _ _ _ => rfl

theorem isHeading_metadata : IsHeading (Muxer.metadata (σ := σ)) :=
  fun _ _ _ _ _ _ _ => rfl

-- ================================================================= actions

section
variable (h : IsHeading look)

include h

theorem keeps_heading_onOutput (action : Writing σ α) :
    Keeps look (onOutput action) := by
  intro muxer
  unfold onOutput
  cases action muxer.out with
  | ok a out => exact h muxer out _ _ _ _ _
  | error failure out => exact h muxer out _ _ _ _ _

theorem keeps_heading_onTrack (index : Nat) (action : Tracking σ α) :
    Keeps look (onTrack index action) := by
  intro muxer
  unfold onTrack
  cases muxer.tracks[index]? with
  | none => rfl
  | some track =>
      dsimp only
      cases action (track, muxer.out) with
      | ok a state => exact h muxer _ _ _ _ _ _
      | error failure state => exact h muxer _ _ _ _ _ _

theorem keeps_heading_checkConfigurable :
    Keeps look (checkConfigurable (σ := σ)) :=
  keeps_bind (keeps_heading_onOutput h _) fun _ =>
    keeps_bind keeps_get fun _ => keeps_ite (fun _ => rfl) (keeps_pure _)

theorem keeps_heading_configureTrack (index : Nat)
    (change : Track → Track) : Keeps look (configureTrack index change) :=
  keeps_bind (keeps_heading_checkConfigurable h) fun _ =>
    keeps_heading_onTrack h index _

theorem keeps_heading_addTrack (codec : Codec) (timescale : UInt32) :
    Keeps look (addTrack codec timescale) := by
  refine keeps_bind (keeps_heading_checkConfigurable h) fun _ muxer => ?_
  rw [apply_bind_ok (apply_get _)]
  by_cases hphase : muxer.phase ≠ .configuring
  · rw [if_pos hphase]
    rfl
  rw [if_neg hphase]
  by_cases hmany : maxTracks ≤ muxer.tracks.length
  · rw [if_pos hmany]
    rfl
  rw [if_neg hmany]
  by_cases hzero : timescale = 0
  · rw [if_pos hzero]
    rfl
  rw [if_neg hzero]
  exact h muxer _ _ _ _ _ _

variable [Sink σ]

theorem keeps_heading_beginWriting : Keeps look (beginWriting (σ := σ)) := by
  refine keeps_bind (keeps_heading_checkConfigurable h) fun _ => ?_
  refine keeps_bind keeps_get fun muxer => ?_
  refine keeps_ite (keeps_throw_bind _ _) ?_
  refine keeps_bind (keeps_heading_onOutput h _) fun _ => ?_
  refine keeps_bind (keeps_heading_onOutput h _) fun headerEnd => ?_
  refine keeps_bind (keeps_modify fun _ => h _ _ _ _ _ _ _) fun _ => ?_
  refine keeps_bind (keeps_heading_onOutput h _) fun _ => ?_
  refine keeps_bind (keeps_discard (keeps_heading_onOutput h _)) fun _ => ?_
  exact keeps_bind (keeps_heading_onOutput h _) fun mediaStart =>
    keeps_modify fun _ => h _ _ _ _ _ _ _

theorem keeps_heading_appendSample (index : Nat) (data : Bytes)
    (duration : UInt32) :
    Keeps look (appendSample index data duration) := by
  refine keeps_bind (keeps_heading_onOutput h _) fun _ => ?_
  refine keeps_bind keeps_get fun muxer => ?_
  refine keeps_ite (keeps_throw_bind _ _) ?_
  exact keeps_bind (keeps_heading_onTrack h index _) fun flushed =>
    keeps_modify fun _ => h _ _ _ _ _ _ _

theorem keeps_heading_finishTracks :
    Keeps look (finishTracks (σ := σ)) := by
  refine keeps_bind keeps_get fun muxer => keeps_forM (fun index => ?_) _
  exact keeps_bind (keeps_heading_onTrack h index _) fun flushed =>
    keeps_modify fun _ => h _ _ _ _ _ _ _

theorem keeps_heading_writeMediaHeader :
    Keeps look (writeMediaHeader (σ := σ)) :=
  keeps_bind keeps_get fun _ =>
    keeps_bind (keeps_heading_onOutput h _) fun _ =>
      keeps_bind (keeps_heading_onOutput h _) fun _ =>
        keeps_heading_onOutput h _

end

-- ==================================================================== tags

/-- Storing a tag is an attempt to add it to the metadata. -/
theorem metadata_storeTag (tag : Tag) (muxer : Muxer σ) :
    (after (storeTag tag muxer)).metadata = muxer.metadata.attempt tag := by
  unfold storeTag TagTable.attempt
  rw [apply_bind_ok (apply_get _)]
  cases muxer.metadata.add tag with
  | error failure => rfl
  | ok metadata => rfl

/-- A tag is added, unless that is not allowed. -/
theorem metadata_addTag (tag : Tag) (muxer : Muxer σ) :
    (after (addTag tag muxer)).metadata = muxer.metadata
      ∨ (after (addTag tag muxer)).metadata
        = muxer.metadata.attempt tag := by
  have hcheck := keeps_heading_checkConfigurable isHeading_metadata muxer
  unfold addTag
  cases hrun : checkConfigurable muxer with
  | error failure checked =>
      rw [hrun] at hcheck
      rw [apply_bind_error hrun]
      exact Or.inl hcheck
  | ok _ checked =>
      rw [hrun] at hcheck
      have hcheck : checked.metadata = muxer.metadata := hcheck
      rw [apply_bind_ok hrun, metadata_storeTag, hcheck]
      exact Or.inr rfl

/-- The item that is added when the file is closed, if there is one. -/
def gaplessItem? (muxer : Muxer σ) : Option Tag :=
  if muxer.gapless.hasItem then
    muxer.tracks.head?.bind fun track =>
      if track.hasPriming then
        some (.freeForm gaplessItemName
          (gaplessItemText track.delay track.padding
            track.presentationDuration))
      else none
  else none

theorem metadata_addGaplessItem (muxer : Muxer σ) :
    (after (addGaplessItem muxer)).metadata
      = muxer.gaplessItem?.toList.foldl TagTable.attempt
          muxer.metadata := by
  unfold addGaplessItem gaplessItem?
  rw [apply_bind_ok (apply_get _)]
  by_cases hmode : muxer.gapless.hasItem = true
  · rw [if_pos hmode, if_pos hmode]
    cases muxer.tracks.head? with
    | none => rfl
    | some track =>
        dsimp only [Option.bind_some]
        by_cases hpriming : track.hasPriming = true
        · rw [if_pos hpriming, if_pos hpriming]
          exact metadata_storeTag _ muxer
        · rw [if_neg hpriming, if_neg hpriming]
          rfl
  · rw [if_neg hmode, if_neg hmode]
    rfl

end Muxer

-- =================================================================== calls

namespace Call

variable {σ X : Type} [Sink σ]

/-- Whether a call is about the file as a whole. -/
def heads : Call → Bool
  | setGapless _ | addTag _ | finalize _ => true
  | _ => false

theorem keeps_heading {look : Muxer σ → X} (h : Muxer.IsHeading look)
    {call : Call} (hcall : call.heads = false) :
    Keeps look (call.perform (σ := σ)) := by
  cases call with
  | addTrack codec timescale =>
      exact keeps_discard (Muxer.keeps_heading_addTrack h codec timescale)
  | setChannels index | setFixedDuration index | setDecoderInfo index
  | setVariableBitrate index | setPriming index =>
      exact Muxer.keeps_heading_configureTrack h index _
  | beginWriting => exact Muxer.keeps_heading_beginWriting h
  | appendSample index data duration =>
      exact Muxer.keeps_heading_appendSample h index data duration
  | setGapless | addTag | finalize => cases hcall

/-- No call changes the timescale of the movie. -/
theorem keeps_timescale {call : Call}
    (hcall : ∀ optimize, call ≠ .finalize optimize) :
    Keeps Muxer.timescale (call.perform (σ := σ)) := by
  have hcheck := Muxer.keeps_heading_checkConfigurable
    (Muxer.isHeading_timescale (σ := σ))
  by_cases hheads : call.heads = false
  · exact keeps_heading Muxer.isHeading_timescale hheads
  cases call with
  | setGapless mode =>
      exact keeps_bind hcheck fun _ => keeps_modify fun _ => rfl
  | addTag tag =>
      exact keeps_bind hcheck fun _ => Muxer.keeps_storeTag
        ⟨fun _ _ => rfl, fun _ _ => rfl, fun _ _ => rfl⟩ tag
  | finalize optimize => exact absurd rfl (hcall optimize)
  | addTrack | setChannels | setFixedDuration | setDecoderInfo
  | setVariableBitrate | setPriming | beginWriting | appendSample =>
      exact absurd rfl hheads

/-- Tags are added to the metadata, and nothing else is done with it. -/
theorem exists_metadata {call : Call}
    (hcall : ∀ optimize, call ≠ .finalize optimize) (muxer : Muxer σ) :
    ∃ tags : List Tag, (after (call.perform muxer)).metadata
      = tags.foldl TagTable.attempt muxer.metadata := by
  have hnone : ∀ {next : Muxer σ}, next.metadata = muxer.metadata →
      ∃ tags : List Tag, next.metadata
        = tags.foldl TagTable.attempt muxer.metadata :=
    fun hsame => ⟨[], hsame⟩
  by_cases hheads : call.heads = false
  · exact hnone (keeps_heading Muxer.isHeading_metadata hheads muxer)
  cases call with
  | setGapless mode =>
      refine hnone (keeps_bind (Muxer.keeps_heading_checkConfigurable
        Muxer.isHeading_metadata) (fun _ => ?_) muxer)
      exact keeps_modify fun _ => rfl
  | addTag tag =>
      rcases Muxer.metadata_addTag tag muxer with hsame | hadded
      · exact hnone hsame
      · exact ⟨[tag], hadded⟩
  | finalize optimize => exact absurd rfl (hcall optimize)
  | addTrack | setChannels | setFixedDuration | setDecoderInfo
  | setVariableBitrate | setPriming | beginWriting | appendSample =>
      exact absurd rfl hheads

end Call

-- ============================================================== the invariant

namespace Muxer

variable {σ : Type} {muxer next : Muxer σ}

/-- The movie counts in the ticks of the first track, and the metadata is
what became of some tags. -/
structure Headed (muxer : Muxer σ) : Prop where
  timescale : (muxer.settings Track.timescale).head?
    = some muxer.timescale
  metadata : ∃ tags, muxer.metadata = TagTable.addAll tags

theorem headed_of_create {config : MuxerConfig} {now : UInt64} {sink : σ}
    (h : create config now sink = .ok muxer) : muxer.Headed := by
  unfold create at h
  split at h
  · cases h
  split at h
  · cases h
  · cases h
    exact ⟨rfl, [], rfl⟩

variable [Sink σ]

/-- The first track stays the first, and keeps its timescale. -/
theorem head_timescale_perform (call : Call) {timescale : UInt32}
    (h : (muxer.settings Track.timescale).head? = some timescale) :
    ((after (call.perform muxer)).settings Track.timescale).head?
      = some timescale := by
  by_cases hcall : ∃ codec timescale, call = .addTrack codec timescale
  · obtain ⟨codec, added, rfl⟩ := hcall
    have hsettings : (after (Call.perform (.addTrack codec added)
        muxer)).settings Track.timescale
      = (after (addTrack codec added muxer)).tracks.map Track.timescale :=
      congrArg (settings _) (after_discard _ _)
    rw [hsettings]
    rcases addTrack_cases muxer codec added with
      ⟨_, next, hrun, htracks⟩ | ⟨_, next, hrun, _, htracks⟩
    · rw [hrun]
      unfold after
      rw [htracks]
      exact h
    · rw [hrun]
      unfold after
      rw [htracks, List.map_append, List.head?_append]
      exact congrArg (Option.or · _) h
  · rw [Call.keeps_timescales (fun codec timescale heq =>
      hcall ⟨codec, timescale, heq⟩) muxer]
    exact h

theorem Headed.perform (h : muxer.Headed) {call : Call}
    (hcall : ∀ optimize, call ≠ .finalize optimize) :
    (after (call.perform muxer)).Headed := by
  obtain ⟨tags, htags⟩ := h.metadata
  obtain ⟨more, hmore⟩ := Call.exists_metadata hcall muxer
  refine ⟨?_, tags ++ more, ?_⟩
  · rw [Call.keeps_timescale hcall]
    exact head_timescale_perform call h.timescale
  · rw [hmore, htags]
    exact (List.foldl_append ..).symm

/-- A muxer that agrees to be finalized is finalized however that ends, and
otherwise nothing happens. -/
theorem finalize_cases (optimize : Bool) (muxer : Muxer σ) :
    after (finalize optimize muxer) = muxer
      ∨ (after (finalize optimize muxer)).phase = .finalized := by
  by_cases hfault : muxer.out.fault?.isSome
  · have hrefuse := (Call.finalize optimize).perform_of_fault hfault
    exact Or.inl (congrArg after hrefuse)
  have hnone : muxer.out.fault? = none := by simpa using hfault
  by_cases hphase : muxer.phase = .writing
  · rw [finalize_of_writing hnone hphase]
    exact Or.inr (phase_closeFile optimize muxer)
  refine Or.inl ?_
  unfold finalize
  rw [apply_bind_ok (Call.checkFault_of_no_fault hnone),
    apply_bind_ok (apply_get _)]
  cases hother : muxer.phase with
  | writing => exact absurd hother hphase
  | configuring => rfl
  | finalized => rfl

end Muxer

namespace Session

variable {σ : Type} [Sink σ]

/-- Until a muxer is finalized, what is said about its file is in order. -/
theorem headed_run {config : MuxerConfig} {now : UInt64} {sink : σ}
    {muxer : Muxer σ} (hcreate : Muxer.create config now sink = .ok muxer)
    (calls : List Call) :
    ((opened muxer).run calls).muxer.phase = .finalized
      ∨ ((opened muxer).run calls).muxer.Headed := by
  refine run_induction (P := fun session : Session σ =>
    session.muxer.phase = .finalized ∨ session.muxer.Headed)
    (Or.inr (Muxer.headed_of_create hcreate)) ?_ calls
  rintro session call (hphase | h)
  · obtain ⟨failure, hrefuse⟩ := call.perform_of_finalized hphase
    rw [proceed_error call hrefuse]
    exact Or.inl hphase
  rw [muxer_proceed]
  by_cases hcall : ∃ optimize, call = .finalize optimize
  · obtain ⟨optimize, rfl⟩ := hcall
    rcases Muxer.finalize_cases optimize session.muxer with hsame | hphase
    · exact Or.inr (hsame.symm ▸ h)
    · exact Or.inl hphase
  · exact Or.inr (h.perform fun optimize heq => hcall ⟨optimize, heq⟩)

end Session

-- ================================================================== closing

/-- What is to be skipped of a track. -/
def Track.skips (track : Track) : UInt32 × UInt32 :=
  (track.delay, track.padding)

theorem Track.isSetting_skips : Track.IsSetting Track.skips :=
  ⟨fun _ _ => rfl, fun _ _ _ => rfl, fun _ _ => rfl⟩

namespace Muxer

theorem aside_timescale {σ : Type} : Aside (Muxer.timescale (σ := σ)) :=
  ⟨fun _ _ => rfl, fun _ _ => rfl, fun _ _ => rfl⟩

theorem aside_gapless {σ : Type} : Aside (Muxer.gapless (σ := σ)) :=
  ⟨fun _ _ => rfl, fun _ _ => rfl, fun _ _ => rfl⟩

theorem aside_gaplessItem? {σ : Type} :
    Aside (Muxer.gaplessItem? (σ := σ)) :=
  ⟨fun _ _ => rfl, fun _ _ => rfl, fun _ _ => rfl⟩

/-- What a muxer says in the movie box was said before it began to close its
file, and one item more. -/
theorem closed_heading {session : Session FlatFile} {ledger : List Entry}
    {blocks : List Block} (h : session.Recording ledger blocks)
    (hheaded : session.muxer.Headed) {optimize : Bool}
    {muxer : Muxer FlatFile}
    (hfinalize : finalize optimize session.muxer = .ok () muxer) :
    ∃ done ledger' blocks' gap,
      Closed optimize muxer session.intakes done ledger' blocks' gap
        ∧ done.gapless = session.muxer.gapless
        ∧ done.settings Track.skips = session.muxer.settings Track.skips
        ∧ (done.settings Track.timescale).head? = some done.timescale
        ∧ ∃ tags, done.metadata
          = TagTable.addAll (tags ++ done.gaplessItem?.toList) := by
  obtain ⟨finished, tagged, done, ledger', blocks', hfinish, hitem, hseal,
    hsealed, hfinal⟩ := seal_of_recording h
  rw [hfinal] at hfinalize
  -- Finishing the tracks has nothing to do with any of this.
  have hfinished : ∀ {X : Type} {look : Muxer FlatFile → X},
      Keeps look finishTracks → look finished
        = look { session.muxer with phase := .finalized } := by
    intro X look hkeeps
    have hsame := hkeeps { session.muxer with phase := .finalized }
    rw [hfinish] at hsame
    exact hsame
  have hgapless : done.gapless = session.muxer.gapless :=
    (aside_gapless.seal hitem hseal).trans
      (hfinished (keeps_heading_finishTracks isHeading_gapless))
  have htimescale : done.timescale = session.muxer.timescale :=
    (aside_timescale.seal hitem hseal).trans
      (hfinished (keeps_heading_finishTracks isHeading_timescale))
  have hsettings : ∀ {X : Type} {look : Track → X}, Track.IsSetting look →
      done.settings look = session.muxer.settings look :=
    fun hsetting => ((aside_settings _).seal hitem hseal).trans
      (hfinished (keeps_settings_finishTracks hsetting))
  -- The item is the only tag that is added.
  have hmetadata : ∃ tags, done.metadata
      = TagTable.addAll (tags ++ done.gaplessItem?.toList) := by
    obtain ⟨tags, htags⟩ := hheaded.metadata
    have hfirst : finished.metadata = session.muxer.metadata :=
      hfinished (keeps_heading_finishTracks isHeading_metadata)
    have hadded := metadata_addGaplessItem finished
    have hlast := keeps_heading_writeMediaHeader isHeading_metadata tagged
    rw [hitem, hfirst, htags, ← aside_gaplessItem?.seal hitem hseal] at hadded
    rw [hseal] at hlast
    exact ⟨tags, hlast.trans (hadded.trans (List.foldl_append ..).symm)⟩
  rcases hsealed.addMovie_cases optimize with
    ⟨final, gap, hok, _, hclosed⟩ | ⟨failure, final, herror, _⟩
  · cases hfinalize.symm.trans hok
    refine ⟨done, ledger', blocks', gap, hclosed, hgapless,
      hsettings Track.isSetting_skips, ?_, hmetadata⟩
    rw [hsettings Track.isSetting_timescale, htimescale]
    exact hheaded.timescale
  · cases hfinalize.symm.trans herror

end Muxer

/-- Whatever was called, on whatever sink that is faithful and was empty:
this is so once the muxer has been finalized. -/
theorem Session.exists_closed_heading {σ : Type} [Sink σ] [FaithfulSink σ]
    {config : MuxerConfig} {now : UInt64} {sink : σ}
    {muxer final : Muxer σ} {calls : List Call} {optimize : Bool}
    (hfresh : FaithfulSink.view sink = .empty)
    (hcreate : Muxer.create config now sink = .ok muxer)
    (hfinalize : Muxer.finalize optimize ((opened muxer).run calls).muxer
      = .ok () final) :
    ∃ done ledger blocks gap, Muxer.Closed optimize final.image
        ((opened muxer).run calls).intakes done ledger blocks gap
      ∧ done.gapless = ((opened muxer).run calls).muxer.gapless
      ∧ done.settings Track.skips
        = ((opened muxer).run calls).muxer.settings Track.skips
      ∧ (done.settings Track.timescale).head? = some done.timescale
      ∧ ∃ tags, done.metadata
        = TagTable.addAll (tags ++ done.gaplessItem?.toList) := by
  obtain ⟨hphase, _⟩ := Muxer.writing_of_finalize hfinalize
  obtain ⟨ledger, blocks, h⟩ :=
    recording_of_finalize hfresh hcreate hfinalize
  rcases headed_run hcreate calls with hfinalized | hheaded
  · cases hphase.symm.trans hfinalized
  exact Muxer.closed_heading h ⟨hheaded.timescale, hheaded.metadata⟩
    ((Muxer.mirrors_finalize optimize _).1 () final hfinalize)

end AudioMux

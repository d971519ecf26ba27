/-
What only describes the file may be said at any time.

Some calls only say what the movie box is to tell about a track or about
the whole file: the number of channels, what the decoder asks for, whether
the bit rate varies, the priming, how it is signaled, the tags. A muxer
keeps all of that apart from its tables and from the file, which are bare
of it (`Muxer.bare`). A call that describes changes the description and
nothing else (`Active.perform_describing`); any other call goes the same
way whatever the description is, and leaves it alone
(`Active.perform_bare`).

So a run consists of two runs that know nothing of each other, one of the
bare muxer and one of the description (`parts_of_forM`, `forM_of_parts`),
and it does not matter how they are put together
(`description_any_time`).
-/
import AudioMux.Proofs.Muxer.Lifecycle

namespace AudioMux

-- ========================================================= the description

/-- What is told about a track. -/
structure TrackDescription where
  channels : UInt16
  decoderInfo : Bytes
  variableBitrate : Bool
  delay : UInt32
  padding : UInt32

/-- What is told about a track unless something else is said. -/
def TrackDescription.initial : TrackDescription := ⟨2, [], false, 0, 0⟩

/-- What is told about a file and its tracks, by their index. -/
structure Description where
  gapless : GaplessMode
  metadata : TagTable
  tracks : Nat → TrackDescription

/-- The description with that of one track changed. -/
def Description.onTrack (index : Nat)
    (change : TrackDescription → TrackDescription)
    (description : Description) : Description :=
  { description with tracks := fun i =>
      if i = index then change (description.tracks i)
      else description.tracks i }

namespace Track

def description (track : Track) : TrackDescription :=
  ⟨track.channels, track.decoderInfo, track.variableBitrate, track.delay,
    track.padding⟩

/-- The track as if nothing had been told about it. -/
def bare (track : Track) : Track :=
  { track with
    channels := 2
    decoderInfo := []
    variableBitrate := false
    delay := 0
    padding := 0 }

theorem eq_of_bare {track track' : Track} (hbare : track.bare = track'.bare)
    (h : track.description = track'.description) : track = track' := by
  cases track
  cases track'
  cases hbare
  cases h
  rfl

/-- A track grows in the same way whatever is told about it. -/
theorem bare_grown (track : Track) (data : Bytes) (duration : UInt32)
    (position : Nat) :
    (track.grown data duration position).bare
      = track.bare.grown data duration position := by
  unfold grown withRoom
  by_cases h : track.chunks.needsNewChunk duration track.timescale = true
  · have hbare : track.bare.chunks.needsNewChunk duration
      track.bare.timescale = true := h
    simp only [if_pos h, if_pos hbare]
    rfl
  · have hbare : ¬ track.bare.chunks.needsNewChunk duration
      track.bare.timescale = true := h
    simp only [if_neg h, if_neg hbare]
    rfl

theorem description_grown (track : Track) (data : Bytes)
    (duration : UInt32) (position : Nat) :
    (track.grown data duration position).description
      = track.description := by
  unfold grown withRoom
  split <;> rfl

end Track

namespace Muxer

variable {σ : Type}

def description (muxer : Muxer σ) : Description where
  gapless := muxer.gapless
  metadata := muxer.metadata
  tracks index := muxer.tracks[index]?.elim .initial Track.description

/-- The muxer as if nothing had been told about the file. -/
def bare (muxer : Muxer σ) : Muxer σ :=
  { muxer with
    gapless := .none
    metadata := .empty
    tracks := muxer.tracks.map Track.bare }

/-- A muxer is what it is bare of its description, and the
description. -/
theorem eq_of_bare {muxer muxer' : Muxer σ}
    (hbare : muxer.bare = muxer'.bare)
    (h : muxer.description = muxer'.description) : muxer = muxer' := by
  have htracks : muxer.tracks = muxer'.tracks := by
    have hmap : muxer.tracks.map Track.bare
        = muxer'.tracks.map Track.bare := congrArg tracks hbare
    have hlength : muxer.tracks.length = muxer'.tracks.length := by
      simpa using congrArg List.length hmap
    refine List.ext_getElem hlength fun i hi hi' => ?_
    refine Track.eq_of_bare ?_ ?_
    · have hi? := congrArg (·[i]?) hmap
      simpa [hi, hi'] using hi?
    · have hi? := congrFun (congrArg Description.tracks h) i
      simpa [description, hi, hi'] using hi?
  have hgapless : muxer.gapless = muxer'.gapless :=
    congrArg Description.gapless h
  have hmetadata : muxer.metadata = muxer'.metadata :=
    congrArg Description.metadata h
  cases muxer
  cases muxer'
  cases htracks
  cases hgapless
  cases hmetadata
  cases hbare
  rfl

theorem getElem?_bare {muxer : Muxer σ} {index : Nat} {track : Track}
    (h : muxer.tracks[index]? = some track) :
    muxer.bare.tracks[index]? = some track.bare := by
  show (muxer.tracks.map Track.bare)[index]? = _
  rw [List.getElem?_map, h]
  rfl

/-- A track is put in the place of one that is told the same about. -/
theorem tracks_set_same {tracks : List Track} {index : Nat}
    {track track' : Track} (htrack : tracks[index]? = some track)
    (h : track'.description = track.description) (i : Nat) :
    (tracks.set index track')[i]?.elim .initial Track.description
      = tracks[i]?.elim .initial Track.description := by
  by_cases hi : index = i
  · subst hi
    have hlt := (List.getElem?_eq_some_iff.mp htrack).1
    rw [List.getElem?_set_self hlt, htrack]
    exact h
  · rw [List.getElem?_set_ne hi]

end Muxer

-- =================================================================== calls

namespace Call

/-- Whether a call only describes the file. -/
def describes : Call → Bool
  | setChannels _ _ | setDecoderInfo _ _ | setVariableBitrate _ _
  | setPriming _ _ _ | setGapless _ | addTag _ => true
  | addTrack _ _ | setFixedDuration _ _ | beginWriting
  | appendSample _ _ _ | finalize _ => false

/-- What a call does to the description if it succeeds. -/
def describe : Call → Description → Description
  | setChannels index channels, told =>
      told.onTrack index fun track => { track with channels := channels }
  | setDecoderInfo index info, told =>
      told.onTrack index fun track => { track with decoderInfo := info }
  | setVariableBitrate index varies, told =>
      told.onTrack index fun track => { track with variableBitrate := varies }
  | setPriming index delay padding, told =>
      told.onTrack index fun track =>
        { track with delay := delay, padding := padding }
  | setGapless mode, told => { told with gapless := mode }
  | addTag tag, told =>
      { told with
        metadata := (told.metadata.add tag).toOption.getD told.metadata }
  | _, told => told

/-- The track that a call describes. -/
def described? : Call → Option Nat
  | setChannels index _ | setDecoderInfo index _ | setVariableBitrate index _
  | setPriming index _ _ => some index
  | _ => none

/-- Each track that is described was there before, if there were `count`
tracks at first. -/
def NamesOnlyOld : Nat → List Call → Prop
  | _, [] => True
  | count, call :: calls =>
      (∀ index ∈ call.described?, index < count)
        ∧ NamesOnlyOld (call.tracksAfter count) calls

/-- A call that succeeds was permitted. -/
theorem permitted_of_ok {σ : Type} [Sink σ] {muxer next : Muxer σ}
    (hfault : muxer.out.fault? = none) {call : Call}
    (hok : call.perform muxer = .ok () next) : call.Permitted muxer := by
  by_contra hrefused
  obtain ⟨reason, herror⟩ := refused hfault hrefused
  cases hok.symm.trans herror

/-- What a call needs has nothing to do with the description. -/
theorem permitted_bare {σ : Type} {muxer : Muxer σ} {call : Call} :
    call.Permitted muxer.bare ↔ call.Permitted muxer := by
  have hlength : muxer.bare.tracks.length = muxer.tracks.length :=
    List.length_map _
  cases call <;> simp only [Permitted, hlength] <;> rfl

end Call

-- ================================================================ one call

namespace Muxer

variable {muxer : Muxer FlatFile} {file : FlatFile}

/-- A setter of something that is only told about a track. -/
theorem configureTrack_describing (hout : muxer.out = .ofSink file)
    (hphase : muxer.phase ≠ .finalized) {index : Nat}
    (hindex : index < muxer.tracks.length)
    (change' : TrackDescription → TrackDescription) {change : Track → Track}
    (hbare : ∀ track, (change track).bare = track.bare)
    (htold : ∀ track, (change track).description = change' track.description) :
    ∃ next, configureTrack index change muxer = .ok () next
      ∧ next.bare = muxer.bare
      ∧ next.description = muxer.description.onTrack index change' := by
  have htrack := List.getElem?_eq_getElem hindex
  refine ⟨_, configureTrack_flat hout hphase htrack change, ?_, ?_⟩
  · have hsame : (muxer.tracks.set index
        (change muxer.tracks[index])).map Track.bare
          = muxer.tracks.map Track.bare := by
      rw [List.map_set, hbare]
      exact set_of_getElem? (getElem?_bare htrack)
    unfold bare
    simp only [hsame]
  · have hsame : ∀ i, ((muxer.tracks.set index
        (change muxer.tracks[index]))[i]?).elim .initial Track.description
          = (muxer.description.onTrack index change').tracks i := by
      intro i
      show _ = if i = index then _ else _
      by_cases hi : i = index
      · subst hi
        rw [if_pos rfl, List.getElem?_set_self hindex, Option.elim_some, htold]
        refine congrArg change' ?_
        show _ = (muxer.tracks[i]?).elim _ _
        rw [htrack]
        rfl
      · rw [if_neg hi, List.getElem?_set_ne (Ne.symm hi)]
        rfl
    exact congrArg (Description.mk muxer.gapless muxer.metadata)
      (funext hsame)

end Muxer

namespace Session

variable {session : Session FlatFile}

/-- A call that describes changes the description only. -/
theorem Active.perform_describing (h : session.Active) {call : Call}
    (hcall : call.describes = true)
    (hpermitted : call.Permitted session.muxer) :
    ∃ next, call.perform session.muxer = .ok () next
      ∧ next.bare = session.muxer.bare
      ∧ next.description = call.describe session.muxer.description := by
  obtain ⟨file, hout⟩ := h.out
  have hconf := Muxer.checkConfigurable_flat hout h.phase
  cases call with
  | setChannels index channels =>
      exact Muxer.configureTrack_describing hout h.phase hpermitted.2
        (fun told => { told with channels := channels }) (fun _ => rfl)
        fun _ => rfl
  | setDecoderInfo index info =>
      exact Muxer.configureTrack_describing hout h.phase hpermitted.2
        (fun told => { told with decoderInfo := info }) (fun _ => rfl)
        fun _ => rfl
  | setVariableBitrate index varies =>
      exact Muxer.configureTrack_describing hout h.phase hpermitted.2
        (fun told => { told with variableBitrate := varies }) (fun _ => rfl)
        fun _ => rfl
  | setPriming index delay padding =>
      exact Muxer.configureTrack_describing hout h.phase hpermitted.2
        (fun told => { told with delay := delay, padding := padding })
        (fun _ => rfl) fun _ => rfl
  | setGapless mode => exact ⟨_, Action.apply_bind_ok hconf, rfl, rfl⟩
  | addTag tag =>
      obtain ⟨_, stored?, hencode⟩ := hpermitted
      refine ⟨_, Muxer.addTag_ok h.fault h.phase hencode, rfl, ?_⟩
      refine congrArg (fun metadata => Description.mk _ metadata _) ?_
      show _ = (session.muxer.metadata.add tag).toOption.getD _
      rw [TagTable.add_of_encode hencode]
      rfl
  | addTrack | setFixedDuration | beginWriting | appendSample
  | finalize => cases hcall

/-- A call that does not describe does the same to the bare muxer, and
leaves the description alone. -/
theorem Active.perform_bare (h : session.Active) {call : Call}
    (hcall : call.describes = false)
    (hopen : ∀ optimize, call ≠ .finalize optimize)
    (hpermitted : call.Permitted session.muxer) :
    ∃ next, call.perform session.muxer = .ok () next
      ∧ call.perform session.muxer.bare = .ok () next.bare
      ∧ next.description = session.muxer.description := by
  obtain ⟨file, hout⟩ := h.out
  have hbareOut : session.muxer.bare.out = .ofSink file := hout
  have hbarePhase : session.muxer.bare.phase ≠ .finalized := h.phase
  cases call with
  | addTrack codec timescale =>
      obtain ⟨hphase, hfew, hscale⟩ := hpermitted
      have hfew' : session.muxer.bare.tracks.length < maxTracks := by
        show (session.muxer.tracks.map Track.bare).length < maxTracks
        rw [List.length_map]
        exact hfew
      refine ⟨_, Action.apply_discard_ok
        (Muxer.addTrack_flat hout hphase hfew hscale), ?_, ?_⟩
      · refine (Action.apply_discard_ok
          (Muxer.addTrack_flat hbareOut hphase hfew' hscale)).trans ?_
        unfold Muxer.bare
        simp only [List.map_append]
        rfl
      · -- Nothing is told about the new track, nor was there before it.
        refine congrArg (Description.mk _ _) (funext fun i => ?_)
        rw [List.getElem?_append]
        split
        · rfl
        · next hi =>
          rw [List.getElem?_eq_none (Nat.le_of_not_lt hi)]
          cases i - session.muxer.tracks.length <;> rfl
  | setFixedDuration index duration =>
      have htrack := List.getElem?_eq_getElem hpermitted.2
      have hbare := Muxer.getElem?_bare htrack
      refine ⟨_, Muxer.configureTrack_flat hout h.phase htrack _, ?_, ?_⟩
      · refine (Muxer.configureTrack_flat hbareOut hbarePhase hbare _).trans ?_
        unfold Muxer.bare
        simp only [List.map_set]
        rfl
      · exact congrArg (Description.mk _ _)
          (funext (Muxer.tracks_set_same htrack rfl))
  | beginWriting =>
      cases h with
      | configuring ledger h =>
          exact ⟨_, Muxer.beginWriting_flat h.out h.phase,
            Muxer.beginWriting_flat h.out h.phase, rfl⟩
      | recording ledger blocks h => cases h.phase.symm.trans hpermitted
  | appendSample index data duration =>
      obtain ⟨hphase, hindex, hdata⟩ := hpermitted
      have hfits : data.length ≤ Box.maxWord32 := by
        unfold Box.maxWord32
        omega
      have htrack := List.getElem?_eq_getElem hindex
      have hbare := Muxer.getElem?_bare htrack
      refine ⟨_, Muxer.appendSample_flat hout hphase htrack hfits, ?_, ?_⟩
      · refine (Muxer.appendSample_flat hbareOut hphase hbare hfits).trans ?_
        unfold Muxer.bare
        simp only [List.map_set, Track.bare_grown]
        rfl
      · exact congrArg (Description.mk _ _) (funext
          (Muxer.tracks_set_same htrack (Track.description_grown _ _ _ _)))
  | finalize optimize => exact absurd rfl (hopen optimize)
  | setChannels | setDecoderInfo | setVariableBitrate | setPriming
  | setGapless | addTag => cases hcall

-- ==================================================================== runs

/-- A call that describes needs a file that is not closed, the track it
names, and a tag that can be encoded. -/
theorem Active.permitted_describing (h : session.Active) {call : Call}
    (hcall : call.describes = true)
    (hnamed : ∀ index ∈ call.described?, index < session.muxer.tracks.length)
    (htag : ∀ tag, call = .addTag tag → ∃ stored?, tag.encode = .ok stored?) :
    call.Permitted session.muxer := by
  cases call with
  | setChannels | setDecoderInfo | setVariableBitrate | setPriming =>
      exact ⟨h.phase, hnamed _ rfl⟩
  | setGapless mode => exact h.phase
  | addTag tag => exact ⟨h.phase, htag tag rfl⟩
  | addTrack | setFixedDuration | beginWriting | appendSample
  | finalize => cases hcall

/-- What calls tell, one after the other. -/
def tell (calls : List Call) (told : Description) : Description :=
  (calls.filter Call.describes).foldl (fun told call => call.describe told)
    told

/-- Calls that leave the file open have the same success on the bare
muxer without those that describe, and those make up the description. -/
theorem Active.parts_of_forM (h : session.Active) {calls : List Call}
    (hopen : ∀ call ∈ calls, ∀ optimize, call ≠ .finalize optimize)
    {next : Muxer FlatFile}
    (hrun : calls.forM Call.perform session.muxer = .ok ⟨⟩ next) :
    (calls.filter fun call => ! call.describes).forM Call.perform
        session.muxer.bare = .ok ⟨⟩ next.bare
      ∧ next.description = tell calls session.muxer.description
      ∧ ∀ tag, .addTag tag ∈ calls → ∃ stored?, tag.encode = .ok stored? := by
  induction calls generalizing session with
  | nil =>
      cases hrun
      exact ⟨rfl, rfl, nofun⟩
  | cons call calls ih =>
      have hfirst := hopen call List.mem_cons_self
      obtain ⟨_, between, hok, hrest⟩ := Action.bind_eq_ok
        (show (call.perform >>= fun _ => calls.forM Call.perform)
          session.muxer = _ from hrun)
      have hpermitted := Call.permitted_of_ok h.fault hok
      have hstep : session.proceed call
          = ⟨between, call.record session.intakes⟩ := proceed_ok call hok
      have hactive := h.proceed hfirst
      rw [hstep] at hactive
      obtain ⟨hbare, htold, htags⟩ := ih hactive
        (fun other hother => hopen other (List.mem_cons_of_mem _ hother))
        hrest
      have htags' : ∀ tag, .addTag tag ∈ call :: calls →
          ∃ stored?, tag.encode = .ok stored? := by
        intro tag htag
        rcases List.mem_cons.mp htag with rfl | hlater
        · exact hpermitted.2
        · exact htags tag hlater
      unfold tell at htold ⊢
      cases hcall : call.describes with
      | true =>
          obtain ⟨other, hother, hsame, hchanged⟩ :=
            h.perform_describing hcall hpermitted
          cases hok.symm.trans hother
          rw [List.filter_cons_of_neg (by simp [hcall]),
            List.filter_cons_of_pos hcall, ← hsame, List.foldl_cons,
            ← hchanged]
          exact ⟨hbare, htold, htags'⟩
      | false =>
          obtain ⟨other, hother, hsame, hkept⟩ :=
            h.perform_bare hcall hfirst hpermitted
          cases hok.symm.trans hother
          rw [List.filter_cons_of_pos (by simp [hcall]),
            List.filter_cons_of_neg (by simp [hcall]), ← hkept]
          exact ⟨(Action.apply_bind_ok hsame).trans hbare, htold, htags'⟩

/-- The other way round: if the bare muxer takes the calls that do not
describe, then the muxer takes all of them, wherever those that describe
stand behind the tracks they name. -/
theorem Active.forM_of_parts (h : session.Active) {calls : List Call}
    (hopen : ∀ call ∈ calls, ∀ optimize, call ≠ .finalize optimize)
    (hnamed : Call.NamesOnlyOld session.muxer.tracks.length calls)
    (htags : ∀ tag, .addTag tag ∈ calls →
      ∃ stored?, tag.encode = .ok stored?)
    {bare : Muxer FlatFile}
    (hrun : (calls.filter fun call => ! call.describes).forM Call.perform
      session.muxer.bare = .ok ⟨⟩ bare) :
    ∃ next, calls.forM Call.perform session.muxer = .ok ⟨⟩ next
      ∧ next.bare = bare
      ∧ next.description = tell calls session.muxer.description := by
  induction calls generalizing session with
  | nil =>
      cases hrun
      exact ⟨session.muxer, rfl, rfl, rfl⟩
  | cons call calls ih =>
      obtain ⟨hnamedFirst, hnamedRest⟩ := hnamed
      have hfirst := hopen call List.mem_cons_self
      -- The first call succeeds, and the others go on from there.
      have hgo : ∀ {next : Muxer FlatFile}, call.Permitted session.muxer →
          call.perform session.muxer = .ok () next →
          (calls.filter fun call => ! call.describes).forM Call.perform
            next.bare = .ok ⟨⟩ bare →
          ∃ final, (call :: calls).forM Call.perform session.muxer
              = .ok ⟨⟩ final
            ∧ final.bare = bare
            ∧ final.description = tell calls next.description := by
        intro next hpermitted hok hrest
        obtain ⟨other, hother, _, hcount⟩ := h.accepts hfirst hpermitted
        cases hok.symm.trans hother
        have hactive := h.proceed hfirst
        rw [proceed_ok call hok] at hactive
        obtain ⟨final, hfinal, hbare, htold⟩ := ih hactive
          (fun other hother => hopen other (List.mem_cons_of_mem _ hother))
          (hcount ▸ hnamedRest)
          (fun tag htag => htags tag (List.mem_cons_of_mem _ htag)) hrest
        exact ⟨final, (Action.apply_bind_ok hok).trans hfinal, hbare, htold⟩
      cases hcall : call.describes with
      | true =>
          have hpermitted := h.permitted_describing hcall hnamedFirst
            fun tag htag => htags tag (htag ▸ List.mem_cons_self)
          obtain ⟨next, hok, hsame, hchanged⟩ :=
            h.perform_describing hcall hpermitted
          rw [List.filter_cons_of_neg (by simp [hcall]), ← hsame] at hrun
          obtain ⟨final, hfinal, hbare, htold⟩ := hgo hpermitted hok hrun
          refine ⟨final, hfinal, hbare, ?_⟩
          unfold tell at htold ⊢
          rw [List.filter_cons_of_pos hcall, List.foldl_cons, ← hchanged]
          exact htold
      | false =>
          rw [List.filter_cons_of_pos (by simp [hcall])] at hrun
          obtain ⟨_, between, hbetween, hrest⟩ := Action.bind_eq_ok
            (show (call.perform >>= fun _ => _) session.muxer.bare = _
              from hrun)
          have hfault : session.muxer.bare.out.fault? = none := h.fault
          have hpermitted := Call.permitted_bare.mp
            (Call.permitted_of_ok hfault hbetween)
          obtain ⟨next, hok, hsame, hkept⟩ :=
            h.perform_bare hcall hfirst hpermitted
          cases hbetween.symm.trans hsame
          obtain ⟨final, hfinal, hbare, htold⟩ := hgo hpermitted hok hrest
          refine ⟨final, hfinal, hbare, ?_⟩
          unfold tell at htold ⊢
          rw [List.filter_cons_of_neg (by simp [hcall]), ← hkept]
          exact htold

/-- A call to close the file is the last that succeeds. -/
theorem Active.open_of_forM (h : session.Active) {calls : List Call}
    {next : Muxer FlatFile}
    (hrun : calls.forM Call.perform session.muxer = .ok ⟨⟩ next)
    (hphase : next.phase ≠ .finalized) :
    ∀ call ∈ calls, ∀ optimize, call ≠ .finalize optimize := by
  induction calls generalizing session with
  | nil => exact nofun
  | cons call calls ih =>
      obtain ⟨_, between, hok, hrest⟩ := Action.bind_eq_ok
        (show (call.perform >>= fun _ => calls.forM Call.perform)
          session.muxer = _ from hrun)
      have hstep := proceed_ok call hok
      by_cases hfinal : ∃ optimize, call = .finalize optimize
      · obtain ⟨optimize, rfl⟩ := hfinal
        have hclosed : between.phase = .finalized := by
          have hpermitted := Call.permitted_of_ok h.fault hok
          obtain ⟨ledger, blocks, hrecording⟩ :=
            h.recording_of_writing hpermitted
          have hafter := hrecording.phase_proceed_finalize optimize
          rw [hstep] at hafter
          exact hafter
        cases calls with
        | nil =>
            cases hrest
            exact absurd hclosed hphase
        | cons later calls =>
            obtain ⟨_, _, hlater, _⟩ := Action.bind_eq_ok
              (show (later.perform >>= fun _ => calls.forM Call.perform)
                between = _ from hrest)
            obtain ⟨failure, hrefused⟩ := later.perform_of_finalized hclosed
            cases hlater.symm.trans hrefused
      · have hfirst : ∀ optimize, call ≠ .finalize optimize :=
          fun optimize heq => hfinal ⟨optimize, heq⟩
        have hactive := h.proceed hfirst
        rw [hstep] at hactive
        intro other hother
        rcases List.mem_cons.mp hother with rfl | hlater
        · exact hfirst
        · exact ih hactive hrest other hlater

end Session

-- ============================================================ rearrangements

/-- The same calls in another order: those that describe keep their order
and so do all others, and each track is described after it was added. -/
structure Rearranged (calls calls' : List Call) : Prop where
  describing : calls'.filter Call.describes = calls.filter Call.describes
  others : calls'.filter (fun call => ! call.describes)
    = calls.filter fun call => ! call.describes
  named : Call.NamesOnlyOld 1 calls'

/-- Rearranged calls lead a muxer on a flat file to the same state. -/
theorem forM_of_rearranged {config : MuxerConfig} {now : UInt64}
    {muxer : Muxer FlatFile}
    (hcreate : Muxer.create config now .empty = .ok muxer)
    {calls calls' : List Call} (h : Rearranged calls calls')
    {optimize : Bool} {final : Muxer FlatFile}
    (hrun : (calls ++ [Call.finalize optimize]).forM Call.perform muxer
      = .ok ⟨⟩ final) :
    (calls' ++ [Call.finalize optimize]).forM Call.perform muxer
      = .ok ⟨⟩ final := by
  obtain ⟨next, hcalls, hlast⟩ := Action.forM_append_eq_ok hrun
  have hactive := Session.active_opened hcreate
  have hcount : 1 = muxer.tracks.length := by
    unfold Muxer.create at hcreate
    split at hcreate
    · cases hcreate
    · split at hcreate <;> cases hcreate
      rfl
  have hphase : next.phase ≠ .finalized := by
    intro hclosed
    obtain ⟨_, _, hfinal, _⟩ := Action.bind_eq_ok
      (show ((Call.finalize optimize).perform >>= fun _ =>
        (pure ⟨⟩ : Muxing FlatFile PUnit)) next = _ from hlast)
    obtain ⟨failure, hrefused⟩ :=
      (Call.finalize optimize).perform_of_finalized hclosed
    cases hfinal.symm.trans hrefused
  have hopen := hactive.open_of_forM hcalls hphase
  have hopen' : ∀ call ∈ calls', ∀ optimize, call ≠ .finalize optimize := by
    intro call hcall optimize heq
    subst heq
    have hmem : Call.finalize optimize
        ∈ calls'.filter fun call => ! call.describes :=
      List.mem_filter.mpr ⟨hcall, rfl⟩
    rw [h.others] at hmem
    exact hopen _ (List.mem_filter.mp hmem).1 optimize rfl
  obtain ⟨hbare, htold, htags⟩ := hactive.parts_of_forM hopen hcalls
  have htags' : ∀ tag, .addTag tag ∈ calls' →
      ∃ stored?, tag.encode = .ok stored? := by
    intro tag htag
    have hmem : Call.addTag tag ∈ calls'.filter Call.describes :=
      List.mem_filter.mpr ⟨htag, rfl⟩
    rw [h.describing] at hmem
    exact htags tag (List.mem_filter.mp hmem).1
  rw [← h.others] at hbare
  obtain ⟨next', hcalls', hbare', htold'⟩ :=
    hactive.forM_of_parts hopen' (hcount ▸ h.named) htags' hbare
  have hsame : next' = next := by
    refine Muxer.eq_of_bare hbare' ?_
    rw [htold, htold']
    unfold Session.tell
    rw [h.describing]
  rw [hsame] at hcalls'
  exact (Action.apply_forM_append hcalls').trans hlast

-- =============================================================== the theorem

/-- With no times to write, it does not matter when a muxer is created. -/
theorem Muxer.create_noTimestamp {σ : Type} {config : MuxerConfig}
    (h : config.noTimestamp = true) (now now' : UInt64) (sink : σ) :
    create config now sink = create config now' sink := by
  unfold create
  simp only [if_pos h]

section
variable {σ τ : Type} [Sink σ] [FaithfulSink σ] [Sink τ] [FaithfulSink τ]

/-- Late descriptions are as good as early ones: if all calls of a run
succeed, they succeed in any other order in which only the describing calls
have moved, on any sink that never fails, and the file is the same to the
last byte. -/
theorem description_any_time [NeverFails τ] {config : MuxerConfig}
    (htimes : config.noTimestamp = true) {now now' : UInt64} {sink : σ}
    {sink' : τ} (hfresh : FaithfulSink.view sink = .empty)
    (hfresh' : FaithfulSink.view sink' = .empty) {muxer : Muxer σ}
    {muxer' : Muxer τ} (hcreate : Muxer.create config now sink = .ok muxer)
    (hcreate' : Muxer.create config now' sink' = .ok muxer')
    {calls calls' : List Call} (h : Rearranged calls calls')
    {optimize : Bool} {final : Muxer σ}
    (hrun : (calls ++ [Call.finalize optimize]).forM Call.perform muxer
      = .ok ⟨⟩ final) :
    ∃ final', (calls' ++ [Call.finalize optimize]).forM Call.perform muxer'
        = .ok ⟨⟩ final'
      ∧ (FaithfulSink.view final'.out.sink).bytes
        = (FaithfulSink.view final.out.sink).bytes := by
  -- Both muxers start from the same one on an empty flat file.
  have hflat := Muxer.create_image hcreate
  have hflat' := Muxer.create_image hcreate'
  rw [hfresh] at hflat
  rw [hfresh', Muxer.create_noTimestamp htimes now' now, hflat] at hflat'
  have hsame : muxer.image = muxer'.image := Except.ok.inj hflat'
  have himage := (mirrors_forM Call.mirrors_perform _ muxer).1 ⟨⟩ final hrun
  have himage' := forM_of_rearranged hflat h himage
  rw [hsame] at himage'
  obtain ⟨_, final', hrun', _, hfinal⟩ :=
    (mirrors_forM Call.mirrors_perform _).exists_ok inferInstance himage'
  refine ⟨final', hrun', ?_⟩
  exact congrArg (fun other : Muxer FlatFile => other.out.sink.bytes) hfinal

end

-- ========================================================= a late description

/-- Two tracks that are described before anything is written. -/
def earlyDescription : List Call :=
  [.setPriming 0 2112 500, .addTrack .text 1000, .setDecoderInfo 1 [7],
    .setGapless .both, .addTag (.text Tag.Code.artist "a"), .beginWriting,
    .appendSample 0 [1, 2, 3] 22000, .appendSample 1 [4, 5] 5,
    .appendSample 0 [6] 1024]

/-- The same, with the second track described between the samples and the
rest at the end. -/
def lateDescription : List Call :=
  [.addTrack .text 1000, .beginWriting, .setPriming 0 2112 500,
    .appendSample 0 [1, 2, 3] 22000, .appendSample 1 [4, 5] 5,
    .setDecoderInfo 1 [7], .appendSample 0 [6] 1024, .setGapless .both,
    .addTag (.text Tag.Code.artist "a")]

theorem succeeds_earlyDescription :
    ∃ final, (earlyDescription ++ [Call.finalize true]).forM Call.perform
      freshMuxer = .ok ⟨⟩ final := by
  have hsucceeds : (match
      (earlyDescription ++ [Call.finalize true]).forM Call.perform
        freshMuxer with
      | .ok _ _ => true
      | .error _ _ => false) = true := by decide +kernel
  split at hsucceeds
  · next final hrun => exact ⟨final, hrun⟩
  · cases hsucceeds

theorem description_any_time_lateDescription :
    Rearranged earlyDescription lateDescription
      ∧ ∃ final final',
        (earlyDescription ++ [Call.finalize true]).forM Call.perform
            freshMuxer = .ok ⟨⟩ final
          ∧ (lateDescription ++ [Call.finalize true]).forM Call.perform
            freshMuxer = .ok ⟨⟩ final'
          ∧ final'.out.sink.bytes = final.out.sink.bytes := by
  have hmoved : Rearranged earlyDescription lateDescription := by
    refine ⟨rfl, rfl, ?_⟩
    simp [lateDescription, Call.NamesOnlyOld, Call.described?,
      Call.tracksAfter]
  have hcreate : Muxer.create
      { MuxerConfig.default with noTimestamp := true } 0 FlatFile.empty
        = .ok freshMuxer := rfl
  have hfresh : FaithfulSink.view FlatFile.empty = .empty := rfl
  obtain ⟨final, hrun⟩ := succeeds_earlyDescription
  obtain ⟨final', hrun', hbytes⟩ := description_any_time rfl hfresh hfresh
    hcreate hcreate hmoved hrun
  exact ⟨hmoved, final, final', hrun, hrun', hbytes⟩

end AudioMux

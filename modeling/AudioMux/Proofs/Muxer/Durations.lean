/-
How long the headers say that tracks and movie are.

A movie counts time in ticks of its own, so what a track lasts is converted,
and a header has 64 bits for it. The conversion is exact for what fits, and
cuts off what does not (`toNat_rescale`). It can be trusted that far only
because no track of a muxer has a timescale of zero, for which nothing would
be converted: whatever is attempted leaves the timescales alone or adds one
that is not zero (`Reachable.timed`).

So the durations of the headers are exact as long as they have no more than
64 bits, and only then (`header_durations_exact_iff`). Both timescales have
32 bits, and a long track of slow ticks in a movie of fast ones can last
longer than that (`header_durations_cut_off`).
-/
import AudioMux.Proofs.MediaTime
import AudioMux.Proofs.Muxer.Fault
import AudioMux.Proofs.Muxer.TrackSettings
import Mathlib.Data.List.MinMax

namespace AudioMux

open AudioMux.Action

-- ============================================================== timescales

section
variable {σ : Type} [Sink σ]

/-- The call that adds a track is the only one that does anything about
timescales. -/
theorem Call.keeps_timescales {call : Call}
    (hcall : ∀ codec timescale, call ≠ .addTrack codec timescale) :
    Keeps (Muxer.settings Track.timescale) (call.perform (σ := σ)) := by
  have hsetting := Track.isSetting_timescale
  cases call with
  | addTrack codec timescale => exact absurd rfl (hcall codec timescale)
  | setChannels index | setFixedDuration index | setDecoderInfo index
  | setVariableBitrate index | setPriming index =>
      exact Muxer.keeps_settings_configureTrack index fun _ => rfl
  | setGapless mode => exact Muxer.keeps_settings_setGapless _ mode
  | addTag tag => exact Muxer.keeps_settings_addTag _ tag
  | beginWriting => exact Muxer.keeps_settings_beginWriting _
  | appendSample index data duration =>
      exact Muxer.keeps_settings_appendSample hsetting index data duration
  | finalize optimize => exact Muxer.keeps_settings_finalize hsetting optimize

namespace Muxer

variable {X : Type} {look : Track → X} {muxer next : Muxer σ}

omit [Sink σ] in
theorem keeps_settings_onWritingTrack {action : Tracking σ Unit}
    (h : Keeps (Track.beside look) action) (index : Nat) :
    Keeps (settings look) (onWritingTrack index action) := by
  refine keeps_bind (keeps_onOutput (aside_settings look) _) fun _ => ?_
  refine keeps_bind keeps_get fun muxer => ?_
  exact keeps_ite (keeps_throw_bind _ _) (keeps_settings_onTrack h index)

theorem keeps_settings_startClosing (h : Track.IsSetting look) :
    Keeps (settings look) (startClosing (σ := σ)) :=
  keeps_settings_close (keeps_settings_finishTracks h)

theorem keeps_settings_prepareMove (h : Track.IsSetting look) :
    Keeps (settings look) (prepareMove (σ := σ)) := by
  have haside := aside_settings (σ := σ) look
  refine keeps_bind (keeps_settings_startClosing h) fun _ => ?_
  refine keeps_bind (keeps_addGaplessItem haside) fun _ => ?_
  refine keeps_bind (keeps_writeMediaHeader haside) fun _ => ?_
  refine keeps_bind keeps_get fun muxer => ?_
  cases muxer.relocationGap with
  | error failure => exact fun _ => rfl
  | ok gap => exact keeps_pure _

end Muxer

/-- Up to a request for memory nothing is set. -/
theorem Call.keeps_settings_of_mem_requests {X : Type} {look : Track → X}
    (h : Track.IsSetting look) {call : Call} {request : Muxing σ Unit}
    (hrequest : request ∈ call.requests) :
    Keeps (Muxer.settings look) request := by
  cases call with
  | setDecoderInfo index info =>
      obtain rfl := List.mem_singleton.mp hrequest
      exact Muxer.keeps_settings_configureTrack index fun _ => rfl
  | addTag tag =>
      obtain rfl := List.mem_singleton.mp hrequest
      refine keeps_bind (Muxer.keeps_settings_checkConfigurable look)
        fun _ => ?_
      cases tag.encode with
      | error failure => exact fun _ => rfl
      | ok stored? => exact keeps_pure _
  | appendSample index data duration =>
      have haccept : Keeps (Track.beside look)
          (Track.acceptSize (σ := σ) data) :=
        keeps_ite (fun _ => rfl) (keeps_pure _)
      rcases List.mem_cons.mp hrequest with rfl | hrequest
      · exact Muxer.keeps_settings_onWritingTrack haccept index
      · obtain rfl := List.mem_singleton.mp hrequest
        refine Muxer.keeps_settings_onWritingTrack ?_ index
        exact keeps_bind haccept fun _ => keeps_bind keeps_get fun _ =>
          keeps_discard (Track.keeps_setting_makeRoom h _)
  | finalize optimize =>
      cases optimize with
      | false =>
          obtain rfl := List.mem_singleton.mp hrequest
          exact Muxer.keeps_settings_startClosing h
      | true =>
          rcases List.mem_cons.mp hrequest with rfl | hrequest
          · exact Muxer.keeps_settings_startClosing h
          · obtain rfl := List.mem_singleton.mp hrequest
            exact Muxer.keeps_settings_prepareMove h
  | addTrack | setChannels | setFixedDuration | setVariableBitrate
  | setPriming | setGapless | beginWriting => cases hrequest

-- ============================================================= reachability

namespace Muxer

variable {muxer next : Muxer σ}

/-- A muxer that something was attempted with since it was created. -/
def Reachable (muxer : Muxer σ) : Prop :=
  ∃ config now sink created attempts,
    create config now sink = .ok created ∧ muxer = created.make attempts

/-- A muxer whose tracks all have a timescale to count in. -/
def Timed (muxer : Muxer σ) : Prop :=
  ∀ track ∈ muxer.tracks, track.timescale ≠ 0

omit [Sink σ] in
theorem Timed.of_settings (h : muxer.Timed)
    (hsame : next.settings Track.timescale
      = muxer.settings Track.timescale) : next.Timed := by
  intro track htrack
  have hmem : track.timescale ∈ next.settings Track.timescale :=
    List.mem_map_of_mem htrack
  rw [hsame] at hmem
  obtain ⟨other, hother, heq⟩ := List.mem_map.mp hmem
  rw [← heq]
  exact h other hother

omit [Sink σ] in
theorem timed_of_create {config : MuxerConfig} {now : UInt64} {sink : σ}
    (h : create config now sink = .ok muxer) : muxer.Timed := by
  unfold create at h
  split at h
  · cases h
  split at h
  · cases h
  · next hzero =>
    cases h
    intro track htrack
    rw [List.mem_singleton.mp htrack]
    exact hzero

omit [Sink σ] in
theorem Timed.addTrack (h : muxer.Timed) (codec : Codec)
    (timescale : UInt32) :
    (after (addTrack codec timescale muxer)).Timed := by
  unfold Timed
  rcases addTrack_cases muxer codec timescale with
    ⟨_, _, hrun, htracks⟩ | ⟨_, _, hrun, hzero, htracks⟩
  · rw [hrun]
    intro track htrack
    exact h track (htracks ▸ htrack)
  · rw [hrun]
    intro track htrack
    rcases List.mem_append.mp (htracks ▸ htrack) with hold | hnew
    · exact h track hold
    · rw [List.mem_singleton.mp hnew]
      exact hzero

theorem Timed.perform (h : muxer.Timed) (attempt : Attempt) :
    (after (attempt.perform muxer)).Timed := by
  unfold Attempt.perform
  rcases hrequest : attempt.refused?.bind fun request =>
      attempt.call.requests (σ := σ)[request]? with _ | request
  · by_cases hcall : ∃ codec timescale,
        attempt.call = .addTrack codec timescale
    · obtain ⟨codec, timescale, hcall⟩ := hcall
      have hadd := h.addTrack codec timescale
      rw [← after_discard] at hadd
      dsimp only
      rw [hcall]
      exact hadd
    · have hother : ∀ codec timescale,
          attempt.call ≠ .addTrack codec timescale :=
        fun codec timescale heq => hcall ⟨codec, timescale, heq⟩
      exact h.of_settings (Call.keeps_timescales hother muxer)
  · obtain ⟨n, _, hget⟩ := Option.bind_eq_some_iff.mp hrequest
    have hkeeps := Call.keeps_settings_of_mem_requests
      Track.isSetting_timescale (List.mem_of_getElem? hget)
    exact h.of_settings (keeps_bind hkeeps (fun _ _ => rfl) muxer)

/-- No track of a muxer counts in a timescale of zero. -/
theorem Reachable.timed (h : muxer.Reachable) : muxer.Timed := by
  obtain ⟨config, now, sink, created, attempts, hcreate, rfl⟩ := h
  exact make_induction (timed_of_create hcreate)
    (fun _ attempt htimed => htimed.perform attempt) attempts

-- ============================================================== durations

/-- How long some ticks of a track are in ticks of the movie, to the nearest
one. -/
def lasting (muxer : Muxer σ) (track : Track) (ticks : Nat) : Nat :=
  nearest (ticks * muxer.timescale.toNat) track.timescale.toNat

/-- How long the longest track is. -/
def longest (muxer : Muxer σ) : Nat :=
  (muxer.tracks.map fun track => muxer.lasting track track.duration).foldr
    max 0

omit [Sink σ] in
theorem lasting_le_longest {track : Track} (h : track ∈ muxer.tracks) :
    muxer.lasting track track.duration ≤ muxer.longest := by
  apply List.le_max_of_le' 0 ?_ (Nat.le_refl _)
  exact List.mem_map.mpr ⟨track, h, rfl⟩

omit [Sink σ] in
/-- What is heard of a track is no longer than the track. -/
theorem lasting_presentation_le (muxer : Muxer σ) (track : Track) :
    muxer.lasting track track.presentationDuration
      ≤ muxer.lasting track track.duration := by
  apply nearest_mono
  exact Nat.mul_le_mul_right _ (Nat.sub_le _ _)

omit [Sink σ] in
/-- What has no more than 64 bits is told as it is. -/
theorem Timed.toNat_rescale (h : muxer.Timed) {track : Track}
    (htrack : track ∈ muxer.tracks) (ticks : Nat) :
    (rescale ticks track.timescale muxer.timescale).toNat
      = muxer.lasting track ticks % 2 ^ 64 :=
  AudioMux.toNat_rescale ticks muxer.timescale (h track htrack)

/-- The header of the movie takes the longest of the track headers. -/
theorem toNat_foldl_max (boxes : List Box.TrackBox) (start : UInt64) :
    (boxes.foldl (fun longest box => max longest box.header.duration)
        start).toNat
      = max start.toNat
          ((boxes.map fun box => box.header.duration.toNat).foldr max 0) := by
  induction boxes generalizing start with
  | nil => exact (Nat.max_zero _).symm
  | cons box boxes ih =>
      rw [List.foldl_cons, ih, UInt64.toNat_max, List.map_cons,
        List.foldr_cons, Nat.max_assoc]

omit [Sink σ] in
/-- What the header of the movie says, even of tracks that are too long. -/
theorem Timed.toNat_movie (h : muxer.Timed) (distance : Nat) :
    (muxer.movie distance).header.duration.toNat
      = (muxer.tracks.map fun track =>
          muxer.lasting track track.duration % 2 ^ 64).foldr max 0 := by
  have hheaders : (muxer.trackBoxes distance).map
        (fun box : Box.TrackBox => box.header.duration.toNat)
      = muxer.tracks.map fun track =>
          muxer.lasting track track.duration % 2 ^ 64 := by
    unfold trackBoxes
    apply List.ext_getElem
    · rw [List.length_map, List.length_mapIdx, List.length_map]
    · intro index _ _
      rw [List.getElem_map, List.getElem_mapIdx, List.getElem_map]
      exact h.toNat_rescale (List.getElem_mem _) _
  unfold movie
  dsimp only
  rw [toNat_foldl_max, hheaders]
  exact Nat.zero_max _

-- ================================================================= results

/-- Whatever was attempted with a muxer, and however far its chunks are
moved: the duration in the header of a track is the nearest number of ticks
of the movie exactly if that has no more than 64 bits. If a track is cut by
an edit list, this has one entry, which lasts as long as what is to be heard
of the track under the same condition, and no longer than the header says if
the header is right. The header of the movie has the duration of the longest
track exactly if no track is too long. -/
theorem header_durations_exact_iff (h : muxer.Reachable) (distance : Nat) :
    (∀ (index : Nat) track, muxer.tracks[index]? = some track →
      ∃ box : Box.TrackBox, (muxer.movie distance).tracks[index]? = some box
        ∧ (box.header.duration.toNat = muxer.lasting track track.duration
          ↔ muxer.lasting track track.duration < 2 ^ 64)
        ∧ ∀ edits : Box.EditBox, box.edits? = some edits →
          ∃ edit, edits.editList.edits = [edit]
            ∧ (edit.duration.toNat
                = muxer.lasting track track.presentationDuration
              ↔ muxer.lasting track track.presentationDuration < 2 ^ 64)
            ∧ (muxer.lasting track track.duration < 2 ^ 64 →
                edit.duration ≤ box.header.duration))
    ∧ ((muxer.movie distance).header.duration.toNat = muxer.longest
      ↔ muxer.longest < 2 ^ 64) := by
  have htimed := h.timed
  refine ⟨fun index track htrack => ?_, ?_⟩
  · have hmem := List.mem_of_getElem? htrack
    have hheader := htimed.toNat_rescale hmem track.duration
    have hedit := htimed.toNat_rescale hmem track.presentationDuration
    have hle := lasting_presentation_le muxer track
    refine ⟨muxer.trackBox distance index track, ?_, ?_, ?_⟩
    · show (muxer.tracks.mapIdx _)[index]? = _
      rw [List.getElem?_mapIdx, htrack]
      rfl
    · show (rescale _ _ _).toNat = _ ↔ _
      rw [hheader]
      omega
    · intro edits hedits
      have hedits : (if muxer.signalsPriming track
          then some (muxer.primingEdits track) else none) = some edits :=
        hedits
      split at hedits
      · cases hedits
        refine ⟨_, rfl, ?_, fun hfits => ?_⟩
        · rw [hedit]
          omega
        · rw [UInt64.le_iff_toNat_le, hedit]
          show _ ≤ (rescale _ _ _).toNat
          rw [hheader, Nat.mod_eq_of_lt hfits]
          exact Nat.le_trans (Nat.mod_le _ _) hle
      · cases hedits
  · constructor
    · intro hsame
      rw [← hsame]
      exact UInt64.toNat_lt _
    · intro hfits
      rw [htimed.toNat_movie]
      have hexact : (muxer.tracks.map fun track =>
            muxer.lasting track track.duration % 2 ^ 64)
          = muxer.tracks.map fun track =>
            muxer.lasting track track.duration := by
        apply List.map_congr_left
        intro track htrack
        exact Nat.mod_eq_of_lt
          (Nat.lt_of_le_of_lt (lasting_le_longest htrack) hfits)
      rw [hexact]
      rfl

end Muxer

end

/-- A muxer that has appended some captions, which last so long, to a text
track beside the sound. The timescales are those of the movie and of the
text, and the first ticks of the text are not to be heard. -/
def captioned (movie text delay : UInt32) (durations : List UInt32) :
    Muxer FlatFile :=
  Muxer.make
    { freshMuxer with
      timescale := movie, gapless := .iso, tracks := [.new .aac movie] }
    (([Call.addTrack .text text, Call.setPriming 1 delay 0, Call.beginWriting]
      ++ durations.map (Call.appendSample 1 [0])).map (Attempt.mk · none))

theorem reachable_captioned {movie : UInt32} (h : movie ≠ 0)
    (text delay : UInt32) (durations : List UInt32) :
    (captioned movie text delay durations).Reachable := by
  refine ⟨⟨.aac, movie, .iso, false, true⟩, 0, .empty, _, _, ?_, rfl⟩
  unfold Muxer.create
  rw [if_neg nofun, if_neg h]
  rfl

/-- Five half seconds are eight thirds of a second, and the three of them
that are heard are five. -/
theorem header_durations_exact_captioned :
    (captioned 3 2 2 [5]).Reachable
      ∧ ∃ box : Box.TrackBox,
        ((captioned 3 2 2 [5]).movie 0).tracks[1]? = some box
          ∧ box.header.duration.toNat = 8
          ∧ ∃ edits edit, box.edits? = some edits
            ∧ edits.editList.edits = [edit] ∧ edit.duration.toNat = 5
            ∧ edit.duration ≤ box.header.duration := by
  have hreachable : (captioned 3 2 2 [5]).Reachable :=
    reachable_captioned (by decide) 2 2 [5]
  have htimes : (captioned 3 2 2 [5]).tracks[1]?.map (fun track =>
        (track.duration, track.presentationDuration, track.timescale.toNat))
      = some (5, 3, 2) := by decide +kernel
  obtain ⟨track, htrack, htimes⟩ := Option.map_eq_some_iff.mp htimes
  simp only [Prod.mk.injEq] at htimes
  obtain ⟨hduration, hpresentation, htimescale⟩ := htimes
  have hmovie : (captioned 3 2 2 [5]).timescale.toNat = 3 := by
    decide +kernel
  have hlasting : (captioned 3 2 2 [5]).lasting track track.duration = 8 := by
    unfold Muxer.lasting
    rw [hduration, htimescale, hmovie, nearest_eq_div (by decide)]
  have hheard : (captioned 3 2 2 [5]).lasting track
      track.presentationDuration = 5 := by
    unfold Muxer.lasting
    rw [hpresentation, htimescale, hmovie, nearest_eq_div (by decide)]
  obtain ⟨htracks, _⟩ := Muxer.header_durations_exact_iff hreachable 0
  obtain ⟨box, hbox, hheader, hedits⟩ := htracks 1 track htrack
  rw [hlasting] at hheader hedits
  rw [hheard] at hedits
  have hsignaled : (((captioned 3 2 2 [5]).movie 0).tracks[1]?.bind
      Box.TrackBox.edits?).isSome = true := by decide +kernel
  rw [hbox] at hsignaled
  obtain ⟨edits, hsome⟩ := Option.isSome_iff_exists.mp hsignaled
  obtain ⟨edit, hlist, hedit, hle⟩ := hedits edits hsome
  exact ⟨hreachable, box, hbox, hheader.mpr (by decide), edits, edit, hsome,
    hlist, hedit.mpr (by decide), hle (by decide)⟩

/-- A muxer with a track of 2 ^ 32 + 2 seconds, in a movie that counts
2 ^ 32 - 1 ticks a second. -/
def overlongMuxer : Muxer FlatFile :=
  captioned 0xffffffff 1 2 [0xffffffff, 3]

/-- All but the first two seconds of it can be told in 64 bits, and the
edit list does so. The headers say that the track, and with it the movie,
lasts no longer than a second. -/
theorem header_durations_cut_off :
    overlongMuxer.Reachable
      ∧ overlongMuxer.tracks.map
          (fun track => overlongMuxer.lasting track track.duration)
        = [0, 2 ^ 64 + 2 ^ 32 - 2]
      ∧ (overlongMuxer.movie 0).tracks.map
          (fun box => box.header.duration.toNat) = [0, 2 ^ 32 - 2]
      ∧ (overlongMuxer.movie 0).header.duration.toNat = 2 ^ 32 - 2
      ∧ (overlongMuxer.movie 0).tracks.map
          (fun box => box.edits?.map fun edits =>
            edits.editList.edits.map fun edit => edit.duration.toNat)
        = [none, some [2 ^ 64 - 2 ^ 32]] := by
  have htimes : overlongMuxer.tracks.map
        (fun track => (track.duration, track.timescale.toNat))
      = [(0, 2 ^ 32 - 1), (2 ^ 32 + 2, 1)] := by decide +kernel
  have hmovie : overlongMuxer.timescale.toNat = 2 ^ 32 - 1 := by
    decide +kernel
  refine ⟨reachable_captioned (by decide) 1 2 _, ?_, by decide +kernel,
    by decide +kernel, by decide +kernel⟩
  have hlasting : ∀ track : Track,
      overlongMuxer.lasting track track.duration
        = nearest (track.duration * (2 ^ 32 - 1)) track.timescale.toNat := by
    intro track
    unfold Muxer.lasting
    rw [hmovie]
  simp only [hlasting]
  have hmap := congrArg (List.map fun times : Nat × Nat =>
    nearest (times.1 * (2 ^ 32 - 1)) times.2) htimes
  rw [List.map_map] at hmap
  refine hmap.trans ?_
  rw [List.map_cons, List.map_cons, List.map_nil,
    nearest_eq_div (by decide), nearest_eq_div (by decide)]
  rfl

end AudioMux

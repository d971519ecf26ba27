/-
Both ways to close a file come to the same.

Whatever was called before, a file with its movie box behind the media
and one with the movie box in front of it have the same media, and the
same movie box except that each chunk offset is larger by the distance
between the places where the media starts (`Session.agrees`). The two
files are sealed alike, and from there each gets a movie box that is
made of the same tables.

A sink that never fails behaves like the flat file, which meets no fault
either (`not_faulted_run`), so both muxers are compared there.
-/
import AudioMux.Proofs.Box.Node
import AudioMux.Proofs.Muxer.ReadBack

namespace AudioMux

open Box

-- ================================================================= no fault

namespace Session

/-- Finalizing on a flat file meets no fault, whether it succeeds or
not. -/
theorem Recording.not_faulted_finalize {session : Session FlatFile}
    {ledger : List Entry} {blocks : List Block}
    (h : session.Recording ledger blocks) (optimize : Bool) :
    ¬ (session.proceed (.finalize optimize)).Faulted := by
  obtain ⟨done, ledger', blocks', hdone, hfinal⟩ :=
    Muxer.finalize_of_recording h
  rcases hdone.addMovie_cases optimize with
    ⟨final, gap, hok, hfault, _⟩ | ⟨failure, final, herror, hfault, _⟩
  · rw [← hfinal] at hok
    rw [proceed_ok (.finalize optimize) hok]
    unfold Faulted
    rw [hfault]
    exact nofun
  · rw [← hfinal] at herror
    rw [proceed_error (.finalize optimize) herror]
    unfold Faulted
    rw [hfault]
    exact nofun

theorem Active.not_faulted {session : Session FlatFile}
    (h : session.Active) : ¬ session.Faulted := by
  obtain ⟨file, hout⟩ := h.out
  unfold Faulted
  rw [hout]
  exact nofun

/-- A flat file never leads to a fault. -/
theorem not_faulted_run {config : MuxerConfig} {now : UInt64}
    {muxer : Muxer FlatFile}
    (hcreate : Muxer.create config now .empty = .ok muxer)
    (calls : List Call) : ¬ ((opened muxer).run calls).Faulted := by
  have hstart := active_opened hcreate
  refine (run_induction (P := fun session =>
    session.InOrder ∧ ¬ session.Faulted)
    ⟨.active hstart, hstart.not_faulted⟩ ?_ calls).2
  rintro session call ⟨horder, hfault⟩
  refine ⟨horder.proceed call, ?_⟩
  cases horder with
  | finalized h =>
      rw [proceed_of_finalized h]
      exact hfault
  | active h =>
      by_cases hcall : ∃ optimize, call = .finalize optimize
      · obtain ⟨optimize, rfl⟩ := hcall
        cases h with
        | configuring ledger h =>
            rw [h.proceed_finalize optimize]
            exact hfault
        | recording ledger blocks h =>
            exact h.not_faulted_finalize optimize
      · exact (h.proceed fun optimize heq =>
          hcall ⟨optimize, heq⟩).not_faulted

end Session

-- =================================================================== movies

/-- Lists that are moved one by one. -/
theorem forall₂_moved_mapIdx {ι : Type} {distance depth : Nat}
    {boxOf boxOf' : Nat → ι → TrackBox} {l : List ι}
    (h : ∀ index a, l[index]? = some a →
      Moved distance depth (Part.of (boxOf index a))
        (Part.of (boxOf' index a))) :
    List.Forall₂ (Moved distance depth) ((l.mapIdx boxOf).map Part.of)
      ((l.mapIdx boxOf').map Part.of) := by
  induction l generalizing boxOf boxOf' with
  | nil => exact .nil
  | cons a l ih =>
      rw [List.mapIdx_cons, List.mapIdx_cons]
      exact .cons (h 0 a rfl) (ih fun index => h (index + 1))

namespace Muxer

variable {muxer muxer' done : Muxer FlatFile} {intakes : List Intake}
  {ledger : List Entry} {blocks : List Block} {gap : Nat}

/-- The chunk offsets of a track in two files that were sealed alike. -/
theorem moved_offsets_of_closed
    (h : Closed false muxer intakes done ledger blocks 0)
    (h' : Closed true muxer' intakes done ledger blocks gap)
    (hlength : muxer.out.sink.bytes.length < 2 ^ 32)
    (hlength' : muxer'.out.sink.bytes.length < 2 ^ 32) {entry : Entry}
    (hentry : entry ∈ ledger)
    (hfits : Format.size (entry.track.chunks.offsets 0) ≤ maxWord32)
    (hfits' : Format.size (entry.track.chunks.offsets gap) ≤ maxWord32)
    (depth : Nat) :
    Moved gap (depth + 1) (Part.of (entry.track.chunks.offsets 0))
      (Part.of (entry.track.chunks.offsets gap)) := by
  obtain ⟨offsets, hnarrow, hvalues⟩ := h.exists_narrow hlength hentry
  obtain ⟨offsets', hnarrow', hvalues'⟩ := h'.exists_narrow hlength' hentry
  rw [hnarrow] at hfits ⊢
  rw [hnarrow'] at hfits' ⊢
  refine moved_narrowOffsets hfits hfits' ?_
  rw [hvalues, hvalues', List.map_map]
  rfl

/-- The movie boxes of two files that were sealed alike are the same up
to the gap. -/
theorem moved_movie_of_closed
    (h : Closed false muxer intakes done ledger blocks 0)
    (h' : Closed true muxer' intakes done ledger blocks gap)
    (hlength : muxer.out.sink.bytes.length < 2 ^ 32)
    (hlength' : muxer'.out.sink.bytes.length < 2 ^ 32) :
    Moved gap 6 (Part.of (done.movie 0)) (Part.of (done.movie gap)) := by
  refine moved_movie (done.header_movie gap) rfl h.size_movie h'.size_movie
    (forall₂_moved_mapIdx fun index track htrack => ?_)
  have hbox : ∀ distance, done.trackBox distance index track
      ∈ (done.movie distance).tracks := by
    intro distance
    refine List.mem_of_getElem? (i := index) ?_
    show (done.tracks.mapIdx (done.trackBox distance))[index]? = _
    rw [List.getElem?_mapIdx, htrack]
    rfl
  rw [h.seals.tracks] at htrack
  obtain ⟨entry, hentry, rfl⟩ :=
    List.mem_map.mp (List.mem_of_getElem? htrack)
  have hfits := size_track_le h.size_movie (hbox 0)
  have hfits' := size_track_le h'.size_movie (hbox gap)
  have hmedia := size_media_le hfits
  have hmedia' := size_media_le hfits'
  have hinformation := size_information_le hmedia
  have hinformation' := size_information_le hmedia'
  have htables := size_sampleTables_le hinformation
  have htables' := size_sampleTables_le hinformation'
  have hoffsets := moved_offsets_of_closed h h' hlength hlength' hentry
    (size_tables_le htables).2.2.2 (size_tables_le htables').2.2.2 0
  exact moved_trackBox rfl rfl hfits hfits'
    (moved_media rfl rfl hmedia hmedia'
      (moved_mediaInformation rfl rfl hinformation hinformation'
        (moved_sampleTables rfl rfl rfl rfl rfl rfl htables htables'
          hoffsets)))

end Muxer

-- =================================================================== results

/-- Two files, the second of which is optimized, that differ in where
things lie and in nothing else: the same media, and the same movie box
but for the chunk offsets, which differ as much as the places where the
media starts. -/
structure Agree (file : Bytes) (mediaStart : Nat) (file' : Bytes)
    (mediaStart' mediaSize : Nat) (outline outline' : Outline)
    (movie : Node) : Prop where
  layout : Tiled false file mediaStart mediaSize outline
  layout' : Tiled true file' mediaStart' mediaSize outline'
  media : outline'.media.payload = outline.media.payload
  further : mediaStart ≤ mediaStart'
  reads : Node.read? 6 outline.movie = some movie
  reads' : Node.read? 6 outline'.movie
    = some (movie.move (mediaStart' - mediaStart))

namespace Session

/-- Closing a flat file both ways. -/
theorem Recording.closes_both {session : Session FlatFile}
    {ledger : List Entry} {blocks : List Block}
    (h : session.Recording ledger blocks)
    (hlength : (session.proceed
      (.finalize false)).muxer.out.sink.bytes.length < 2 ^ 32)
    (hlength' : (session.proceed
      (.finalize true)).muxer.out.sink.bytes.length < 2 ^ 32) :
    ∃ muxer muxer' outline outline' movie,
      Muxer.finalize false session.muxer = .ok () muxer
        ∧ Muxer.finalize true session.muxer = .ok () muxer'
        ∧ Agree muxer.out.sink.bytes muxer.mediaStart
          muxer'.out.sink.bytes muxer'.mediaStart muxer.mediaSize outline
          outline' movie := by
  obtain ⟨done, ledger', blocks', hdone, hfinal⟩ :=
    Muxer.finalize_of_recording h
  have happend := hdone.append_cases
  have hprepend := hdone.prepend_cases
  rw [← hfinal] at happend hprepend
  -- A movie box that is too large makes the file too long.
  rcases happend with ⟨muxer, hok, _, hclosed⟩ | ⟨failure, muxer, herror, _,
    hlong⟩
  swap
  · rw [proceed_error (.finalize false) herror] at hlength
    exact absurd hlength (Nat.not_lt.mpr hlong)
  rcases hprepend with ⟨muxer', gap, hok', _, hclosed'⟩ | ⟨failure, muxer',
    herror, _, hlong⟩
  swap
  · rw [proceed_error (.finalize true) herror] at hlength'
    exact absurd hlength' (Nat.not_lt.mpr hlong)
  rw [proceed_ok (.finalize false) hok] at hlength
  rw [proceed_ok (.finalize true) hok'] at hlength'
  have hlength : muxer.out.sink.bytes.length < 2 ^ 32 := hlength
  have hlength' : muxer'.out.sink.bytes.length < 2 ^ 32 := hlength'
  have hdistance : muxer'.mediaStart - muxer.mediaStart = gap := by
    rw [hclosed.mediaStart, hclosed'.mediaStart]
    omega
  have htiled' := hclosed'.tiled_bytes (Nat.lt_trans hlength' (by decide))
  rw [hclosed'.mediaSize, ← hclosed.mediaSize] at htiled'
  obtain ⟨movie, hreads, hreads'⟩ := Muxer.moved_movie_of_closed hclosed
    hclosed' hlength hlength'
  refine ⟨muxer, muxer', _, _, movie, hok, hok',
    hclosed.tiled_bytes (Nat.lt_trans hlength (by decide)), htiled', rfl, ?_,
    hreads, ?_⟩
  · rw [hclosed.mediaStart, hclosed'.mediaStart]
    omega
  · rw [hdistance]
    exact hreads'

end Session

section
variable {σ : Type} [Sink σ] [FaithfulSink σ] [NeverFails σ]

/-- What succeeds on the flat file succeeds on a sink that never fails. -/
theorem Muxer.finalize_of_image {optimize : Bool} {muxer : Muxer σ}
    {after : Muxer FlatFile}
    (h : finalize optimize muxer.image = .ok () after) :
    ∃ final, finalize optimize muxer = .ok () final
      ∧ final.image = after := by
  obtain ⟨_, final, hfinal, _, hafter⟩ :=
    (mirrors_finalize optimize).exists_ok inferInstance h
  exact ⟨final, hfinal, hafter⟩

namespace Session

/-- A session on a sink that never fails is that on the flat file, to the
last call. -/
theorem image_run_of_create {config : MuxerConfig} {now : UInt64}
    {sink : σ} {muxer : Muxer σ}
    (hfresh : FaithfulSink.view sink = .empty)
    (hcreate : Muxer.create config now sink = .ok muxer)
    (calls : List Call) :
    ((opened muxer).run calls).image = (opened muxer.image).run calls := by
  have hflat := Muxer.create_image hcreate
  rw [hfresh] at hflat
  exact image_run_of_reliable (opened muxer) (not_faulted_run hflat calls)

theorem image_proceed_finalize {session : Session σ}
    {ledger : List Entry} {blocks : List Block}
    (h : session.image.Recording ledger blocks) (optimize : Bool) :
    (session.proceed (.finalize optimize)).image
      = session.image.proceed (.finalize optimize) := by
  rcases image_proceed session (.finalize optimize) with hsame | ⟨_, hboth⟩
  · exact hsame
  · exact absurd (hboth inferInstance) (h.not_faulted_finalize optimize)

end Session

end

/-- The same calls on two sinks that never fail, after which one muxer
that is writing puts the movie box behind the media and the other one in
front of it. If both files are below 2 ^ 32 bytes then, both muxers have
closed them, and the files agree. -/
theorem Session.agrees {σ τ : Type} [Sink σ] [FaithfulSink σ]
    [NeverFails σ] [Sink τ] [FaithfulSink τ] [NeverFails τ]
    {config : MuxerConfig} {now : UInt64} {sink : σ} {sink' : τ}
    {muxer : Muxer σ} {muxer' : Muxer τ} {calls : List Call}
    (hfresh : FaithfulSink.view sink = .empty)
    (hfresh' : FaithfulSink.view sink' = .empty)
    (hcreate : Muxer.create config now sink = .ok muxer)
    (hcreate' : Muxer.create config now sink' = .ok muxer')
    (hphase : ((opened muxer).run calls).muxer.phase = .writing)
    (hlength : (FaithfulSink.view (((opened muxer).run calls).proceed
      (.finalize false)).muxer.out.sink).bytes.length < 2 ^ 32)
    (hlength' : (FaithfulSink.view (((opened muxer').run calls).proceed
      (.finalize true)).muxer.out.sink).bytes.length < 2 ^ 32) :
    ∃ final final' outline outline' movie,
      Muxer.finalize false ((opened muxer).run calls).muxer = .ok () final
        ∧ Muxer.finalize true ((opened muxer').run calls).muxer
          = .ok () final'
        ∧ Agree (FaithfulSink.view final.out.sink).bytes final.mediaStart
          (FaithfulSink.view final'.out.sink).bytes final'.mediaStart
          final.mediaSize outline outline' movie := by
  have hflat := Muxer.create_image hcreate
  have hflat' := Muxer.create_image hcreate'
  rw [hfresh] at hflat
  rw [hfresh', hflat] at hflat'
  have hmuxers : muxer.image = muxer'.image := Except.ok.inj hflat'
  have himage := image_run_of_create hfresh hcreate calls
  have himage' := image_run_of_create hfresh' hcreate' calls
  have hfault : ¬ ((opened muxer).run calls).image.Faulted := by
    rw [himage]
    exact not_faulted_run hflat calls
  obtain ⟨ledger, blocks, h⟩ :=
    exists_recording hfresh hcreate hphase hfault
  rw [← hmuxers, ← himage] at himage'
  generalize (opened muxer).run calls = session at *
  generalize (opened muxer').run calls = session' at *
  -- Both sessions are the same around the flat file.
  have hfile := image_proceed_finalize h false
  have hrecording : session'.image.Recording ledger blocks := by
    rw [himage']
    exact h
  have hfile' := image_proceed_finalize hrecording true
  rw [himage'] at hfile'
  have hshort : (session.image.proceed
      (.finalize false)).muxer.out.sink.bytes.length < 2 ^ 32 := by
    rw [← hfile]
    exact hlength
  have hshort' : (session.image.proceed
      (.finalize true)).muxer.out.sink.bytes.length < 2 ^ 32 := by
    rw [← hfile']
    exact hlength'
  obtain ⟨after, after', outline, outline', movie, hok, hok', hagree⟩ :=
    h.closes_both hshort hshort'
  obtain ⟨final, hfinal, rfl⟩ := Muxer.finalize_of_image hok
  have hsame : session'.muxer.image = session.image.muxer :=
    congrArg Session.muxer himage'
  rw [← hsame] at hok'
  obtain ⟨final', hfinal', rfl⟩ := Muxer.finalize_of_image hok'
  exact ⟨final, final', outline, outline', movie, hfinal, hfinal', hagree⟩

/-- The short session closes two files that agree. -/
theorem agrees_shortSession :
    ∃ (final final' : Muxer FlatFile) (outline outline' : Outline)
      (movie : Node),
      Muxer.finalize false
          ((Session.opened freshMuxer).run shortSession).muxer
        = .ok () final
      ∧ Muxer.finalize true
          ((Session.opened freshMuxer).run shortSession).muxer
        = .ok () final'
      ∧ Agree final.out.sink.bytes final.mediaStart final'.out.sink.bytes
        final'.mediaStart final.mediaSize outline outline' movie := by
  obtain ⟨final, hfinal, hshort⟩ := finalize_shortSession false
  obtain ⟨final', hfinal', hshort'⟩ := finalize_shortSession true
  refine Session.agrees (σ := FlatFile) (τ := FlatFile) rfl rfl
    create_default create_default writing_shortSession ?_ ?_
  · rw [Session.proceed_ok (.finalize false) hfinal]
    exact hshort
  · rw [Session.proceed_ok (.finalize true) hfinal']
    exact hshort'

end AudioMux

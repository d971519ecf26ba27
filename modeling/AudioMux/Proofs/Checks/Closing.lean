/-
While a file is closed no check fails.

Once the tracks are finished and the header of the media is written, all
that is left to count concerns the movie box (`Sealed.movieInRange`). A
movie box below `2 ^ 32` bytes lists fewer than `2 ^ 32` chunks, none of
them behind the media, and declares the size it is measured at.

The search for a gap tries no movie box that is larger than the one it
settles for (`passesInRange`), though it does try gaps for which fewer
offsets are wide. So a bound for the last movie box bounds them all, and
the one that is written fits the gap after the offsets have been moved,
since it is the same (`MovieInRange.shift`).
-/
import AudioMux.Proofs.Checks.Media
import AudioMux.Proofs.Muxer.Permits

namespace AudioMux

open Box (Format encode content maxWord32 length_encode)
open AccessUnit (payload)

-- ============================================================ the movie box

/-- There is an offset for each chunk. -/
theorem ChunkTable.length_offsets (table : ChunkTable) (distance : Nat) :
    (table.offsets distance).toList.length = table.length := by
  have hlength : table.toList.length = table.length := List.length_reverse
  by_cases hwide : table.IsWideAt distance
  · rw [offsets_wide hwide]
    show ((table.toList.map _).map _).length = _
    rw [List.length_map, List.length_map, hlength]
  · rw [offsets_narrow hwide]
    show ((table.toList.map _).map _).length = _
    rw [List.length_map, List.length_map, hlength]

namespace Muxer

section
variable {σ : Type} {muxer : Muxer σ}

/-- A movie box that fits into 32 bits lists no more chunks than 32 bits
can count. -/
theorem length_chunks_lt {distance : Nat}
    (hsize : Format.size (muxer.movie distance) ≤ maxWord32)
    {track : Track} (htrack : track ∈ muxer.tracks) :
    track.chunks.length < 2 ^ 32 := by
  obtain ⟨index, htrack⟩ := List.mem_iff_getElem?.mp htrack
  have hbox : muxer.trackBox distance index track
      ∈ (muxer.movie distance).tracks := by
    have hget : (muxer.movie distance).tracks[index]?
        = some (muxer.trackBox distance index track) := by
      show (muxer.tracks.mapIdx (muxer.trackBox distance))[index]? = _
      rw [List.getElem?_mapIdx, htrack]
      rfl
    exact List.mem_of_getElem? hget
  obtain ⟨_, _, _, hoffsets⟩ := Box.size_tables_le
    (Box.size_sampleTables_le (Box.size_information_le
      (Box.size_media_le (Box.size_track_le hsize hbox))))
  have hcount := Box.length_offsets_le (track.chunks.offsets distance)
  have hoffsets' : Format.size (track.chunks.offsets distance)
    ≤ maxWord32 := hoffsets
  rw [ChunkTable.length_offsets] at hcount
  unfold maxWord32 at hoffsets'
  omega

/-- Once the chunks have been moved, the movie box counts what it counted
for the distance before. -/
theorem MovieInRange.shift {gap : Nat} (h : muxer.MovieInRange gap) :
    (muxer.shift gap).MovieInRange 0 := by
  refine ⟨fun track htrack => ?_, ?_, ?_⟩
  · obtain ⟨track, hmem, rfl⟩ := List.mem_map.mp htrack
    obtain ⟨hbox, hlanguage⟩ := h.tracks track hmem
    refine ⟨⟨hbox.priming, hbox.duration, hbox.presentation, hbox.runs, ?_,
      fun chunk hchunk => ?_⟩, hlanguage⟩
    · show (track.chunks.shift gap).newestFirst.length < 2 ^ 32
      unfold ChunkTable.shift
      rw [List.length_map]
      exact hbox.numbers
    · obtain ⟨chunk, hmem, rfl⟩ := List.mem_map.mp hchunk
      exact hbox.offsets chunk hmem
  · show (muxer.tracks.map _).length + 1 < 2 ^ 32
    rw [List.length_map]
    exact h.trackCount
  · rw [movie_shift]
    exact h.size

/-- A movie box below `2 ^ 32` bytes is measured by a probe. -/
theorem MovieInRange.probe {distance : Nat} (h : muxer.MovieInRange distance)
    (hsize : Format.size (muxer.movie distance) ≤ maxWord32) :
    muxer.ProbeInRange distance := by
  have hmeasured : muxer.movieSize distance
      = Format.size (muxer.movie distance) := by
    rw [movieSize_eq, length_encode hsize]
  refine ⟨h, ?_, hmeasured⟩
  rw [hmeasured]
  exact h.size

/-- If all movie boxes up to a gap are in range, so is the search that
finds it: it never tries a larger one. -/
theorem passesInRange {gap : Nat}
    (hprobe : ∀ distance, distance ≤ gap → muxer.ProbeInRange distance
      ∧ muxer.movieSize distance ≤ maxWord32) {first passes : Nat}
    (h : muxer.settleGap first passes = .ok gap) :
    first ≤ gap ∧ muxer.PassesInRange first passes := by
  induction passes generalizing first with
  | zero => cases h
  | succ passes ih =>
      unfold settleGap at h
      dsimp only at h
      unfold PassesInRange
      split at h
      · next hroom =>
        cases h
        obtain ⟨hrange, hsmall⟩ := hprobe gap (Nat.le_refl _)
        unfold maxWord32 at hsmall
        exact ⟨Nat.le_refl _, hrange, by omega,
          fun hno => absurd hroom hno⟩
      · next hno =>
        obtain ⟨hle, hrest⟩ := ih h
        unfold headroom at *
        have hfirst : first ≤ gap := by omega
        obtain ⟨hrange, hsmall⟩ := hprobe first hfirst
        unfold maxWord32 at hsmall
        exact ⟨hfirst, hrange, by omega, fun _ => ⟨by omega, hrest⟩⟩

theorem gapInRange {gap : Nat}
    (hprobe : ∀ distance, distance ≤ gap → muxer.ProbeInRange distance
      ∧ muxer.movieSize distance ≤ maxWord32)
    (h : muxer.relocationGap = .ok gap) : muxer.GapInRange := by
  obtain ⟨hrange, hsmall⟩ := hprobe 0 (Nat.zero_le _)
  refine ⟨hrange, ?_, (passesInRange hprobe h).2⟩
  unfold maxWord32 at hsmall
  unfold headroom
  omega

end

variable {σ : Type} [Sink σ] [FaithfulSink σ] {muxer : Muxer σ}
  {intakes : List Intake} {ledger : List Entry} {blocks : List Block}

omit [Sink σ] [FaithfulSink σ] in
/-- No chunk of a sealed file lies behind its media. -/
theorem Sealed.offset_le {done : Muxer FlatFile}
    (h : Sealed done intakes ledger blocks) {entry : Entry}
    (hentry : entry ∈ ledger) {chunk : Chunk}
    (hchunk : chunk ∈ entry.track.chunks.newestFirst) :
    chunk.offset ≤ mediaOrigin + done.mediaSize := by
  obtain ⟨units, _, hsums, hblock⟩ :=
    Chunk.exists_part (h.mem_blocks hentry) hchunk
  by_cases hempty : payload units = []
  · rw [hsums.unplaced hempty]
    exact Nat.zero_le _
  · have hend := h.contiguous.endOf_le _ (hblock hempty)
    rw [← h.size] at hend
    unfold Block.endOf at hend
    dsimp only at hend
    omega

/-- A sealed file within limits ends with its media. -/
theorem Sealed.mediaEnd_lt (h : Sealed muxer.image intakes ledger blocks)
    (hwithin : Within muxer) : mediaOrigin + muxer.mediaSize < 2 ^ 63 := by
  have hfile : muxer.image.out.sink.bytes.length < 2 ^ 63 := hwithin.1
  have hsink : muxer.image.out.sink = sealedFile (Block.joined blocks) := by
    rw [h.out]
    rfl
  have hsize : muxer.mediaSize = (Block.joined blocks).length := h.size
  rw [hsink, length_sealedFile, ← hsize] at hfile
  exact hfile

/-- All that is worked out for a movie box below `2 ^ 32` bytes, once the
media is in the file. -/
theorem Sealed.movieInRange (h : Sealed muxer.image intakes ledger blocks)
    (hwithin : Within muxer) {distance : Nat} (hdistance : distance < 2 ^ 62)
    (hsize : Format.size (muxer.movie distance) ≤ maxWord32) :
    muxer.MovieInRange distance := by
  have htracks : muxer.tracks = ledger.map Entry.track := h.tracks
  have hmedia := h.mediaEnd_lt hwithin
  refine ⟨fun track htrack => ⟨?_, Box.Language.inRange_undetermined⟩,
    ?_, ?_⟩
  · have hnumbers := length_chunks_lt hsize htrack
    have hcount := hwithin.2 track htrack
    rw [htracks] at htrack
    obtain ⟨entry, hentry, rfl⟩ := List.mem_map.mp htrack
    refine (h.sound entry hentry).boxInRange hcount _ hnumbers ?_
    intro chunk hchunk
    have hle : chunk.offset ≤ mediaOrigin + muxer.mediaSize :=
      h.offset_le hentry hchunk
    omega
  · have hfew := h.few
    rw [htracks, List.length_map]
    unfold maxTracks at hfew
    omega
  · unfold maxWord32 at hsize
    omega

end Muxer

-- ============================================================== on the way

namespace Muxer

variable {σ : Type} [Sink σ] {muxer after : Muxer σ}

theorem exists_out_of_writeMediaHeader {u : Unit}
    (h : writeMediaHeader muxer = .ok u after) :
    ∃ out, after = { muxer with out := out } := by
  obtain ⟨_, _, hget, h⟩ := Action.bind_eq_ok h
  cases hget
  obtain ⟨_, _, hrun, h⟩ := Action.bind_eq_ok h
  obtain ⟨_, _, rfl⟩ := onOutput_eq_ok hrun
  obtain ⟨_, _, hrun, h⟩ := Action.bind_eq_ok h
  obtain ⟨_, _, rfl⟩ := onOutput_eq_ok hrun
  obtain ⟨out, _, rfl⟩ := onOutput_eq_ok h
  exact ⟨out, rfl⟩

end Muxer

namespace Checked

variable {σ : Type} [Sink σ] [FaithfulSink σ]

/-- A box that is closed behind its start. -/
theorem passes_closeBox {start : Nat} {out : Output σ} {file : FlatFile}
    (hout : out.image = .ofSink file) (hstart : start ≤ file.cursor) :
    (closeBox start).Passes out := by
  refine passes_plain_bind fun position s hrun _ => ?_
  have hflat : Output.position out.image = .ok file.cursor (.ofSink file) := by
    rw [hout]
    exact Output.position_flat file
  obtain ⟨rfl, _⟩ := Output.mirrors_position.eq_of_ok hrun hflat
  refine passes_check_bind hstart (passes_guard fun _ => ?_)
  exact passes_plain_bind fun _ _ _ _ => trivial

/-- A movie box comes out as large as it declares. -/
theorem passes_writeMovie {movie : Box.Movie}
    (hsize : Format.size movie ≤ maxWord32) (out : Output σ) :
    (writeMovie movie).Passes out := by
  obtain ⟨sink, _ | fault⟩ := out
  · have hcontent : 8 + (content movie).length = Format.size movie :=
      (Box.Measured.fair movie).2 hsize
    refine passes_plain_bind fun start s hopen _ => ?_
    obtain ⟨rfl, himage⟩ := (Output.mirrors_openBox _).eq_of_ok hopen
      (Output.openBox_flat (FaithfulSink.view sink) _)
    refine passes_plain_bind fun u s' hwrite _ => ?_
    have hflat := Output.write_flat ((FaithfulSink.view sink).write
      (Output.openHeader (Format.kind movie))) (content movie)
    rw [← himage] at hflat
    obtain ⟨_, himage'⟩ := (Output.mirrors_write _).eq_of_ok hwrite hflat
    have hcursor : (((FaithfulSink.view sink).write (Output.openHeader
        (Format.kind movie))).write (content movie)).cursor
          = (FaithfulSink.view sink).cursor + Format.size movie := by
      rw [FlatFile.cursor_write, FlatFile.cursor_write,
        Output.length_openHeader]
      omega
    refine passes_bind (passes_closeBox himage' ?_)
      fun size s'' hclose _ => ?_
    · show (FaithfulSink.view sink).cursor ≤ _
      rw [hcursor]
      exact Nat.le_add_right _ _
    · rw [action_closeBox] at hclose
      have hdone := Output.closeBox_flat _
        (Nat.sub_eq_of_eq_add' hcursor) hsize
      rw [← himage'] at hdone
      obtain ⟨rfl, _⟩ := (Output.mirrors_closeBox _).eq_of_ok hclose hdone
      exact passes_check_bind rfl trivial
  · exact passes_plain_bind nofun

/-- The size that is given is the one the box declares. -/
theorem size_of_writeMovie {movie : Box.Movie}
    (hsize : Format.size movie ≤ maxWord32) {muxer after : Muxer σ}
    {size : Nat}
    (h : Muxer.onOutput (Muxer.writeMovie movie) muxer = .ok size after) :
    size = Format.size movie := by
  have hcontent : 8 + (content movie).length = Format.size movie :=
    (Box.Measured.fair movie).2 hsize
  obtain ⟨⟨sink, _ | fault⟩, _⟩ := muxer
  · have hflat : Muxer.writeMovie movie (.ofSink (FaithfulSink.view sink))
        = .ok (encode movie).length (.ofSink
          ((FaithfulSink.view sink).write (encode movie))) :=
      Muxer.writeMovie_flat movie (by omega)
    obtain ⟨rfl, _⟩ := (Muxer.mirrors_onOutput
      (Muxer.mirrors_writeMovie movie)).eq_of_ok h (Muxer.onOutput_ok hflat)
    exact length_encode hsize
  · cases h

variable {muxer : Muxer σ}

/-- There is room for the header of the media in front of it. -/
theorem passes_writeMediaHeader (hstart : 16 ≤ muxer.mediaStart)
    (hend : muxer.mediaStart + muxer.mediaSize < 2 ^ 64) :
    writeMediaHeader.Passes muxer := by
  refine passes_get_bind (passes_check_bind ⟨by omega, ?_⟩ ?_)
  · unfold Box.MediaDataHeader.length
    split <;> omega
  · refine passes_plain_bind fun _ s hrun _ => ?_
    refine passes_plain_bind fun _ s' hrun' _ => ?_
    exact passes_check_bind hend trivial

/-- The movie box goes behind the media. -/
theorem passes_appendMovie (hrange : muxer.MovieInRange 0)
    (hsize : Format.size (muxer.movie 0) ≤ maxWord32) :
    appendMovie.Passes muxer :=
  passes_get_bind (passes_check_bind hrange
    (passes_writeMovie hsize muxer.out))

/-- The blocks lie below where the last of them is moved to. -/
theorem passes_moveBlocks {start gap block remaining : Nat}
    (h : start + remaining + gap < 2 ^ 64) (out : Output σ) :
    (moveBlocks start gap block remaining).Passes out := by
  induction remaining using Nat.strongRecOn generalizing out with
  | ind remaining ih =>
      rw [moveBlocks]
      refine passes_ite (fun _ => trivial) fun hne => ?_
      refine passes_check_bind ⟨Nat.min_le_left _ _, by omega⟩ ?_
      refine passes_plain_bind fun _ _ _ _ => ?_
      refine passes_plain_bind fun bytes _ _ _ => ?_
      refine passes_check_bind (by omega) ?_
      refine passes_plain_bind fun _ _ _ _ => ?_
      refine passes_plain_bind fun _ s _ _ => ?_
      exact ih _ (by omega) (by omega) s

/-- The media is moved, and its chunks with it. -/
theorem passes_moveMedia {gap block : Nat}
    (hend : muxer.mediaStart + muxer.mediaSize + gap < 2 ^ 64)
    (hoffsets : ∀ track ∈ muxer.tracks,
      ∀ chunk ∈ track.chunks.newestFirst, chunk.offset + gap < 2 ^ 64) :
    (moveMedia gap block).Passes muxer := by
  refine passes_get_bind (passes_bind (passes_moveBlocks hend muxer.out)
    fun _ s hrun _ => ?_)
  obtain ⟨out, _, rfl⟩ := Muxer.onOutput_eq_ok hrun
  exact passes_check_bind ⟨by dsimp only; omega, hoffsets⟩ trivial

/-- The movie box goes into a gap that is large enough. -/
theorem passes_fillGap {gap : Nat} (hrange : muxer.MovieInRange 0)
    (hsize : Format.size (muxer.movie 0) ≤ maxWord32)
    (hroom : Format.size (muxer.movie 0) ≤ gap)
    (hend : muxer.mediaStart + muxer.mediaSize < 2 ^ 64) :
    (fillGap gap).Passes muxer := by
  refine passes_get_bind (passes_check_bind hrange ?_)
  refine passes_bind (passes_writeMovie hsize muxer.out)
    fun size s hrun _ => ?_
  have hwrite : Muxer.onOutput (Muxer.writeMovie (muxer.movie 0)) muxer
      = .ok size s := by
    rw [← action_writeMovie]
    exact hrun
  have hsame := size_of_writeMovie hsize hwrite
  obtain ⟨out, _, rfl⟩ := Muxer.onOutput_eq_ok hwrite
  refine passes_check_bind (by omega) (passes_ite (fun _ => ?_) fun _ => ?_)
  · refine passes_check_bind (Nat.le_max_right _ _) ?_
    refine passes_plain_bind fun _ s hrun _ => ?_
    obtain ⟨out, _, rfl⟩ := Muxer.onOutput_eq_ok hrun
    exact passes_check_bind hend (passes_get_bind (passes_get_bind trivial))
  · exact passes_check_bind hend (passes_get_bind (passes_get_bind trivial))

/-- The movie box goes in front of the media. -/
theorem passes_prependMovie {gap : Nat}
    (hgap : muxer.relocationGap = .ok gap) (hsearch : muxer.GapInRange)
    (hrange : muxer.MovieInRange gap)
    (hsize : Format.size (muxer.movie gap) ≤ maxWord32)
    (hstart : 16 ≤ muxer.mediaStart)
    (hend : muxer.mediaStart + muxer.mediaSize + gap < 2 ^ 64) :
    prependMovie.Passes muxer := by
  have hfits := (muxer.fits_of_relocationGap hgap).room
  rw [Muxer.movieSize_eq, length_encode hsize] at hfits
  have hmoved : muxer.mediaStart + gap + muxer.mediaSize < 2 ^ 64 := by omega
  refine passes_get_bind (passes_check_bind hsearch ?_)
  rw [hgap]
  refine passes_bind (passes_moveMedia hend fun track htrack =>
    (hrange.tracks track htrack).1.offsets) fun _ s hmove _ => ?_
  rw [action_moveMedia] at hmove
  obtain ⟨out, _, rfl⟩ := Muxer.moveMedia_eq_ok hmove
  have hshifted : 16 ≤ muxer.mediaStart + gap := by omega
  refine passes_check_bind hshifted (passes_get_bind ?_)
  refine passes_plain_bind fun _ s hrun _ => ?_
  obtain ⟨out, _, rfl⟩ := Muxer.onOutput_eq_ok hrun
  refine passes_plain_bind fun _ s hrun _ => ?_
  obtain ⟨out, _, rfl⟩ := Muxer.onOutput_eq_ok hrun
  refine passes_plain_bind fun _ s hrun _ => ?_
  obtain ⟨_, hrun⟩ := Action.discard_eq_ok hrun
  obtain ⟨out, _, rfl⟩ := Muxer.onOutput_eq_ok hrun
  refine passes_bind (passes_writeMediaHeader hshifted hmoved)
    fun _ s hrun _ => ?_
  obtain ⟨out, rfl⟩ := Muxer.exists_out_of_writeMediaHeader hrun
  refine passes_get_bind (passes_plain_bind fun _ s hrun _ => ?_)
  obtain ⟨out, _, rfl⟩ := Muxer.onOutput_eq_ok hrun
  obtain ⟨htracks, hcount, htotal⟩ := hrange.shift
  refine passes_fillGap ⟨htracks, hcount, htotal⟩ ?_ ?_ hmoved
  · show Format.size ((muxer.shift gap).movie 0) ≤ maxWord32
    rw [Muxer.movie_shift]
    exact hsize
  · show Format.size ((muxer.shift gap).movie 0) ≤ gap
    rw [Muxer.movie_shift]
    omega

end Checked

end AudioMux

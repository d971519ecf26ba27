/-
While media is written no check fails.

A chunk is flushed to the end of the file, and the chunk of its track
before it is either in the file already or empty, so it does not reach
further (`Shelved.previous_le`). That is all that flushing asks for; the
rest are sums, which `Ranges` bounds. Whatever the sink does, an action
that has succeeded so far has come as far as on a flat file.
-/
import AudioMux.Proofs.Checks.Ranges

namespace AudioMux

open AccessUnit (payload)
open Box (maxWord32)

-- =================================================================== offsets

/-- Chunks of the track before the newest end before the end of the
file. -/
theorem Shelved.previous_le {file : FlatFile} {mediaSize : Nat}
    {ledger : List Entry} {blocks : List Block}
    (h : Shelved file mediaSize ledger blocks) {entry : Entry}
    (hentry : entry ∈ ledger) (hsound : entry.Sound) (htidy : entry.Tidy)
    (hpending : entry.track.chunks.pending ≠ []) :
    ∀ previous ∈ entry.track.chunks.newestFirst[1]?,
      previous.offset + previous.size ≤ file.cursor := by
  obtain ⟨chunk, older, units, rest, hnewest, hparts, _, _, hrest⟩ :=
    hsound.exists_held htidy hpending
  intro previous hprevious
  have hmem : previous ∈ older := by
    rw [hnewest, List.getElem?_cons_succ] at hprevious
    exact List.mem_of_getElem? hprevious
  obtain ⟨units', _, hsums, hblock⟩ :=
    Chunk.exists_part (Chunk.forall₂_blocks hrest) hmem
  by_cases hempty : payload units' = []
  · rw [hsums.unplaced hempty, hsums.size, hempty]
    exact Nat.zero_le _
  · have hstored : ⟨previous.offset, payload units'⟩ ∈ entry.stored := by
      rw [Entry.stored_of_held (htidy.resolve_left hpending), hnewest,
        hparts]
      refine List.mem_filter.mpr ⟨hblock, ?_⟩
      unfold Block.isFilled
      simpa using hempty
    have hend := h.contiguous.endOf_le _ (h.mem_blocks hentry hstored)
    rw [← h.size, ← h.cursor_eq] at hend
    rw [hsums.size]
    exact hend

/-- How long the file is with more media at its end. -/
theorem Shelved.length_write {file : FlatFile} {mediaSize : Nat}
    {ledger : List Entry} {blocks : List Block}
    (h : Shelved file mediaSize ledger blocks) (data : Bytes) :
    (file.write data).bytes.length
      = mediaOrigin + mediaSize + data.length := by
  rw [FlatFile.write_at_end h.cursor, List.length_append, ← h.cursor,
    h.cursor_eq]

-- =================================================================== a track

namespace Checked

variable {σ : Type} [Sink σ] [FaithfulSink σ]

/-- Flushing at a position that the chunk before does not reach over. -/
theorem passes_flush {table : ChunkTable} {out : Output σ}
    {file : FlatFile} (hout : out.image = .ofSink file)
    (hcursor : file.cursor < 2 ^ 64)
    (hprevious : table.pending ≠ [] →
      ∀ previous ∈ table.newestFirst[1]?,
        previous.offset + previous.size ≤ file.cursor) :
    flush.Passes (table, out) := by
  refine passes_get_bind (passes_ite (fun _ => trivial) fun hpending => ?_)
  refine passes_plain_bind fun offset s hrun _ => ?_
  have hflat : beside ChunkTable Output.position (table, out.image)
      = .ok file.cursor (table, .ofSink file) := by
    rw [hout]
    exact beside_ok (Output.position_flat file) table
  obtain ⟨rfl, _⟩ :=
    (mirrors_beside Output.mirrors_position).eq_of_ok hrun hflat
  refine passes_check_bind (fun previous hmem => ?_) ?_
  · have hle := hprevious (by simpa using hpending) previous hmem
    exact ⟨Nat.lt_of_le_of_lt hle hcursor, hle⟩
  · exact passes_plain_bind fun _ _ _ _ => passes_plain_bind
      fun _ _ _ _ => passes_plain_bind fun _ _ _ _ => trivial

variable {entry : Entry} {out : Output σ} {file : FlatFile}

/-- Making room for a sample. -/
theorem passes_makeRoom (h : entry.Sound)
    (hcount : entry.track.samples.length < 2 ^ 32)
    (hout : out.image = .ofSink file) (hcursor : file.cursor < 2 ^ 64)
    (hprevious : entry.track.chunks.pending ≠ [] →
      ∀ previous ∈ entry.track.chunks.newestFirst[1]?,
        previous.offset + previous.size ≤ file.cursor)
    (duration : UInt32) :
    (makeRoom duration).Passes (entry.track, out) := by
  refine passes_get_bind (passes_check_bind (fun chunk hchunk => ?_) ?_)
  · have hle := (h.chunk_le (List.mem_of_mem_head? hchunk)).2.2
    have hduration := duration.toNat_lt
    omega
  · refine passes_ite (fun _ => ?_) fun _ => trivial
    refine passes_bind (passes_flush hout hcursor hprevious) fun _ _ _ _ => ?_
    exact passes_plain_bind fun _ _ _ _ => trivial

/-- What is held back when there is room for a sample. -/
theorem pending_withRoom_le (h : entry.Sound) (htidy : entry.Tidy)
    (duration : UInt32) (position : Nat) :
    (entry.track.withRoom duration position).chunks.pending.length
      ≤ entry.track.samples.length * maxWord32 := by
  unfold Track.withRoom
  split
  · show (entry.track.chunks.settle position).pending.length ≤ _
    rw [ChunkTable.pending_settle]
    exact Nat.zero_le _
  · exact h.pending_le htidy

/-- A sample is appended to a track that holds back its newest chunk. -/
theorem passes_append (h : entry.Sound) (hheld : entry.Held)
    (hcount : entry.track.samples.length < 2 ^ 32)
    (hout : out.image = .ofSink file) (hcursor : file.cursor < 2 ^ 64)
    (hprevious : entry.track.chunks.pending ≠ [] →
      ∀ previous ∈ entry.track.chunks.newestFirst[1]?,
        previous.offset + previous.size ≤ file.cursor)
    (data : Bytes) (duration : UInt32) :
    (append data duration).Passes (entry.track, out) := by
  refine passes_get_bind (passes_guard fun hdata => ?_)
  generalize entry.track.fixedDuration?.getD duration = duration
  have hsmall : data.length ≤ maxWord32 := by omega
  refine passes_bind (passes_makeRoom h hcount hout hcursor hprevious _)
    fun flushed s hroom _ => ?_
  rw [action_makeRoom] at hroom
  have hflat := Track.makeRoom_flat file entry.track duration
  rw [← hout] at hflat
  obtain ⟨_, himage⟩ :=
    (Track.mirrors_makeRoom duration).eq_of_ok hroom hflat
  have htrack : s.1 = entry.track.withRoom duration file.cursor :=
    congrArg Prod.fst himage
  -- The counts are looked at when the sample is there, within limits.
  have hadd : (add data duration).Passes s := by
    refine passes_check_bind ?_ (passes_plain_bind fun u s' hrun hwithin => ?_)
    · have hle := pending_withRoom_le h (Or.inr hheld) duration file.cursor
      rw [htrack]
      unfold maxWord32 at hle hsmall
      omega
    · have hopen := entry.track.chunks_withRoom_ne_nil duration file.cursor
      rw [← htrack] at hopen
      obtain ⟨_, hgrown⟩ := (Track.mirrors_add data duration).eq_of_ok hrun
        (Track.add_ok hopen)
      have htrack' : s'.1
          = (entry.grow data duration file.cursor).track := by
        rw [Entry.track_grow]
        unfold Track.grown
        rw [← htrack]
        exact congrArg Prod.fst hgrown
      have hcount' := hwithin.2
      rw [htrack'] at hcount'
      show s'.1.CountsInRange
      rw [htrack']
      exact (h.grow hheld hsmall duration file.cursor).countsInRange hcount'
  exact passes_bind hadd fun _ _ _ _ => trivial

/-- A track is finished, whether or not it holds anything back. -/
theorem passes_finish (h : entry.Sound)
    (hcount : entry.track.samples.length < 2 ^ 32)
    (hout : out.image = .ofSink file) (hcursor : file.cursor < 2 ^ 64)
    (hprevious : entry.track.chunks.pending ≠ [] →
      ∀ previous ∈ entry.track.chunks.newestFirst[1]?,
        previous.offset + previous.size ≤ file.cursor) :
    finish.Passes (entry.track, out) := by
  refine passes_check_bind (h.bitrateInRange hcount) ?_
  refine passes_modify_bind fun _ => ?_
  exact passes_flush hout hcursor hprevious

-- ================================================================= the muxer

/-- Media that has come to the end of a file within limits can be
counted. -/
theorem passes_countMedia {muxer after : Muxer σ} {ledger : List Entry}
    {blocks : List Block} {data : Bytes} {tracks : List Track}
    (h : Shelved muxer.out.image.sink muxer.mediaSize ledger blocks)
    (hafter : after.image = { muxer.image with
      out := .ofSink (muxer.out.image.sink.write data), tracks := tracks })
    (hwithin : Within after) : (countMedia data.length).Passes after := by
  refine passes_check_bind ?_ trivial
  have hsize : after.image.mediaSize = muxer.mediaSize := by rw [hafter]; rfl
  have hsink : after.image.out.sink
      = muxer.out.image.sink.write data := by rw [hafter]; rfl
  have hshort : after.image.out.sink.bytes.length < 2 ^ 63 := hwithin.1
  rw [hsink, h.length_write] at hshort
  show after.image.mediaSize + data.length < 2 ^ 64
  omega

/-- A sample is appended while the muxer is writing. -/
theorem passes_appendSample {session : Session σ} {ledger : List Entry}
    {blocks : List Block} (h : session.image.Recording ledger blocks)
    (hwithin : Within session.muxer) (index : Nat) (data : Bytes)
    (duration : UInt32) :
    (onTrack index (append data duration) >>= countMedia).Passes
      session.muxer := by
  have hout : session.muxer.out.image
      = .ofSink session.muxer.out.image.sink := h.out
  have hshort : session.muxer.out.image.sink.bytes.length < 2 ^ 63 :=
    hwithin.1
  have hcursor : session.muxer.out.image.sink.cursor < 2 ^ 63 :=
    Nat.lt_of_le_of_lt (Nat.le_of_eq h.shelved.cursor) hshort
  have htracks : session.muxer.tracks = ledger.map Entry.track :=
    h.kept.tracks
  refine passes_bind (fun track htrack => ?_) fun flushed s hrun hwithin' => ?_
  · obtain ⟨entry, hentry, rfl, _⟩ := h.kept.exists_entry htrack
    have hmem := List.mem_of_getElem? hentry
    have hsound := h.kept.sound entry hmem
    have hheld := h.kept.held entry hmem
    have hcount := hwithin.2 entry.track (List.mem_of_getElem? htrack)
    exact passes_append hsound hheld hcount hout (by omega)
      (h.shelved.previous_le hmem hsound (Or.inr hheld)) data duration
  · have happend : Muxer.onTrack index (Track.append data duration)
        session.muxer = .ok flushed s := by
      rw [← action_append]
      exact hrun
    cases htrack : session.muxer.tracks[index]? with
    | none => cases happend.symm.trans (Muxer.onTrack_none htrack _)
    | some track =>
        by_cases hdata : data.length ≤ maxWord32
        · have hflat := Track.append_flat session.muxer.out.image.sink track
            duration hdata
          rw [← hout] at hflat
          obtain ⟨rfl, himage⟩ := (Muxer.mirrors_onTrack index
            (Track.mirrors_append data duration)).eq_of_ok happend
              (Muxer.onTrack_ok htrack hflat)
          exact passes_countMedia h.shelved himage hwithin'
        · have hlong := Track.append_too_large track duration
            (by omega : maxWord32 < data.length) session.muxer.out
          cases happend.symm.trans (Muxer.onTrack_error htrack hlong)

/-- One track is finished, with the tracks of the caller's account. -/
theorem passes_finishTrack {muxer : Muxer σ} {intakes : List Intake}
    {ledger : List Entry} {blocks : List Block}
    (h : Closing muxer.image intakes ledger blocks)
    (hwithin : Within muxer) (index : Nat) :
    (onTrack index finish >>= countMedia).Passes muxer := by
  have hout : muxer.out.image = .ofSink muxer.out.image.sink := h.out
  have hshort : muxer.out.image.sink.bytes.length < 2 ^ 63 := hwithin.1
  have hcursor : muxer.out.image.sink.cursor < 2 ^ 63 :=
    Nat.lt_of_le_of_lt (Nat.le_of_eq h.shelved.cursor) hshort
  have htracks : muxer.tracks = ledger.map Entry.track := h.tracks
  have hentries : ∀ track ∈ muxer.tracks[index]?,
      ∃ entry ∈ ledger, entry.track = track := by
    intro track htrack
    rw [htracks] at htrack
    exact List.mem_map.mp (List.mem_of_getElem? htrack)
  refine passes_bind (fun track htrack => ?_) fun flushed s hrun hwithin' => ?_
  · obtain ⟨entry, hmem, rfl⟩ := hentries track htrack
    have hsound := h.sound entry hmem
    have hcount := hwithin.2 entry.track (List.mem_of_getElem? htrack)
    exact passes_finish hsound hcount hout (by omega)
      (h.shelved.previous_le hmem hsound (h.tidy entry hmem))
  · have hfinish : Muxer.onTrack index Track.finish muxer
        = .ok flushed s := by
      rw [← action_finish]
      exact hrun
    cases htrack : muxer.tracks[index]? with
    | none => cases hfinish.symm.trans (Muxer.onTrack_none htrack _)
    | some track =>
        have hflat := Track.finish_flat muxer.out.image.sink track
        rw [← hout] at hflat
        obtain ⟨rfl, himage⟩ := (Muxer.mirrors_onTrack index
          Track.mirrors_finish).eq_of_ok hfinish
            (Muxer.onTrack_ok htrack hflat)
        exact passes_countMedia h.shelved himage hwithin'

/-- All tracks are finished. -/
theorem passes_finishTracks {muxer : Muxer σ} {intakes : List Intake}
    {ledger : List Entry} {blocks : List Block}
    (h : Closing muxer.image intakes ledger blocks)
    (hwithin : Within muxer) : finishTracks.Passes muxer := by
  refine passes_get_bind ?_
  -- Before each round the muxer is closing, and within limits.
  let P : Nat → Muxer σ → Prop := fun _ s => Within s
    ∧ ∃ ledger' blocks', Closing s.image intakes ledger' blocks'
      ∧ ledger'.length = ledger.length
  have hstart : P 0 muxer := ⟨hwithin, ledger, blocks, h, rfl⟩
  refine passes_forM_range hstart ?_
  rintro index hindex s ⟨hs, ledger₁, blocks₁, h₁, hlength₁⟩
  refine ⟨passes_finishTrack h₁ hs index, fun s' hrun hs' => ⟨hs', ?_⟩⟩
  have hcount : muxer.tracks.length = ledger.length := by
    have htracks : muxer.tracks = ledger.map Entry.track := h.tracks
    rw [htracks, List.length_map]
  obtain ⟨next, ledger₂, blocks₂, hflat, h₂, hlength₂, _⟩ :=
    h₁.finishTrack (by omega : index < ledger₁.length)
  have hfinish : (Muxer.onTrack index Track.finish >>= Muxer.countMedia) s
      = .ok () s' := by
    rw [← action_finish]
    exact hrun
  obtain ⟨_, himage⟩ := (mirrors_bind (Muxer.mirrors_onTrack index
    Track.mirrors_finish) Muxer.mirrors_countMedia).eq_of_ok hfinish hflat
  have himage' : s'.image = next := himage
  rw [himage']
  exact ⟨ledger₂, blocks₂, h₂, hlength₂.trans hlength₁⟩

end Checked

end AudioMux

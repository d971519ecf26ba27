/-
Tracks without the places of their chunks.

Where the chunks of a track lie depends on what else is in the file; the
rest of the track does not. A track without the places (`Track.unplaced`)
grows in a way that can be told without the file (`unplaced_grown`).
Closing the file completes each track by itself (`Recording.completes`),
moves the chunks at most, and counts as much media as the chunks have
together (`Recording.proceed_finalize`). So the tables that a reader finds
in the file, but for the chunk offsets, are those of tracks without places
(`Recording.readTables?_eq`).
-/
import AudioMux.Proofs.Muxer.ReadBack

namespace AudioMux

open Box
open AccessUnit (payload)

-- ========================================================= without the places

/-- The chunk as if it had no place in the file. -/
def Chunk.unplaced (chunk : Chunk) : Chunk := { chunk with offset := 0 }

namespace ChunkTable

def unplaced (table : ChunkTable) : ChunkTable :=
  { table with newestFirst := table.newestFirst.map Chunk.unplaced }

theorem needsNewChunk_unplaced (table : ChunkTable)
    (duration timescale : UInt32) :
    table.unplaced.needsNewChunk duration timescale
      = table.needsNewChunk duration timescale := by
  unfold unplaced needsNewChunk
  cases table.newestFirst <;> rfl

theorem unplaced_place (position : Nat) (table : ChunkTable) :
    (table.place position).unplaced = table.unplaced := by
  obtain ⟨chunks, pending⟩ := table
  cases chunks <;> rfl

/-- Writing what is held back leaves the chunks as they are but for a
place. -/
theorem unplaced_settle (position : Nat) (table : ChunkTable) :
    (table.settle position).unplaced
      = { table.unplaced with pending := [] } := by
  unfold settle
  split
  · next h =>
    have hpending := List.isEmpty_iff.mp h
    show _ = ({ newestFirst := _, pending := [] } : ChunkTable)
    rw [← hpending]
    rfl
  · exact congrArg (fun other : ChunkTable => { other with pending := [] })
      (table.unplaced_place position)

theorem unplaced_extend (data : Bytes) (duration : UInt32)
    (table : ChunkTable) :
    (table.extend data duration).unplaced
      = table.unplaced.extend data duration := by
  obtain ⟨chunks, pending⟩ := table
  cases chunks <;> rfl

theorem unplaced_unplaced (table : ChunkTable) :
    table.unplaced.unplaced = table.unplaced := by
  unfold unplaced
  simp only [List.map_map]
  rfl

theorem unplaced_shift (gap : Nat) (table : ChunkTable) :
    (table.shift gap).unplaced = table.unplaced := by
  unfold shift unplaced
  simp only [List.map_map]
  rfl

theorem totalSize_unplaced (table : ChunkTable) :
    table.unplaced.totalSize = table.totalSize := by
  unfold totalSize unplaced
  rw [List.foldr_map]
  rfl

theorem sampleToChunk_unplaced (table : ChunkTable) :
    table.unplaced.sampleToChunk = table.sampleToChunk := by
  unfold sampleToChunk toList unplaced
  rw [← List.map_reverse]
  refine congrArg SampleToChunk.mk (sampleRuns_map ?_ _ _ _)
  exact fun _ => rfl

end ChunkTable

/-- The contents of the boxes that tell how long the samples of a track
are, how many go into each chunk, and how large they are. -/
structure PlainTables where
  times : Bytes
  chunks : Bytes
  sizes : Bytes
  deriving DecidableEq, Repr

namespace Track

/-- The track as if its chunks had no place in the file. -/
def unplaced (track : Track) : Track :=
  { track with chunks := track.chunks.unplaced }

/-- The track as closing the file leaves it, but for the places of its
chunks. -/
def completed (track : Track) : Track := (track.finished 0).unplaced

def plainTables (track : Track) : PlainTables where
  times := content track.samples.timeToSample
  chunks := content track.chunks.sampleToChunk
  sizes := content track.samples.sampleSizes

theorem unplaced_withRoom (track : Track) (duration : UInt32)
    (position position' : Nat) :
    (track.withRoom duration position).unplaced
      = (track.unplaced.withRoom duration position').unplaced := by
  have hneeds : track.unplaced.chunks.needsNewChunk duration
      track.unplaced.timescale
    = track.chunks.needsNewChunk duration track.timescale :=
    track.chunks.needsNewChunk_unplaced duration track.timescale
  unfold withRoom
  by_cases h : track.chunks.needsNewChunk duration track.timescale = true
  · rw [if_pos h, if_pos (hneeds.trans h)]
    have hsettle : (track.chunks.settle position).unplaced
        = (track.unplaced.chunks.settle position').unplaced := by
      rw [ChunkTable.unplaced_settle, ChunkTable.unplaced_settle]
      show _ = ({ track.chunks.unplaced.unplaced with pending := [] }
        : ChunkTable)
      rw [ChunkTable.unplaced_unplaced]
    exact congrArg (fun chunks : ChunkTable =>
      ({ track with chunks := chunks.openChunk } : Track)) hsettle
  · rw [if_neg h, if_neg (by rwa [hneeds])]
    exact congrArg (fun chunks : ChunkTable =>
      ({ track with chunks := chunks } : Track))
        track.chunks.unplaced_unplaced.symm

/-- Where the file ends is of no importance to how a track grows. -/
theorem unplaced_grown (track : Track) (data : Bytes) (duration : UInt32)
    (position position' : Nat) :
    (track.grown data duration position).unplaced
      = (track.unplaced.grown data duration position').unplaced := by
  -- A track with room is extended in the same way with and without places.
  have hextend : ∀ room : Track,
      (record (UInt32.ofNat data.length) duration
          { room with chunks := room.chunks.extend data duration }).unplaced
        = record (UInt32.ofNat data.length) duration
          { room.unplaced with
            chunks := room.unplaced.chunks.extend data duration } :=
    fun room => congrArg (fun chunks : ChunkTable =>
      record (UInt32.ofNat data.length) duration
        { room with chunks := chunks })
      (room.chunks.unplaced_extend data duration)
  unfold grown
  rw [hextend, hextend, track.unplaced_withRoom duration position position']

theorem unplaced_finished (track : Track) (position : Nat) :
    (track.finished position).unplaced = track.completed := by
  have hsettle : (track.chunks.settle position).unplaced
      = (track.chunks.settle 0).unplaced := by
    rw [ChunkTable.unplaced_settle, ChunkTable.unplaced_settle]
  unfold completed finished unplaced
  rw [hsettle]

theorem completed_unplaced (track : Track) :
    track.unplaced.completed = track.completed := by
  have hsettle : (track.chunks.unplaced.settle 0).unplaced
      = (track.chunks.settle 0).unplaced := by
    rw [ChunkTable.unplaced_settle, ChunkTable.unplaced_settle,
      ChunkTable.unplaced_unplaced]
  unfold completed finished unplaced
  dsimp only
  rw [hsettle, ChunkTable.totalSize_unplaced]
  rfl

theorem plainTables_unplaced (track : Track) :
    track.unplaced.plainTables = track.plainTables := by
  unfold plainTables unplaced
  rw [ChunkTable.sampleToChunk_unplaced]

end Track

namespace Muxer

/-- The tracks without the places of their chunks. -/
def unplacedTracks {σ : Type} (muxer : Muxer σ) : List Track :=
  muxer.tracks.map Track.unplaced

theorem plainTables_eq {σ : Type} (muxer : Muxer σ) :
    muxer.tracks.map Track.plainTables
      = muxer.unplacedTracks.map Track.plainTables := by
  unfold unplacedTracks
  rw [List.map_map]
  exact List.map_congr_left fun track _ => track.plainTables_unplaced.symm

end Muxer

-- ================================================================== closing

namespace Muxer

open AudioMux.Action (after)

theorem aside_unplacedTracks {σ : Type} :
    Aside (unplacedTracks (σ := σ)) :=
  ⟨fun _ _ => rfl, fun _ _ => rfl, fun _ _ => rfl⟩

/-- Finishing the tracks completes each of them. -/
theorem unplacedTracks_finishTracks {muxer finished : Muxer FlatFile}
    {file : FlatFile} (h : finishTracks muxer = .ok () finished)
    (hout : muxer.out = .ofSink file) :
    finished.unplacedTracks
      = muxer.unplacedTracks.map Track.completed := by
  -- Before round `n` the first `n` tracks are complete.
  let P : Nat → Muxer FlatFile → Prop := fun n s =>
    (∃ file, s.out = .ofSink file) ∧ ∀ i, s.unplacedTracks[i]?
      = muxer.unplacedTracks[i]?.map fun track =>
        if i < n then track.completed else track
  have hstart : P 0 muxer := by
    refine ⟨⟨file, hout⟩, fun i => ?_⟩
    simp
  have hround : ∀ n, n < muxer.tracks.length → ∀ s, P n s →
      ∃ s', (onTrack n Track.finish >>= countMedia) s = .ok ⟨⟩ s'
        ∧ P (n + 1) s' := by
    rintro n hn s ⟨⟨file, hout⟩, hs⟩
    have hentry : muxer.unplacedTracks[n]?
        = some (muxer.tracks[n]).unplaced := by
      unfold unplacedTracks
      rw [List.getElem?_map, List.getElem?_eq_getElem hn]
      rfl
    have hsame := hs n
    rw [hentry, Option.map_some, if_neg (Nat.lt_irrefl n)] at hsame
    obtain ⟨track, htrack, hunplaced⟩ := Option.map_eq_some_iff.mp
      ((List.getElem?_map ..).symm.trans hsame)
    refine ⟨_, finishTrack_flat hout htrack, ⟨_, rfl⟩, fun i => ?_⟩
    show ((s.tracks.set n (track.finished file.cursor)).map
      Track.unplaced)[i]? = _
    rw [List.map_set]
    by_cases hi : n = i
    · subst hi
      have hlt : n < (s.tracks.map Track.unplaced).length := by
        rw [List.length_map]
        exact (List.getElem?_eq_some_iff.mp htrack).1
      rw [List.getElem?_set_self hlt, hentry, Option.map_some,
        if_pos (Nat.lt_succ_self n), ← hunplaced, Track.completed_unplaced,
        Track.unplaced_finished]
    · have hlater : i < n + 1 ↔ i < n := by omega
      rw [List.getElem?_set_ne hi]
      simp only [hlater]
      exact hs i
  obtain ⟨s', hrun, _, hs'⟩ := Action.forM_range_ok hstart hround
  have hfinish : finishTracks muxer = .ok () s' := by
    unfold finishTracks
    exact (Action.apply_bind_ok (Action.apply_get _)).trans hrun
  cases h.symm.trans hfinish
  refine List.ext_getElem? fun i => ?_
  rw [hs' i, List.getElem?_map]
  by_cases hi : i < muxer.tracks.length
  · simp only [if_pos hi]
  · have hnone : muxer.unplacedTracks[i]? = none := by
      unfold unplacedTracks
      rw [List.getElem?_eq_none_iff, List.length_map]
      omega
    rw [hnone]
    rfl

/-- What is added in front of the media or behind it moves the chunks at
most. -/
theorem Sealed.after_addMovie {done : Muxer FlatFile}
    {intakes : List Intake} {ledger : List Entry} {blocks : List Block}
    (h : Sealed done intakes ledger blocks) (optimize : Bool) :
    (after (addMovie optimize done)).unplacedTracks = done.unplacedTracks
      ∧ (after (addMovie optimize done)).mediaSize = done.mediaSize := by
  have haround : ∀ (file : FlatFile),
      (done.around file).unplacedTracks = done.unplacedTracks
        ∧ (done.around file).mediaSize = done.mediaSize :=
    fun file => ⟨rfl, rfl⟩
  have hshift : ∀ (gap : Nat) (file : FlatFile),
      ((done.shift gap).around file).unplacedTracks = done.unplacedTracks
        ∧ ((done.shift gap).around file).mediaSize = done.mediaSize := by
    refine fun gap file => ⟨?_, rfl⟩
    show (done.tracks.map _).map _ = _
    rw [List.map_map]
    refine List.map_congr_left fun track _ => ?_
    exact congrArg (fun chunks : ChunkTable =>
      ({ track with chunks := chunks } : Track))
      (track.chunks.unplaced_shift gap)
  cases optimize with
  | false =>
      by_cases hfits : 8 + (content (done.movie 0)).length ≤ maxWord32
      · rw [h.append_ok hfits]
        exact haround _
      · obtain ⟨failure, file, herror, _⟩ := h.append_error (by omega)
        rw [herror]
        exact haround file
  | true =>
      have hfew : done.tracks.length ≤ 2 := by
        rw [h.tracks, List.length_map]
        exact h.few
      obtain ⟨gap, hgap⟩ := done.relocationGap_ok hfew
      by_cases hfits : 8 + (content (done.movie gap)).length ≤ maxWord32
      · rw [h.prepend_ok hgap hfits]
        exact hshift gap _
      · obtain ⟨failure, file, herror, _⟩ :=
          h.prepend_error hgap (by omega)
        rw [herror]
        exact hshift gap file

end Muxer

namespace Entry

/-- What a finished track has in the file is as long as its chunks say. -/
theorem Sound.length_stored {entry : Entry} (h : entry.Sound)
    (hsettled : entry.track.chunks.pending = []) :
    (Block.joined entry.stored).length = entry.track.chunks.totalSize := by
  have hstored : entry.stored
      = (Chunk.blocks entry.track.chunks.newestFirst entry.parts).filter
        Block.isFilled := by
    unfold stored closed
    rw [hsettled]
    rfl
  have hchunks := h.chunks
  unfold ChunkTable.totalSize
  rw [hstored]
  generalize entry.track.chunks.newestFirst = chunks at hchunks
  generalize entry.parts = parts at hchunks
  induction hchunks with
  | nil => rfl
  | @cons chunk units chunks parts hsums _ ih =>
      have hblocks : Chunk.blocks (chunk :: chunks) (units :: parts)
          = ⟨chunk.offset, payload units⟩ :: Chunk.blocks chunks parts := rfl
      rw [hblocks, List.foldr_cons, ← ih, hsums.size, List.filter_cons]
      split
      · rw [Block.joined_cons, List.length_append]
      · next hempty =>
        have hunits : payload units = [] := by
          simpa [Block.isFilled] using hempty
        rw [hunits, List.length_nil, Nat.zero_add]

end Entry

namespace Muxer

/-- There is as much media as the chunks of the tracks have together. -/
theorem Sealed.mediaSize_eq {done : Muxer FlatFile} {intakes : List Intake}
    {ledger : List Entry} {blocks : List Block}
    (h : Sealed done intakes ledger blocks) :
    done.mediaSize
      = (done.unplacedTracks.map fun track => track.chunks.totalSize).sum := by
  have hperm := (h.owned.flatMap_right Block.data).length_eq
  unfold Entry.storedBy at hperm
  rw [List.flatMap_assoc] at hperm
  rw [h.size]
  refine hperm.trans (List.length_flatMap.trans ?_)
  unfold unplacedTracks
  rw [h.tracks, List.map_map, List.map_map]
  refine congrArg List.sum (List.map_congr_left fun entry hentry => ?_)
  exact ((h.sound entry hentry).length_stored (h.settled entry hentry)).trans
    entry.track.chunks.totalSize_unplaced.symm

end Muxer

namespace Session

/-- The muxer of a session goes on whether a call succeeds or not. -/
theorem muxer_proceed {σ : Type} [Sink σ] (session : Session σ)
    (call : Call) :
    (session.proceed call).muxer
      = Action.after (call.perform session.muxer) := by
  unfold proceed
  cases call.perform session.muxer <;> rfl

/-- Closing the file completes every track before the movie box is
built. -/
theorem Recording.completes {session : Session FlatFile}
    {ledger : List Entry} {blocks : List Block}
    (h : session.Recording ledger blocks) :
    ∃ done ledger' blocks',
      Muxer.Sealed done session.intakes ledger' blocks'
        ∧ done.unplacedTracks
          = session.muxer.unplacedTracks.map Track.completed
        ∧ ∀ optimize, Muxer.finalize optimize session.muxer
          = Muxer.addMovie optimize done := by
  obtain ⟨finished, tagged, done, ledger', blocks', hfinish, hitem, hseal,
    hsealed, hfinal⟩ := Muxer.seal_of_recording h
  have hfirst := Muxer.unplacedTracks_finishTracks hfinish h.out
  exact ⟨done, ledger', blocks', hsealed,
    (Muxer.aside_unplacedTracks.seal hitem hseal).trans hfirst, hfinal⟩

/-- However closing the file ends, it leaves complete tracks, and as much
media as they have. -/
theorem Recording.proceed_finalize {session : Session FlatFile}
    {ledger : List Entry} {blocks : List Block}
    (h : session.Recording ledger blocks) (optimize : Bool) :
    (session.proceed (.finalize optimize)).muxer.unplacedTracks
        = session.muxer.unplacedTracks.map Track.completed
      ∧ (session.proceed (.finalize optimize)).muxer.mediaSize
        = (session.muxer.unplacedTracks.map fun track =>
          track.completed.chunks.totalSize).sum := by
  obtain ⟨done, ledger', blocks', hsealed, hdone, hfinal⟩ := h.completes
  have hafter : (session.proceed (.finalize optimize)).muxer
      = Action.after (Muxer.addMovie optimize done) := by
    rw [← hfinal optimize]
    exact muxer_proceed session (.finalize optimize)
  obtain ⟨htracks, hsize⟩ := hsealed.after_addMovie optimize
  rw [hafter, htracks, hsize, hsealed.mediaSize_eq, hdone, List.map_map]
  exact ⟨rfl, rfl⟩

end Session

-- ================================================================== reading

/-- What a reader finds of these boxes in the box of a track. -/
def readPlainTables? (track : Bytes) : Option PlainTables := do
  let media ← child? (.ofChars 'm' 'd' 'i' 'a') track
  let information ← child? (.ofChars 'm' 'i' 'n' 'f') media
  let tables ← child? (.ofChars 's' 't' 'b' 'l') information
  let times ← child? (.ofChars 's' 't' 't' 's') tables
  let chunks ← child? (.ofChars 's' 't' 's' 'c') tables
  let sizes ← child? (.ofChars 's' 't' 's' 'z') tables
  pure ⟨times, chunks, sizes⟩

/-- The same for all tracks of a file, in the order of their boxes. -/
def readTables? (file : Bytes) : Option (List PlainTables) := do
  let movie ← child? (.ofChars 'm' 'o' 'o' 'v') file
  let parts ← walk movie
  (Part.payloads (.ofChars 't' 'r' 'a' 'k') parts).mapM readPlainTables?

/-- A reader finds the tables of the tracks. -/
theorem Muxer.Closed.readTables?_eq {optimize : Bool}
    {muxer done : Muxer FlatFile} {intakes : List Intake}
    {ledger : List Entry} {blocks : List Block} {gap : Nat}
    (h : Closed optimize muxer intakes done ledger blocks gap)
    (hlength : muxer.out.sink.bytes.length < 2 ^ 64) :
    readTables? muxer.out.sink.bytes
      = some (done.tracks.map Track.plainTables) := by
  rw [h.seals.tracks, List.map_map]
  refine h.mapM_tracks hlength fun index entry hentry hfits => ?_
  have hmedia := size_media_le hfits
  have hinformation := size_information_le hmedia
  have htables := size_sampleTables_le hinformation
  unfold readPlainTables?
  simp only [child?_media hfits, child?_information hmedia,
    child?_sampleTables hinformation, child?_timeToSample htables,
    child?_sampleToChunk htables, child?_sampleSizes htables,
    Option.bind_eq_bind, Option.bind_some]
  rfl

/-- The tables in a closed file are those of the completed tracks. -/
theorem Session.Recording.readTables?_eq {session : Session FlatFile}
    {ledger : List Entry} {blocks : List Block}
    (h : session.Recording ledger blocks) {optimize : Bool}
    {final : Muxer FlatFile}
    (hfinalize : Muxer.finalize optimize session.muxer = .ok () final)
    (hlength : final.out.sink.bytes.length < 2 ^ 64) :
    readTables? final.out.sink.bytes
      = some (session.muxer.unplacedTracks.map fun track =>
        track.completed.plainTables) := by
  obtain ⟨done, ledger', blocks', hsealed, hdone, hfinal⟩ := h.completes
  rw [hfinal] at hfinalize
  rcases hsealed.addMovie_cases optimize with
    ⟨closed, gap, hok, _, hclosed⟩ | ⟨failure, closed, herror, _⟩
  · cases hfinalize.symm.trans hok
    rw [hclosed.readTables?_eq hlength, done.plainTables_eq, hdone,
      List.map_map]
    rfl
  · cases hfinalize.symm.trans herror

end AudioMux

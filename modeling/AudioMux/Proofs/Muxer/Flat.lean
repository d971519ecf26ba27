/-
What the actions of a muxer do around a flat file, until the file is
closed. A flat file never refuses a write, so each action has a closed
form: which bytes are written, and what becomes of the tables. One lemma
says so for each action, and nothing later unfolds one. Where the sink has
no part in what an action does, the lemma is about every sink.
-/
import AudioMux.Muxer.Finalize
import AudioMux.Proofs.Sink.Faithful

namespace AudioMux

-- ============================================================== the output

namespace Output

variable (file : FlatFile)

theorem position_flat :
    position (ofSink file) = .ok file.cursor (ofSink file) := rfl

theorem seek_flat (target : Nat) :
    seek target (ofSink file) = .ok () (ofSink (file.moveTo target)) := rfl

theorem flush_flat : flush (ofSink file) = .ok () (ofSink file) := rfl

theorem write_flat (data : Bytes) :
    write data (ofSink file) = .ok () (ofSink (file.write data)) := by
  cases data <;> rfl

theorem read_flat {count : Nat}
    (h : file.cursor + count ≤ file.bytes.length) :
    read count (ofSink file)
      = .ok (file.upcoming count)
          (ofSink (file.moveTo (file.cursor + count))) := by
  refine perform_ok ?_
  unfold Sink.readExact
  by_cases hcount : count = 0
  · rw [if_pos hcount, hcount]
    rfl
  · rw [if_neg hcount]
    exact FlatFile.read_of_le h

theorem put_flat {α : Type} [Box.Format α] (box : α) :
    put box (ofSink file)
      = .ok () (ofSink (file.write (Box.encode box))) :=
  write_flat file _

/-- The header of a box that is still open. -/
def openHeader (kind : FourCC) : Bytes := Bytes.bigEndian 4 0 ++ kind.bytes

@[simp] theorem length_openHeader (kind : FourCC) :
    (openHeader kind).length = 8 := by
  simp [openHeader]

theorem openBox_flat (kind : FourCC) :
    openBox kind (ofSink file)
      = .ok file.cursor (ofSink (file.write (openHeader kind))) := by
  unfold openBox writeWord
  rw [Action.apply_bind_ok (position_flat file),
    Action.apply_bind_ok (write_flat file _),
    Action.apply_bind_ok (write_flat _ _), FlatFile.write_write]
  rfl

/-- Closing a box writes its size over the front of its header and
comes back. -/
theorem closeBox_flat {start size : Nat} (hsize : file.cursor - start = size)
    (h : size ≤ Box.maxWord32) :
    closeBox start (ofSink file)
      = .ok size (ofSink
          (((file.moveTo start).write (Bytes.bigEndian 4 size)).moveTo
            file.cursor)) := by
  unfold closeBox
  rw [Action.apply_bind_ok (position_flat file), hsize,
    if_neg (by omega)]
  rfl

theorem closeBox_flat_error {start size : Nat}
    (hsize : file.cursor - start = size) (h : Box.maxWord32 < size) :
    closeBox start (ofSink file)
      = .error (.unsupported (.boxTooLarge size)) (ofSink file) := by
  unfold closeBox
  rw [Action.apply_bind_ok (position_flat file), hsize, if_pos h]
  rfl

/-- Closing the box that was just opened and filled: its size goes over the
zeros that it was opened with. -/
theorem closeBox_opened (kind : FourCC) {content : Bytes}
    (h : 8 + content.length ≤ Box.maxWord32) :
    closeBox file.cursor (ofSink (file.write (openHeader kind ++ content)))
      = .ok (8 + content.length) (ofSink (file.write
          (Bytes.bigEndian 4 (8 + content.length) ++
            (kind.bytes ++ content)))) := by
  have hcursor : (file.write (openHeader kind ++ content)).cursor
      - file.cursor = 8 + content.length := by
    rw [FlatFile.cursor_write, List.length_append, length_openHeader]
    omega
  have hsame : (Bytes.bigEndian 4 (8 + content.length)).length
      = (Bytes.bigEndian 4 0).length := by
    rw [Bytes.length_bigEndian, Bytes.length_bigEndian]
  have hagain := Bytes.overwrite_again file.bytes file.cursor []
    (kind.bytes ++ content) hsame
  rw [closeBox_flat _ hcursor h]
  refine congrArg (fun closed => EStateM.Result.ok _ (ofSink closed))
    (FlatFile.ext ?_ ?_)
  · unfold openHeader
    rw [List.append_assoc]
    exact hagain
  · show file.cursor + _ = file.cursor + _
    simp [openHeader]

/-- A box that got too large is left as it is. -/
theorem closeBox_opened_error (kind : FourCC) {content : Bytes}
    (h : Box.maxWord32 < 8 + content.length) :
    closeBox file.cursor (ofSink (file.write (openHeader kind ++ content)))
      = .error (.unsupported (.boxTooLarge (8 + content.length)))
          (ofSink (file.write (openHeader kind ++ content))) := by
  refine closeBox_flat_error _ ?_ h
  rw [FlatFile.cursor_write, List.length_append, length_openHeader]
  omega

end Output

-- ================================================================== chunks

namespace ChunkTable

/-- The table once the bytes held back are written at a position. -/
def settle (position : Nat) (table : ChunkTable) : ChunkTable :=
  if table.pending.isEmpty then table
  else { table.place position with pending := [] }

/-- The table with a sample in its newest chunk, if it has one. -/
def extend (data : Bytes) (duration : UInt32) (table : ChunkTable) :
    ChunkTable :=
  match table.newestFirst with
  | [] => table
  | chunk :: older =>
    ⟨chunk.add data.length duration :: older, table.pending ++ data⟩

theorem settle_of_pending_nil {table : ChunkTable} (h : table.pending = [])
    (position : Nat) : table.settle position = table := by
  unfold settle
  rw [h]
  rfl

theorem pending_settle (position : Nat) (table : ChunkTable) :
    (table.settle position).pending = [] := by
  unfold settle
  split
  · next h => exact List.isEmpty_iff.mp h
  · rfl

theorem place_pending (position : Nat) (table : ChunkTable) :
    (table.place position).pending = table.pending := by
  unfold place
  cases table.newestFirst <;> rfl

/-- A chunk that takes another sample is there. -/
theorem newestFirst_of_fits {table : ChunkTable}
    {duration timescale : UInt32}
    (h : ¬ table.needsNewChunk duration timescale = true) :
    table.newestFirst ≠ [] := by
  intro hnil
  apply h
  unfold needsNewChunk
  rw [hnil]

theorem append_eq_extend {table : ChunkTable} (h : table.newestFirst ≠ [])
    (data : Bytes) (duration : UInt32) :
    table.append data duration = .ok (table.extend data duration) := by
  unfold append extend
  cases hchunks : table.newestFirst with
  | nil => exact absurd hchunks h
  | cons chunk older => rfl

theorem flush_flat (table : ChunkTable) (file : FlatFile) :
    flush (table, Output.ofSink file)
      = .ok table.pending.length
          (table.settle file.cursor,
            Output.ofSink (file.write table.pending)) := by
  unfold flush settle
  by_cases h : table.pending.isEmpty = true
  · simp only [List.isEmpty_iff.mp h, List.isEmpty_nil, if_true,
      List.length_nil, FlatFile.write_nil]
  · simp only [if_neg h, Output.position_flat, Output.write_flat,
      place_pending]

end ChunkTable

-- ================================================================== tracks

namespace Track

/-- The duration that a new sample gets. -/
def durationInForce (duration : UInt32) (track : Track) : UInt32 :=
  track.fixedDuration?.getD duration

/-- The bytes that are written before a sample of this duration goes
in. -/
def released (duration : UInt32) (track : Track) : Bytes :=
  if track.chunks.needsNewChunk duration track.timescale then
    track.chunks.pending
  else []

/-- The track with an open chunk for a sample of this duration, what was
released being written at a position. -/
def withRoom (duration : UInt32) (position : Nat) (track : Track) : Track :=
  if track.chunks.needsNewChunk duration track.timescale then
    { track with chunks := (track.chunks.settle position).openChunk }
  else track

/-- The track with one more sample. -/
def grown (data : Bytes) (duration : UInt32) (position : Nat)
    (track : Track) : Track :=
  let room := track.withRoom duration position
  record (UInt32.ofNat data.length) duration
    { room with chunks := room.chunks.extend data duration }

/-- The track with its average bit rate and without open chunk. -/
def finished (position : Nat) (track : Track) : Track :=
  { track with
    averageBitrate :=
      bitrate track.chunks.totalSize track.duration track.timescale
    chunks := track.chunks.settle position }

theorem chunks_withRoom_ne_nil (duration : UInt32) (position : Nat)
    (track : Track) :
    (track.withRoom duration position).chunks.newestFirst ≠ [] := by
  unfold withRoom
  split
  · exact List.cons_ne_nil _ _
  · next h => exact ChunkTable.newestFirst_of_fits h

section
variable {σ α : Type} {track : Track} {out out' : Output σ}

theorem onChunks_ok
    {action : EStateM Failure (ChunkTable × Output σ) α} {a : α}
    {chunks : ChunkTable}
    (h : action (track.chunks, out) = .ok a (chunks, out')) :
    onChunks action (track, out)
      = .ok a ({ track with chunks := chunks }, out') := by
  unfold onChunks
  simp only [h]

theorem onChunks_error
    {action : EStateM Failure (ChunkTable × Output σ) α} {failure : Failure}
    {chunks : ChunkTable}
    (h : action (track.chunks, out) = .error failure (chunks, out')) :
    onChunks action (track, out)
      = .error failure ({ track with chunks := chunks }, out') := by
  unfold onChunks
  simp only [h]

theorem add_ok {data : Bytes} {duration : UInt32}
    (h : track.chunks.newestFirst ≠ []) :
    add data duration (track, out)
      = .ok () (record (UInt32.ofNat data.length) duration
          { track with chunks := track.chunks.extend data duration },
          out) := by
  unfold add
  rw [Action.apply_bind_ok (Action.apply_get _)]
  simp only [ChunkTable.append_eq_extend h]
  rfl

variable [Sink σ] {duration : UInt32}

theorem makeRoom_of_fits
    (h : ¬ track.chunks.needsNewChunk duration track.timescale = true)
    (out : Output σ) :
    makeRoom duration (track, out) = .ok 0 (track, out) := by
  unfold makeRoom
  rw [Action.apply_bind_ok (Action.apply_get _)]
  dsimp only
  rw [if_neg h]
  rfl

theorem makeRoom_of_flush_ok
    (h : track.chunks.needsNewChunk duration track.timescale = true)
    {flushed : Nat} {chunks : ChunkTable}
    (hflush : ChunkTable.flush (track.chunks, out)
      = .ok flushed (chunks, out')) :
    makeRoom duration (track, out)
      = .ok flushed ({ track with chunks := chunks.openChunk }, out') := by
  unfold makeRoom
  rw [Action.apply_bind_ok (Action.apply_get _)]
  dsimp only
  rw [if_pos h, Action.apply_bind_ok (onChunks_ok hflush)]
  rfl

theorem makeRoom_of_flush_error
    (h : track.chunks.needsNewChunk duration track.timescale = true)
    {failure : Failure} {chunks : ChunkTable}
    (hflush : ChunkTable.flush (track.chunks, out)
      = .error failure (chunks, out')) :
    makeRoom duration (track, out)
      = .error failure ({ track with chunks := chunks }, out') := by
  unfold makeRoom
  rw [Action.apply_bind_ok (Action.apply_get _)]
  dsimp only
  rw [if_pos h]
  exact Action.apply_bind_error (onChunks_error hflush)

end

variable (file : FlatFile) (track : Track)

/-- A sample that is not too large is added where there is room. -/
theorem append_of_le {σ : Type} [Sink σ] {data : Bytes} (duration : UInt32)
    (h : data.length ≤ Box.maxWord32) (out : Output σ) :
    append data duration (track, out)
      = (makeRoom (track.durationInForce duration) >>= fun flushed =>
          add data (track.durationInForce duration) >>= fun _ =>
          pure flushed) (track, out) := by
  unfold append
  rw [Action.apply_bind_ok (Action.apply_get _)]
  dsimp only
  rw [if_neg (by omega)]
  rfl

theorem append_too_large {σ : Type} [Sink σ] {data : Bytes}
    (duration : UInt32) (h : Box.maxWord32 < data.length)
    (out : Output σ) :
    append data duration (track, out)
      = .error (.unsupported (.sampleTooLarge data.length)) (track, out) := by
  unfold append
  rw [Action.apply_bind_ok (Action.apply_get _)]
  dsimp only
  rw [if_pos h]
  rfl

theorem makeRoom_flat (duration : UInt32) :
    makeRoom duration (track, Output.ofSink file)
      = .ok (track.released duration).length
          (track.withRoom duration file.cursor,
            Output.ofSink (file.write (track.released duration))) := by
  unfold released withRoom
  by_cases h : track.chunks.needsNewChunk duration track.timescale = true
  · simp only [h, if_true]
    exact makeRoom_of_flush_ok h (ChunkTable.flush_flat track.chunks file)
  · simp only [if_neg h]
    exact makeRoom_of_fits h _

theorem append_flat {data : Bytes} (duration : UInt32)
    (h : data.length ≤ Box.maxWord32) :
    append data duration (track, Output.ofSink file)
      = .ok (track.released (track.durationInForce duration)).length
          (track.grown data (track.durationInForce duration) file.cursor,
            Output.ofSink (file.write
              (track.released (track.durationInForce duration)))) := by
  rw [append_of_le track duration h,
    Action.apply_bind_ok (makeRoom_flat file track _),
    Action.apply_bind_ok (add_ok (chunks_withRoom_ne_nil _ _ _))]
  rfl

theorem finish_flat :
    finish (track, Output.ofSink file)
      = .ok track.chunks.pending.length
          (track.finished file.cursor,
            Output.ofSink (file.write track.chunks.pending)) := by
  unfold finish
  rw [Action.apply_bind_ok (Action.apply_modify _ _)]
  exact onChunks_ok (ChunkTable.flush_flat track.chunks file)

end Track

-- =============================================================== the muxer

/-- Changing what is there is putting something in its place. -/
theorem modify_eq_set_of_getElem? {α : Type} {l : List α} {i : Nat} {a : α}
    (h : l[i]? = some a) (f : α → α) : l.modify i f = l.set i (f a) := by
  have : Inhabited α := ⟨a⟩
  rw [List.modify_eq_set, h]
  rfl

/-- Putting back what is there changes nothing. -/
theorem set_of_getElem? {α : Type} {l : List α} {i : Nat} {a : α}
    (h : l[i]? = some a) : l.set i a = l := by
  obtain ⟨hlt, rfl⟩ := List.getElem?_eq_some_iff.mp h
  exact List.set_getElem_self hlt

namespace Muxer

section
variable {σ α : Type} {muxer : Muxer σ}

theorem onOutput_ok {action : Writing σ α} {a : α}
    {out : Output σ} (h : action muxer.out = .ok a out) :
    onOutput action muxer = .ok a { muxer with out := out } := by
  unfold onOutput
  rw [h]

theorem onOutput_error {action : Writing σ α} {failure : Failure}
    {out : Output σ} (h : action muxer.out = .error failure out) :
    onOutput action muxer = .error failure { muxer with out := out } := by
  unfold onOutput
  rw [h]

/-- What is done with the output changes nothing else. -/
theorem onOutput_eq_ok {action : Writing σ α} {a : α} {after : Muxer σ}
    (h : onOutput action muxer = .ok a after) :
    ∃ out, action muxer.out = .ok a out
      ∧ after = { muxer with out := out } := by
  unfold onOutput at h
  cases hrun : action muxer.out with
  | ok a' out =>
      rw [hrun] at h
      cases h
      exact ⟨out, rfl, rfl⟩
  | error failure out =>
      rw [hrun] at h
      cases h

theorem onTrack_ok {action : Tracking σ α} {index : Nat}
    {track after : Track} {a : α} {out : Output σ}
    (htrack : muxer.tracks[index]? = some track)
    (h : action (track, muxer.out) = .ok a (after, out)) :
    onTrack index action muxer
      = .ok a { muxer with
          tracks := muxer.tracks.set index after, out := out } := by
  unfold onTrack
  rw [htrack]
  simp only [h]

theorem onTrack_error {action : Tracking σ α} {index : Nat}
    {track after : Track} {failure : Failure} {out : Output σ}
    (htrack : muxer.tracks[index]? = some track)
    (h : action (track, muxer.out) = .error failure (after, out)) :
    onTrack index action muxer
      = .error failure { muxer with
          tracks := muxer.tracks.set index after, out := out } := by
  unfold onTrack
  rw [htrack]
  simp only [h]

end

variable {α : Type} {muxer : Muxer FlatFile} {file : FlatFile}

theorem put_flat {β : Type} [Box.Format β]
    (hout : muxer.out = .ofSink file) (box : β) :
    onOutput (Output.put box) muxer
      = .ok () { muxer with
          out := .ofSink (file.write (Box.encode box)) } :=
  onOutput_ok (by rw [hout]; exact Output.put_flat file box)

theorem openBox_flat (hout : muxer.out = .ofSink file) (kind : FourCC) :
    onOutput (Output.openBox kind) muxer
      = .ok file.cursor { muxer with
          out := .ofSink (file.write (Output.openHeader kind)) } :=
  onOutput_ok (by rw [hout]; exact Output.openBox_flat file kind)

theorem position_flat (hout : muxer.out = .ofSink file) :
    onOutput Output.position muxer = .ok file.cursor muxer := by
  obtain ⟨out, _⟩ := muxer
  subst hout
  rfl

theorem checkFault_flat (hout : muxer.out = .ofSink file) :
    checkFault muxer = .ok () muxer := by
  obtain ⟨out, _⟩ := muxer
  subst hout
  rfl

theorem checkConfigurable_flat (hout : muxer.out = .ofSink file)
    (hphase : muxer.phase ≠ .finalized) :
    checkConfigurable muxer = .ok () muxer := by
  unfold checkConfigurable
  rw [Action.apply_bind_ok (checkFault_flat hout),
    Action.apply_bind_ok (Action.apply_get _), if_neg hphase]
  rfl

theorem configureTrack_flat {index : Nat} {track : Track}
    (hout : muxer.out = .ofSink file) (hphase : muxer.phase ≠ .finalized)
    (htrack : muxer.tracks[index]? = some track)
    (change : Track → Track) :
    configureTrack index change muxer
      = .ok () { muxer with
          tracks := muxer.tracks.set index (change track) } := by
  unfold configureTrack
  rw [Action.apply_bind_ok (checkConfigurable_flat hout hphase)]
  exact onTrack_ok htrack rfl

theorem addTrack_flat {codec : Codec} {timescale : UInt32}
    (hout : muxer.out = .ofSink file) (hphase : muxer.phase = .configuring)
    (hfew : muxer.tracks.length < maxTracks) (hscale : timescale ≠ 0) :
    addTrack codec timescale muxer
      = .ok muxer.tracks.length { muxer with
          tracks := muxer.tracks ++ [Track.new codec timescale] } := by
  unfold addTrack
  rw [Action.apply_bind_ok
      (checkConfigurable_flat hout (by rw [hphase]; decide)),
    Action.apply_bind_ok (Action.apply_get _)]
  dsimp only
  rw [if_neg (not_not.mpr hphase), if_neg (by omega), if_neg hscale]
  rfl

/-- What stands in front of the media while it is written: the file
type, the free box, and the open media data box. -/
def preamble : Bytes :=
  Box.encode Box.FileType.mpeg4Audio ++ Box.encode (Box.FreeSpace.mk 8) ++
    Output.openHeader Box.mediaDataKind

theorem length_fileType :
    (Box.encode Box.FileType.mpeg4Audio).length = 32 := by decide

theorem length_preamble : preamble.length = 48 := by decide

theorem beginWriting_flat (hout : muxer.out = .ofSink .empty)
    (hphase : muxer.phase = .configuring) :
    beginWriting muxer
      = .ok () { muxer with
          out := .ofSink (FlatFile.empty.write preamble)
          headerEnd := 32
          mediaStart := 48
          phase := .writing } := by
  unfold beginWriting
  rw [Action.apply_bind_ok
      (checkConfigurable_flat hout (by rw [hphase]; decide)),
    Action.apply_bind_ok (Action.apply_get _),
    if_neg (by rw [hphase]; decide)]
  dsimp only
  rw [Action.apply_bind_ok (put_flat hout _),
    Action.apply_bind_ok (position_flat rfl),
    Action.apply_bind_ok (Action.apply_modify _ _),
    Action.apply_bind_ok (put_flat rfl _),
    Action.apply_bind_ok (Action.apply_discard_ok (openBox_flat rfl _)),
    Action.apply_bind_ok (position_flat rfl), Action.apply_modify,
    FlatFile.write_write, FlatFile.write_write, ← List.append_assoc]
  simp only [FlatFile.cursor_write, length_fileType]
  have hlength := length_preamble
  unfold preamble at hlength ⊢
  rw [hlength]
  rfl

theorem appendSample_flat {index : Nat} {track : Track} {data : Bytes}
    {duration : UInt32} (hout : muxer.out = .ofSink file)
    (hphase : muxer.phase = .writing)
    (htrack : muxer.tracks[index]? = some track)
    (hdata : data.length ≤ Box.maxWord32) :
    appendSample index data duration muxer
      = .ok () { muxer with
          out := .ofSink (file.write
            (track.released (track.durationInForce duration)))
          tracks := muxer.tracks.set index
            (track.grown data (track.durationInForce duration) file.cursor)
          mediaSize := muxer.mediaSize +
            (track.released (track.durationInForce duration)).length } := by
  unfold appendSample
  rw [Action.apply_bind_ok (checkFault_flat hout),
    Action.apply_bind_ok (Action.apply_get _),
    if_neg (by rw [hphase]; decide)]
  dsimp only
  have happend := Track.append_flat file track duration hdata
  rw [← hout] at happend
  rw [Action.apply_bind_ok (onTrack_ok htrack happend)]
  rfl

theorem appendSample_flat_error {index : Nat} {data : Bytes}
    {duration : UInt32} {failure : Failure}
    (hout : muxer.out = .ofSink file) (hphase : muxer.phase = .writing)
    (htrack : onTrack index (Track.append data duration) muxer
      = .error failure muxer) :
    appendSample index data duration muxer = .error failure muxer := by
  unfold appendSample
  rw [Action.apply_bind_ok (checkFault_flat hout),
    Action.apply_bind_ok (Action.apply_get _),
    if_neg (by rw [hphase]; decide)]
  exact Action.apply_bind_error htrack

theorem finishTrack_flat {index : Nat} {track : Track}
    (hout : muxer.out = .ofSink file)
    (htrack : muxer.tracks[index]? = some track) :
    (onTrack index Track.finish >>= countMedia) muxer
      = .ok () { muxer with
          out := .ofSink (file.write track.chunks.pending)
          tracks := muxer.tracks.set index (track.finished file.cursor)
          mediaSize := muxer.mediaSize + track.chunks.pending.length } := by
  have hfinish := Track.finish_flat file track
  rw [← hout] at hfinish
  rw [Action.apply_bind_ok (onTrack_ok htrack hfinish)]
  rfl

end Muxer

end AudioMux

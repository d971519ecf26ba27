/-
What a muxer takes for granted.

The numbers of a muxer are kept in 32 or 64 bits, and products for rates
and times in 128. The actions here are those of the muxer with the checks
this comes with, at the points where the numbers come up: sums fit the
width they are kept in, differences are not negative, and what is taken
for granted about positions and sizes is so. Without its checks each of
them is the action it is named after.

The checks are meant for files of less than `2 ^ 63` bytes with fewer than
`2 ^ 32` samples in each track (`Within`).
-/
import AudioMux.Proofs.Checks.Checked
import AudioMux.Proofs.Muxer.Session

namespace AudioMux

open Box (Format)

-- ==================================================================== limits

section
variable {σ : Type} [Sink σ] [FaithfulSink σ]

/-- The file is shorter than `2 ^ 63` bytes. -/
instance : Limited (Output σ) where
  Within out := (FaithfulSink.view out.sink).bytes.length < 2 ^ 63

instance : Limited (ChunkTable × Output σ) where
  Within s := Within s.2

/-- There are fewer than `2 ^ 32` samples. -/
instance : Limited (Track × Output σ) where
  Within s := Within s.2 ∧ s.1.samples.length < 2 ^ 32

instance : Limited (Muxer σ) where
  Within muxer := Within muxer.out
    ∧ ∀ track ∈ muxer.tracks, track.samples.length < 2 ^ 32

end

-- ==================================================================== ranges

/-- All that is multiplied out on the way to a bit rate. -/
structure BitrateInRange (bytes ticks : Nat) (timescale : UInt32) :
    Prop where
  size : bytes < 2 ^ 64
  duration : ticks < 2 ^ 64
  bits : bytes * 8 < 2 ^ 128
  product : bytes * 8 * timescale.toNat < 2 ^ 128
  rounded : bytes * 8 * timescale.toNat * 2 + ticks < 2 ^ 128
  divisor : ticks * 2 < 2 ^ 128

/-- All that is multiplied out on the way to another timescale. -/
structure RescaleInRange (ticks : Nat) (source target : UInt32) :
    Prop where
  duration : ticks < 2 ^ 64
  product : ticks * target.toNat + source.toNat / 2 < 2 ^ 128

/-- What a chunk counts. -/
structure Chunk.InRange (chunk : Chunk) : Prop where
  size : chunk.size < 2 ^ 64
  samples : chunk.samples < 2 ^ 32
  duration : chunk.duration < 2 ^ 64

/-- Letters are packed into five bits each, counted from 0x60. -/
def Box.Language.InRange (language : Language) : Prop :=
  0x60 ≤ language.first ∧ 0x60 ≤ language.second ∧ 0x60 ≤ language.third

theorem Box.Language.inRange_undetermined : undetermined.InRange :=
  ⟨by decide, by decide, by decide⟩

/-- The runs of equal durations while they are counted. -/
def SampleTable.durationRuns (table : SampleTable) : List (Nat × UInt32) :=
  table.newestFirst.foldl
    (fun runs sample => addToRuns sample.duration runs) []

theorem SampleTable.timeToSample_eq (table : SampleTable) :
    table.timeToSample = ⟨table.durationRuns.map fun (count, delta) =>
      ⟨UInt32.ofNat count, delta⟩⟩ := rfl

namespace Track

/-- What grew with a sample, and what is made of it for the highest bit
rate. The sums on the way are not larger than the last. -/
structure CountsInRange (track : Track) : Prop where
  duration : track.duration < 2 ^ 64
  newest : ∀ chunk ∈ track.chunks.newest?, chunk.InRange
  window : BitrateInRange
    (SampleTable.trailing track.timescale.toNat 0 0
      track.samples.newestFirst).1
    (SampleTable.trailing track.timescale.toNat 0 0
      track.samples.newestFirst).2 track.timescale

/-- What is counted and added up for the box of a track whose chunks are
moved by a distance. -/
structure BoxInRange (track : Track) (target : UInt32) (distance : Nat) :
    Prop where
  priming : track.delay.toNat + track.padding.toNat < 2 ^ 64
  duration : RescaleInRange track.duration track.timescale target
  presentation :
    RescaleInRange track.presentationDuration track.timescale target
  runs : ∀ run ∈ track.samples.durationRuns, run.1 < 2 ^ 32
  numbers : track.chunks.length < 2 ^ 32
  offsets : ∀ chunk ∈ track.chunks.newestFirst,
    chunk.offset + distance < 2 ^ 64

end Track

namespace Muxer

variable {σ : Type} (muxer : Muxer σ)

/-- What is counted and added up for the movie box. No box in it is larger
than the movie box. -/
structure MovieInRange (distance : Nat) : Prop where
  tracks : ∀ track ∈ muxer.tracks,
    track.BoxInRange muxer.timescale distance
      ∧ (muxer.mediaHeader track).language.InRange
  trackCount : muxer.tracks.length + 1 < 2 ^ 32
  size : Format.size (muxer.movie distance) < 2 ^ 64

/-- A probe measures the size that the movie box declares. -/
structure ProbeInRange (distance : Nat) : Prop where
  movie : muxer.MovieInRange distance
  extent : muxer.movieSize distance < 2 ^ 64
  measured : muxer.movieSize distance = Format.size (muxer.movie distance)

/-- The passes that look for a gap, the first one with `gap`. -/
def PassesInRange (gap : Nat) : Nat → Prop
  | 0 => True
  | passes + 1 =>
    muxer.ProbeInRange gap ∧ muxer.movieSize gap + 8 < 2 ^ 64
      ∧ (¬ (muxer.movieSize gap = gap ∨ muxer.movieSize gap + 8 ≤ gap) →
        muxer.movieSize gap + headroom < 2 ^ 64
          ∧ PassesInRange (muxer.movieSize gap + headroom) passes)

/-- Looking for a gap. -/
structure GapInRange : Prop where
  probe : muxer.ProbeInRange 0
  first : muxer.movieSize 0 + headroom < 2 ^ 64
  passes : muxer.PassesInRange (muxer.movieSize 0 + headroom) maxPasses

end Muxer

-- =================================================================== actions

namespace Checked

variable {σ α : Type} [Sink σ] [FaithfulSink σ]

/-- Writes the bytes held back. The chunk before the newest ends where it
goes, or before. -/
def flush : Checked (ChunkTable × Output σ) Nat := do
  let s ← get
  if s.1.pending.isEmpty then
    pure 0
  else
    let offset ← plain (beside ChunkTable Output.position)
    check fun _ => ∀ previous ∈ s.1.newestFirst[1]?,
      previous.offset + previous.size < 2 ^ 64
        ∧ previous.offset + previous.size ≤ offset
    modify fun s => (s.1.place offset, s.2)
    plain (beside ChunkTable
      (Output.write (s.1.place offset).pending))
    modify fun s => ({ s.1 with pending := [] }, s.2)
    pure (s.1.place offset).pending.length

/-- Does something with the chunks of a track. -/
def onChunks (checked : Checked (ChunkTable × Output σ) α) :
    Checked (Track × Output σ) α :=
  ⟨Track.onChunks checked.action,
    fun s => checked.Passes (s.1.chunks, s.2)⟩

/-- Makes room for a sample of this duration. -/
def makeRoom (duration : UInt32) : Checked (Track × Output σ) Nat := do
  let track := (← get).1
  check fun _ => ∀ chunk ∈ track.chunks.newest?,
    chunk.duration + duration.toNat < 2 ^ 64
  if track.chunks.needsNewChunk duration track.timescale then
    let flushed ← onChunks flush
    plain (Track.onChunks
      (modify fun (chunks, out) => (chunks.openChunk, out)))
    pure flushed
  else
    pure 0

/-- Adds a sample. What it adds to is looked at when it is there. -/
def add (data : Bytes) (duration : UInt32) :
    Checked (Track × Output σ) Unit := do
  check fun s => s.1.chunks.pending.length + data.length < 2 ^ 64
  plain (Track.add data duration)
  check fun s => s.1.CountsInRange

/-- Appends a sample. -/
def append (data : Bytes) (duration : UInt32) :
    Checked (Track × Output σ) Nat := do
  let duration := (← get).1.fixedDuration?.getD duration
  if Box.maxWord32 < data.length then
    refuse (.unsupported (.sampleTooLarge data.length))
  let flushed ← makeRoom duration
  add data duration
  pure flushed

/-- Finishes a track. -/
def finish : Checked (Track × Output σ) Nat := do
  check fun s => BitrateInRange s.1.chunks.totalSize s.1.duration
    s.1.timescale
  modify fun (track, out) =>
    ({ track with
        averageBitrate :=
          bitrate track.chunks.totalSize track.duration track.timescale },
      out)
  onChunks flush

/-- Does something with the output of a muxer. -/
def onOutput (checked : Checked (Output σ) α) : Checked (Muxer σ) α :=
  ⟨Muxer.onOutput checked.action, fun muxer => checked.Passes muxer.out⟩

/-- Does something with a track of a muxer. -/
def onTrack (index : Nat) (checked : Checked (Track × Output σ) α) :
    Checked (Muxer σ) α :=
  ⟨Muxer.onTrack index checked.action, fun muxer =>
    ∀ track ∈ muxer.tracks[index]?, checked.Passes (track, muxer.out)⟩

/-- Adds a track. Its index is one less than the number of tracks. -/
def addTrack (codec : Codec) (timescale : UInt32) :
    Checked (Muxer σ) Unit := do
  plain (discard (Muxer.addTrack codec timescale))
  check fun muxer => 1 ≤ muxer.tracks.length

/-- Starts the file. The media starts 16 bytes behind the file type. -/
def beginWriting : Checked (Muxer σ) Unit := do
  plain Muxer.checkConfigurable
  if (← get).phase ≠ .configuring then
    refuse (.unsupported .alreadyWriting)
  plain (Muxer.onOutput (Output.put Box.FileType.mpeg4Audio))
  let headerEnd ← plain (Muxer.onOutput Output.position)
  modify fun muxer => { muxer with headerEnd := headerEnd }
  check fun _ => 8 ≤ Format.size (Box.FreeSpace.mk 8)
  plain (Muxer.onOutput (Output.put (Box.FreeSpace.mk 8)))
  plain (discard (Muxer.onOutput (Output.openBox Box.mediaDataKind)))
  let mediaStart ← plain (Muxer.onOutput Output.position)
  check fun _ => Format.size Box.FileType.mpeg4Audio + 16 < 2 ^ 64
    ∧ mediaStart = Format.size Box.FileType.mpeg4Audio + 16
  modify fun muxer =>
    { muxer with mediaStart := mediaStart, phase := .writing }

/-- Counts media that was written. -/
def countMedia (written : Nat) : Checked (Muxer σ) Unit := do
  check fun muxer => muxer.mediaSize + written < 2 ^ 64
  plain (Muxer.countMedia written)

/-- Appends a sample to a track. -/
def appendSample (index : Nat) (data : Bytes) (duration : UInt32) :
    Checked (Muxer σ) Unit := do
  plain Muxer.checkFault
  if (← get).phase ≠ .writing then
    refuse (.unsupported .notWriting)
  let flushed ← onTrack index (append data duration)
  countMedia flushed

/-- Finishes the tracks, one after the other. -/
def finishTracks : Checked (Muxer σ) Unit := do
  let count := (← get).tracks.length
  (List.range count).forM fun index => do
    countMedia (← onTrack index finish)

/-- Adds the gapless item for the first track. -/
def addGaplessItem : Checked (Muxer σ) Unit := do
  check fun muxer => ∀ track ∈ muxer.tracks.head?,
    track.delay.toNat + track.padding.toNat < 2 ^ 64
  plain Muxer.addGaplessItem

/-- Writes the header of the media. There is room for it in front of the
media, and the extended form states 16 bytes more than the media has. -/
def writeMediaHeader : Checked (Muxer σ) Unit := do
  let muxer ← get
  let header : Box.MediaDataHeader := ⟨muxer.mediaSize⟩
  check fun _ => muxer.mediaSize + 16 < 2 ^ 64
    ∧ header.length ≤ muxer.mediaStart
  plain (Muxer.onOutput
    (Output.seek (muxer.mediaStart - header.length)))
  plain (Muxer.onOutput (Output.write header.encode))
  check fun _ => muxer.mediaStart + muxer.mediaSize < 2 ^ 64
  plain (Muxer.onOutput
    (Output.seek (muxer.mediaStart + muxer.mediaSize)))

/-- Closes a box. The cursor is not in front of it. -/
def closeBox (start : Nat) : Checked (Output σ) Nat := do
  let position ← plain Output.position
  check fun _ => start ≤ position
  let size := position - start
  if Box.maxWord32 < size then
    refuse (.unsupported (.boxTooLarge size))
  plain (Output.writeWord32At start size)
  pure size

/-- Writes a movie box, which comes out as large as it declares. -/
def writeMovie (movie : Box.Movie) : Checked (Output σ) Nat := do
  let start ← plain (Output.openBox (Format.kind movie))
  plain (Output.write (Box.content movie))
  let size ← closeBox start
  check fun _ => size = Format.size movie
  pure size

/-- Writes the movie box after the media. -/
def appendMovie : Checked (Muxer σ) Unit := do
  let muxer ← get
  check fun _ => muxer.MovieInRange 0
  dropping (onOutput (writeMovie (muxer.movie 0)))

/-- Moves bytes in blocks, back to front. -/
def moveBlocks (start gap block remaining : Nat) :
    Checked (Output σ) Unit := do
  if remaining = 0 ∨ block = 0 then
    pure ()
  else
    let count := min remaining block
    let source := start + (remaining - count)
    check fun _ => count ≤ remaining ∧ source < 2 ^ 64
    plain (Output.seek source)
    let bytes ← plain (Output.read count)
    check fun _ => source + gap < 2 ^ 64
    plain (Output.seek (source + gap))
    plain (Output.write bytes)
    moveBlocks start gap block (remaining - count)
termination_by remaining
decreasing_by omega

/-- Moves all media, and the offsets of the chunks with it. -/
def moveMedia (gap block : Nat) : Checked (Muxer σ) Unit := do
  let muxer ← get
  onOutput (moveBlocks muxer.mediaStart gap block muxer.mediaSize)
  check fun muxer => muxer.mediaStart + gap < 2 ^ 64
    ∧ ∀ track ∈ muxer.tracks, ∀ chunk ∈ track.chunks.newestFirst,
      chunk.offset + gap < 2 ^ 64
  modify fun muxer => { muxer with
    tracks := muxer.tracks.map fun track =>
      { track with chunks := track.chunks.shift gap }
    mediaStart := muxer.mediaStart + gap }

/-- Writes the movie box into a gap in front of the media, and free space
behind it. -/
def fillGap (gap : Nat) : Checked (Muxer σ) Unit := do
  let muxer ← get
  check fun _ => muxer.MovieInRange 0
  let size ← onOutput (writeMovie (muxer.movie 0))
  check fun _ => size ≤ gap
  if size < gap then
    check fun _ => 8 ≤ Format.size (Box.FreeSpace.mk (gap - size))
    plain (Muxer.onOutput (Output.put (Box.FreeSpace.mk (gap - size))))
  check fun muxer => muxer.mediaStart + muxer.mediaSize < 2 ^ 64
  plain (Muxer.onOutput
    (Output.seek ((← get).mediaStart + (← get).mediaSize)))

/-- Writes the movie box between the file type and the media. -/
def prependMovie : Checked (Muxer σ) Unit := do
  let muxer ← get
  check fun _ => muxer.GapInRange
  match muxer.relocationGap with
  | .error failure => refuse failure
  | .ok gap =>
    moveMedia gap Muxer.moveBlock
    check fun muxer => 16 ≤ muxer.mediaStart
    plain (Muxer.onOutput (Output.seek ((← get).mediaStart - 16)))
    plain (Muxer.onOutput (Output.put (Box.FreeSpace.mk 8)))
    plain (discard (Muxer.onOutput (Output.openBox Box.mediaDataKind)))
    writeMediaHeader
    plain (Muxer.onOutput (Output.seek (← get).headerEnd))
    fillGap gap

/-- Closes the file. -/
def finalize (optimize : Bool) : Checked (Muxer σ) Unit := do
  plain Muxer.checkFault
  match (← get).phase with
  | .configuring => refuse (.unsupported .neverBegun)
  | .finalized => refuse (.unsupported .alreadyFinalized)
  | .writing =>
    modify fun muxer => { muxer with phase := .finalized }
    finishTracks
    addGaplessItem
    writeMediaHeader
    if optimize then prependMovie else appendMovie
    plain (Muxer.onOutput Output.flush)

end Checked

/-- A call with its checks. The settings have none. -/
def Call.checked {σ : Type} [Sink σ] [FaithfulSink σ] :
    Call → Checked (Muxer σ) Unit
  | addTrack codec timescale => Checked.addTrack codec timescale
  | beginWriting => Checked.beginWriting
  | appendSample index data duration =>
      Checked.appendSample index data duration
  | finalize optimize => Checked.finalize optimize
  | call => .plain call.perform

-- ================================================== the same without checks

namespace Checked

variable {σ α : Type} [Sink σ] [FaithfulSink σ]

theorem action_ite {S β : Type} {c : Prop} [Decidable c]
    (first second : Checked S β) :
    (if c then first else second).action
      = if c then first.action else second.action :=
  apply_ite Checked.action c first second

theorem action_flush :
    (flush (σ := σ)).action = ChunkTable.flush := by
  rw [ChunkTable.flush_eq]
  refine congrArg (get >>= ·) (funext fun s => ?_)
  exact action_ite _ _

theorem action_makeRoom (duration : UInt32) :
    (makeRoom (σ := σ) duration).action = Track.makeRoom duration := by
  refine congrArg (get >>= ·) (funext fun s => ?_)
  refine (action_ite _ _).trans ?_
  rw [← action_flush]
  rfl

theorem action_add (data : Bytes) (duration : UInt32) :
    (add (σ := σ) data duration).action = Track.add data duration :=
  bind_pure (Track.add data duration)

theorem action_append (data : Bytes) (duration : UInt32) :
    (append (σ := σ) data duration).action = Track.append data duration := by
  refine congrArg (get >>= ·) (funext fun s => ?_)
  refine (action_ite _ _).trans ?_
  dsimp only
  rw [← action_makeRoom, ← action_add]
  rfl

theorem action_finish : (finish (σ := σ)).action = Track.finish := by
  unfold Track.finish
  rw [← action_flush]
  rfl

theorem action_addTrack (codec : Codec) (timescale : UInt32) :
    (addTrack (σ := σ) codec timescale).action
      = discard (Muxer.addTrack codec timescale) :=
  bind_pure (discard (Muxer.addTrack codec timescale))

theorem action_beginWriting :
    (beginWriting (σ := σ)).action = Muxer.beginWriting := by
  refine congrArg (Muxer.checkConfigurable >>= ·) (funext fun _ => ?_)
  refine congrArg (get >>= ·) (funext fun muxer => ?_)
  exact action_ite _ _

theorem action_appendSample (index : Nat) (data : Bytes)
    (duration : UInt32) :
    (appendSample (σ := σ) index data duration).action
      = Muxer.appendSample index data duration := by
  unfold Muxer.appendSample
  rw [← action_append]
  refine congrArg (Muxer.checkFault >>= ·) (funext fun _ => ?_)
  refine congrArg (get >>= ·) (funext fun muxer => ?_)
  exact action_ite _ _

theorem action_finishTracks :
    (finishTracks (σ := σ)).action = Muxer.finishTracks := by
  unfold Muxer.finishTracks
  rw [← action_finish]
  refine congrArg (get >>= ·) (funext fun muxer => ?_)
  exact action_forM _ _

theorem action_closeBox (start : Nat) :
    (closeBox (σ := σ) start).action = Output.closeBox start := by
  refine congrArg (Output.position >>= ·) (funext fun position => ?_)
  exact action_ite _ _

theorem action_writeMovie (movie : Box.Movie) :
    (writeMovie (σ := σ) movie).action = Muxer.writeMovie movie := by
  unfold Muxer.writeMovie
  simp only [← action_closeBox]
  refine congrArg (Output.openBox _ >>= ·) (funext fun start => ?_)
  refine congrArg (Output.write _ >>= ·) (funext fun _ => ?_)
  exact bind_pure (closeBox start).action

theorem action_appendMovie :
    (appendMovie (σ := σ)).action = Muxer.appendMovie := by
  unfold Muxer.appendMovie
  simp only [← action_writeMovie]
  rfl

theorem action_moveBlocks (start gap block remaining : Nat) :
    (moveBlocks (σ := σ) start gap block remaining).action
      = Muxer.moveBlocks start gap block remaining := by
  induction remaining using Nat.strongRecOn with
  | ind remaining ih =>
      rw [moveBlocks, Muxer.moveBlocks]
      refine (action_ite _ _).trans ?_
      by_cases hdone : remaining = 0 ∨ block = 0
      · rw [if_pos hdone, if_pos hdone]
        rfl
      · rw [if_neg hdone, if_neg hdone]
        dsimp only
        rw [← ih _ (by omega)]
        rfl

theorem action_moveMedia (gap block : Nat) :
    (moveMedia (σ := σ) gap block).action = Muxer.moveMedia gap block := by
  unfold Muxer.moveMedia
  simp only [← action_moveBlocks]
  rfl

theorem action_prependMovie :
    (prependMovie (σ := σ)).action = Muxer.prependMovie := by
  unfold Muxer.prependMovie
  simp only [← action_moveMedia, ← action_writeMovie]
  refine congrArg (get >>= ·) (funext fun muxer => ?_)
  show (match muxer.relocationGap with
    | .error failure => refuse failure
    | .ok gap => _ : Checked _ _).action = _
  cases muxer.relocationGap with
  | error failure => rfl
  | ok gap =>
    show ((moveMedia gap Muxer.moveBlock).action >>= fun _ => get >>=
        fun muxer => Muxer.onOutput (Output.seek (muxer.mediaStart - 16))
          >>= fun _ => Muxer.onOutput (Output.put (Box.FreeSpace.mk 8))
          >>= fun _ => discard (Muxer.onOutput
            (Output.openBox Box.mediaDataKind))
          >>= fun _ => Muxer.writeMediaHeader
          >>= fun _ => get
          >>= fun muxer => Muxer.onOutput (Output.seek muxer.headerEnd)
          >>= fun _ => (fillGap gap).action) = _
    refine bind_congr fun _ => bind_congr fun _ => bind_congr fun _ =>
      bind_congr fun _ => bind_congr fun _ => bind_congr fun _ =>
      bind_congr fun _ => bind_congr fun _ => bind_congr fun muxer => ?_
    refine congrArg ((onOutput (writeMovie (muxer.movie 0))).action >>= ·)
      (funext fun size => ?_)
    exact action_ite _ _

theorem action_finalize (optimize : Bool) :
    (finalize (σ := σ) optimize).action = Muxer.finalize optimize := by
  unfold Muxer.finalize
  rw [← action_finishTracks, ← action_prependMovie, ← action_appendMovie]
  refine congrArg (Muxer.checkFault >>= ·) (funext fun _ => ?_)
  refine congrArg (get >>= ·) (funext fun muxer => ?_)
  show (match muxer.phase with
    | .configuring => refuse (.unsupported .neverBegun)
    | .finalized => refuse (.unsupported .alreadyFinalized)
    | .writing => _ : Checked _ _).action = _
  cases muxer.phase with
  | configuring => rfl
  | finalized => rfl
  | writing =>
    cases optimize with
    | false => rfl
    | true => rfl

end Checked

/-- Without its checks a checked call is the call. -/
theorem Call.action_checked {σ : Type} [Sink σ] [FaithfulSink σ]
    (call : Call) : (call.checked (σ := σ)).action = call.perform := by
  cases call with
  | addTrack codec timescale => exact Checked.action_addTrack _ _
  | beginWriting => exact Checked.action_beginWriting
  | appendSample index data duration =>
      exact Checked.action_appendSample _ _ _
  | finalize optimize => exact Checked.action_finalize _
  | setChannels | setFixedDuration | setDecoderInfo | setVariableBitrate
  | setPriming | setGapless | addTag => rfl

end AudioMux

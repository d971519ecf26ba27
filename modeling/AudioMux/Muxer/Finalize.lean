/-
Closing a file: the last chunks, the size of the media data box, and
the movie box.

The movie box either follows the media or, to let a player start before
it has the whole file, goes in front of it. In the second case the
media has to move to make room. How much depends on the size of the
movie box, which can grow as the chunks move past 32-bit positions;
`relocationGap` looks for a gap that fits. What is left of the gap
becomes free space, for which 8 bytes are needed at least.
-/
import AudioMux.Muxer.Assembly
import AudioMux.Sink.Probe

namespace AudioMux.Muxer

/-- Room left over in front of moved media. -/
def headroom : Nat := 1024

/-- How often the movie box is measured. -/
def maxPasses : Nat := 4

/-- How much media is moved at a time. -/
def moveBlock : Nat := 2 * 1024 * 1024

variable {σ : Type}

/-- The size of the movie box with all chunks moved by a distance. -/
def movieSize (muxer : Muxer σ) (distance : Nat) : Nat :=
  Probe.measure (Sink.writeAll (Box.encode (muxer.movie distance)))

/-- A gap that holds the movie box exactly or leaves room for a free
box, found in the given number of passes, the first one with `gap`. -/
def settleGap (muxer : Muxer σ) (gap : Nat) : Nat → Except Failure Nat
  | 0 => .error (.unsupported (.unsettledMovie maxPasses))
  | passes + 1 =>
    let size := muxer.movieSize gap
    if size = gap ∨ size + 8 ≤ gap then .ok gap
    else settleGap muxer (size + headroom) passes

/-- How far the media has to move for the movie box to fit in front of
it. -/
def relocationGap (muxer : Muxer σ) : Except Failure Nat :=
  settleGap muxer (muxer.movieSize 0 + headroom) maxPasses

/-- Adds the gapless item for the first track, if it is asked for and
there is anything to skip. -/
def addGaplessItem : Muxing σ Unit := do
  let muxer ← get
  if muxer.gapless.hasItem then
    match muxer.tracks.head? with
    | none => pure ()
    | some track =>
      if track.hasPriming then
        storeTag (.freeForm gaplessItemName
          (gaplessItemText track.delay track.padding
            track.presentationDuration))

variable [Sink σ]

/-- Finishes the tracks, one after the other. -/
def finishTracks : Muxing σ Unit := do
  let count := (← get).tracks.length
  (List.range count).forM fun index => do
    countMedia (← onTrack index Track.finish)

/-- Writes the header of the media data box in front of the media, and
moves to the end of the media. A large header takes the place of the
free box in front. -/
def writeMediaHeader : Muxing σ Unit := do
  let muxer ← get
  let header : Box.MediaDataHeader := ⟨muxer.mediaSize⟩
  onOutput (Output.seek (muxer.mediaStart - header.length))
  onOutput (Output.write header.encode)
  onOutput (Output.seek (muxer.mediaStart + muxer.mediaSize))

/-- Writes a movie box at the cursor and gives its size. -/
def writeMovie (movie : Box.Movie) : Writing σ Nat := do
  let start ← Output.openBox (Box.Format.kind movie)
  Output.write (Box.content movie)
  Output.closeBox start

/-- Writes the movie box after the media. -/
def appendMovie : Muxing σ Unit := do
  let movie := (← get).movie 0
  discard (onOutput (writeMovie movie))

/-- Moves the first `remaining` bytes from a position by `gap`, in blocks
and back to front, so that nothing is overwritten before it was
read. -/
def moveBlocks (start gap block remaining : Nat) : Writing σ Unit := do
  if remaining = 0 ∨ block = 0 then
    pure ()
  else
    let count := min remaining block
    let source := start + (remaining - count)
    Output.seek source
    let bytes ← Output.read count
    Output.seek (source + gap)
    Output.write bytes
    moveBlocks start gap block (remaining - count)
termination_by remaining
decreasing_by omega

/-- Moves all media by `gap`, in blocks, and the offsets of the chunks
with it. -/
def moveMedia (gap block : Nat) : Muxing σ Unit := do
  let muxer ← get
  onOutput (moveBlocks muxer.mediaStart gap block muxer.mediaSize)
  modify fun muxer => { muxer with
    tracks := muxer.tracks.map fun track =>
      { track with chunks := track.chunks.shift gap }
    mediaStart := muxer.mediaStart + gap }

/-- Writes the movie box between the file type and the media. -/
def prependMovie : Muxing σ Unit := do
  let gap ← match relocationGap (← get) with
    | .ok gap => pure gap
    | .error failure => throw failure
  moveMedia gap moveBlock
  onOutput (Output.seek ((← get).mediaStart - 16))
  onOutput (Output.put (Box.FreeSpace.mk 8))
  discard (onOutput (Output.openBox Box.mediaDataKind))
  writeMediaHeader
  onOutput (Output.seek (← get).headerEnd)
  let movie := (← get).movie 0
  let size ← onOutput (writeMovie movie)
  if size < gap then
    onOutput (Output.put (Box.FreeSpace.mk (gap - size)))
  onOutput (Output.seek ((← get).mediaStart + (← get).mediaSize))

/-- Closes the file. With `optimize` the movie box goes in front of the
media. -/
def finalize (optimize : Bool) : Muxing σ Unit := do
  checkFault
  match (← get).phase with
  | .configuring => throw (.unsupported .neverBegun)
  | .finalized => throw (.unsupported .alreadyFinalized)
  | .writing => pure ()
  modify fun muxer => { muxer with phase := .finalized }
  finishTracks
  addGaplessItem
  writeMediaHeader
  if optimize then prependMovie else appendMovie
  onOutput Output.flush

end AudioMux.Muxer

/-
A track: how its samples are coded, its tables, and the two bit rates a
decoder is told. Samples go into the open chunk, which is written when
it holds half a second.
-/
import AudioMux.Codec
import AudioMux.Table.Chunk
import AudioMux.Table.Sample

namespace AudioMux

/-- One track of a file that is being written. -/
structure Track where
  codec : Codec
  timescale : UInt32
  channels : UInt16
  /-- The duration of every sample, if it is fixed. -/
  fixedDuration? : Option UInt32
  /-- What the decoder asks for: the configuration of AAC, the cookie of
  ALAC. -/
  decoderInfo : Bytes
  /-- Whether the bit rate varies, so that no average is stated. -/
  variableBitrate : Bool
  /-- Samples to skip at the start. -/
  delay : UInt32
  /-- Samples to skip at the end. -/
  padding : UInt32
  maxBitrate : UInt32
  averageBitrate : UInt32
  samples : SampleTable
  chunks : ChunkTable
  deriving DecidableEq, Repr

/-- What is done on a track and the output its chunks go to. -/
abbrev Tracking (σ : Type) := EStateM Failure (Track × Output σ)

namespace Track

/-- A track without samples. -/
def new (codec : Codec) (timescale : UInt32) : Track where
  codec := codec
  timescale := timescale
  channels := 2
  fixedDuration? := none
  decoderInfo := []
  variableBitrate := false
  delay := 0
  padding := 0
  maxBitrate := 0
  averageBitrate := 0
  samples := .empty
  chunks := .empty

/-- The duration of all samples, in ticks of the track. -/
def duration (track : Track) : Nat := track.samples.duration

/-- The duration that is to be heard, without delay and padding. -/
def presentationDuration (track : Track) : Nat :=
  track.duration - (track.delay.toNat + track.padding.toNat)

/-- Whether anything is to be skipped. -/
def hasPriming (track : Track) : Bool :=
  track.delay != 0 || track.padding != 0

/-- Does something with the chunks of the track. -/
def onChunks {σ α : Type}
    (action : EStateM Failure (ChunkTable × Output σ) α) :
    Tracking σ α :=
  fun (track, out) =>
    match action (track.chunks, out) with
    | .ok a (chunks, out) => .ok a ({ track with chunks := chunks }, out)
    | .error failure (chunks, out) =>
      .error failure ({ track with chunks := chunks }, out)

/-- Records a sample whose data is already in the open chunk. -/
def record (size duration : UInt32) (track : Track) : Track :=
  let samples := track.samples.push ⟨size, duration⟩
  { track with
    samples := samples
    maxBitrate :=
      max track.maxBitrate (samples.trailingBitrate track.timescale) }

variable {σ : Type} [Sink σ]

/-- Writes the open chunk and starts another, if a sample of this
duration needs it. Gives the number of bytes written. -/
def makeRoom (duration : UInt32) : Tracking σ Nat := do
  let track := (← get).1
  if track.chunks.needsNewChunk duration track.timescale then
    let flushed ← onChunks ChunkTable.flush
    onChunks (modify fun (chunks, out) => (chunks.openChunk, out))
    pure flushed
  else
    pure 0

/-- Adds a sample to the open chunk and to the tables. -/
def add (data : Bytes) (duration : UInt32) : Tracking σ Unit := do
  let (track, out) ← get
  match track.chunks.append data duration with
  | .error failure => throw failure
  | .ok chunks =>
    set (record (UInt32.ofNat data.length) duration
      { track with chunks := chunks }, out)

/-- Appends a sample. A fixed duration overrides the one given here.
Gives the number of bytes written. -/
def append (data : Bytes) (duration : UInt32) : Tracking σ Nat := do
  let duration := (← get).1.fixedDuration?.getD duration
  if Box.maxWord32 < data.length then
    throw (.unsupported (.sampleTooLarge data.length))
  let flushed ← makeRoom duration
  add data duration
  pure flushed

/-- Works out the average bit rate and writes the open chunk. Gives the
number of bytes written. -/
def finish : Tracking σ Nat := do
  modify fun (track, out) =>
    ({ track with
        averageBitrate :=
          bitrate track.chunks.totalSize track.duration track.timescale },
      out)
  onChunks ChunkTable.flush

end Track

end AudioMux

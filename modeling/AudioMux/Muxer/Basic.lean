/-
The muxer: it writes encoded samples into an audio file as they arrive.

A muxer starts out being configured, then writes, then is finalized.
The media lies in one media data box that is opened when writing starts
and whose size is written at the end; a free box in front of it leaves
room for a 64-bit size. All that a player needs to find the samples is
kept in tables until then.

Every call checks first whether it is allowed, and changes nothing if
it is not.
-/
import AudioMux.Gapless
import AudioMux.Tag.Table
import AudioMux.Track

namespace AudioMux

/-- The most tracks a file has. -/
def maxTracks : Nat := 2

/-- What a muxer is created with. -/
structure MuxerConfig where
  codec : Codec
  timescale : UInt32
  gapless : GaplessMode
  /-- Put the movie box before the media. -/
  optimize : Bool
  /-- Write zero for the times of creation and modification. -/
  noTimestamp : Bool
  deriving DecidableEq, Repr

/-- The configuration used where nothing else is said. -/
def MuxerConfig.default : MuxerConfig where
  codec := .aac
  timescale := 44100
  gapless := .legacy
  optimize := false
  noTimestamp := false

/-- How far a muxer is. -/
inductive Phase where
  | configuring
  | writing
  | finalized
  deriving DecidableEq, Repr

/-- A file that is being written. -/
structure Muxer (σ : Type) where
  out : Output σ
  /-- The timescale of the movie. -/
  timescale : UInt32
  creationTime : UInt64
  modificationTime : UInt64
  gapless : GaplessMode
  /-- Where the file type ends, and a movie box in front starts. -/
  headerEnd : Nat
  /-- Where the media starts, past the header of its box. -/
  mediaStart : Nat
  /-- How much media was written. -/
  mediaSize : Nat
  tracks : List Track
  metadata : TagTable
  phase : Phase

/-- What is done with a muxer: a failure leaves it as far as the action
got. -/
abbrev Muxing (σ : Type) := EStateM Failure (Muxer σ)

namespace Muxer

variable {σ : Type}

/-- A muxer with one track, for a sink and with a time to write as that
of creation. The first track holds audio. -/
def create (config : MuxerConfig) (now : UInt64) (sink : σ) :
    Except Failure (Muxer σ) :=
  if config.codec = .text then
    .error (.unsupported .primaryTrackNotAudio)
  else if config.timescale = 0 then
    .error (.unsupported .zeroTimescale)
  else
    let time := if config.noTimestamp then 0 else now
    .ok {
      out := .ofSink sink
      timescale := config.timescale
      creationTime := time
      modificationTime := time
      gapless := config.gapless
      headerEnd := 0
      mediaStart := 0
      mediaSize := 0
      tracks := [.new config.codec config.timescale]
      metadata := .empty
      phase := .configuring }

-- ============================================================= the parts

/-- Does something with the output. -/
def onOutput {α : Type} (action : Writing σ α) : Muxing σ α :=
  fun muxer =>
    match action muxer.out with
    | .ok a out => .ok a { muxer with out := out }
    | .error failure out => .error failure { muxer with out := out }

/-- Does something with a track and the output. -/
def onTrack {α : Type} (index : Nat) (action : Tracking σ α) :
    Muxing σ α :=
  fun muxer =>
    match muxer.tracks[index]? with
    | none =>
      .error
        (.unsupported (.trackOutOfRange index muxer.tracks.length)) muxer
    | some track =>
      match action (track, muxer.out) with
      | .ok a (track, out) =>
        .ok a { muxer with tracks := muxer.tracks.set index track, out }
      | .error failure (track, out) =>
        .error failure
          { muxer with tracks := muxer.tracks.set index track, out }

/-- Fails after a fault. -/
def checkFault : Muxing σ Unit := onOutput Output.check

/-- Fails after a fault, and once the file is finalized. -/
def checkConfigurable : Muxing σ Unit := do
  checkFault
  if (← get).phase = .finalized then
    throw (.unsupported .finalized)

/-- Changes a track, if that is still allowed. -/
def configureTrack (index : Nat) (change : Track → Track) :
    Muxing σ Unit := do
  checkConfigurable
  onTrack index (modify fun (track, out) => (change track, out))

-- ============================================================= settings

/-- Adds a track, before writing starts, and gives its index. -/
def addTrack (codec : Codec) (timescale : UInt32) : Muxing σ Nat := do
  checkConfigurable
  let muxer ← get
  if muxer.phase ≠ .configuring then
    throw (.unsupported .trackAfterStart)
  if maxTracks ≤ muxer.tracks.length then
    throw (.unsupported (.tooManyTracks maxTracks))
  if timescale = 0 then
    throw (.unsupported .zeroTimescale)
  set { muxer with tracks := muxer.tracks ++ [Track.new codec timescale] }
  pure muxer.tracks.length

/-- Sets the number of channels of a track. -/
def setChannels (index : Nat) (channels : UInt16) : Muxing σ Unit :=
  configureTrack index fun track => { track with channels := channels }

/-- Gives all further samples of a track this duration, whatever is said
when they are added. Zero takes that back. -/
def setFixedDuration (index : Nat) (duration : UInt32) : Muxing σ Unit :=
  configureTrack index fun track =>
    { track with
      fixedDuration? := if duration = 0 then none else some duration }

/-- Sets what the decoder of a track asks for. -/
def setDecoderInfo (index : Nat) (info : Bytes) : Muxing σ Unit :=
  configureTrack index fun track => { track with decoderInfo := info }

/-- Says whether the bit rate of a track varies. -/
def setVariableBitrate (index : Nat) (varies : Bool) : Muxing σ Unit :=
  configureTrack index fun track => { track with variableBitrate := varies }

/-- Sets how many samples of a track are not to be heard. -/
def setPriming (index : Nat) (delay padding : UInt32) : Muxing σ Unit :=
  configureTrack index fun track =>
    { track with delay := delay, padding := padding }

/-- Chooses how samples that are not to be heard are signaled. -/
def setGapless (mode : GaplessMode) : Muxing σ Unit := do
  checkConfigurable
  modify fun muxer => { muxer with gapless := mode }

/-- Stores a tag, without asking whether that is allowed. -/
def storeTag (tag : Tag) : Muxing σ Unit := do
  let muxer ← get
  match muxer.metadata.add tag with
  | .error failure => throw failure
  | .ok metadata => set { muxer with metadata := metadata }

/-- Adds a tag, or puts it in the place of an earlier one. -/
def addTag (tag : Tag) : Muxing σ Unit := do
  checkConfigurable
  storeTag tag

-- ============================================================== writing

variable [Sink σ]

/-- Starts the file: the file type, room for a larger header, and the
media data box, whose size is not known yet. -/
def beginWriting : Muxing σ Unit := do
  checkConfigurable
  if (← get).phase ≠ .configuring then
    throw (.unsupported .alreadyWriting)
  onOutput (Output.put Box.FileType.mpeg4Audio)
  let headerEnd ← onOutput Output.position
  modify fun muxer => { muxer with headerEnd := headerEnd }
  onOutput (Output.put (Box.FreeSpace.mk 8))
  discard (onOutput (Output.openBox Box.mediaDataKind))
  let mediaStart ← onOutput Output.position
  modify fun muxer =>
    { muxer with mediaStart := mediaStart, phase := .writing }

/-- Counts media that was written. -/
def countMedia (written : Nat) : Muxing σ Unit :=
  modify fun muxer => { muxer with mediaSize := muxer.mediaSize + written }

/-- Appends a sample to a track. -/
def appendSample (index : Nat) (data : Bytes) (duration : UInt32) :
    Muxing σ Unit := do
  checkFault
  if (← get).phase ≠ .writing then
    throw (.unsupported .notWriting)
  let flushed ← onTrack index (Track.append data duration)
  countMedia flushed

end Muxer

end AudioMux

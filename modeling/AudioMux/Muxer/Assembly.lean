/-
The movie box of a muxer: everything its tables and settings say, put
into boxes. Where the chunks lie is the one thing that may still
change, so they can be moved by a distance.
-/
import AudioMux.Box.Movie
import AudioMux.Muxer.Basic

namespace AudioMux

namespace Track

/-- The rate of a sound track as a raw 16.16 number: its timescale, or
zero if that has more than 16 bits. -/
def sampleRate (track : Track) : UInt32 :=
  if track.timescale ≤ 0xffff then track.timescale <<< 16 else 0

/-- The configuration of the AAC decoder. -/
def decoderConfig (track : Track) : Box.Descriptor.DecoderConfig where
  bufferSize := track.samples.maxSize
  maxBitrate := track.maxBitrate
  averageBitrate :=
    if track.variableBitrate then 0 else track.averageBitrate
  info := track.decoderInfo

/-- An audio sample entry with a codec configuration. -/
def audioEntry (track : Track) (config : Box.CodecConfig) :
    Box.AudioSampleEntry where
  dataReferenceIndex := 1
  channelCount := track.channels
  sampleSize := 16
  sampleRate := track.sampleRate
  config := config

/-- How the samples are coded. -/
def sampleEntry (track : Track) : Box.SampleEntry :=
  match track.codec with
  | .aac => .audio (track.audioEntry (.aac ⟨track.decoderConfig⟩))
  | .alac => .audio (track.audioEntry (.alac track.decoderInfo))
  | .text => .text ⟨1, track.decoderInfo⟩

/-- What the samples are. -/
def handlerKind (track : Track) : Box.HandlerKind :=
  match track.codec with
  | .text => .text
  | .aac | .alac => .audio

/-- The sample tables, with the chunks moved by a distance. With
`signaled` they put all samples into a group that needs one sample
before it. -/
def sampleTables (track : Track) (signaled : Bool) (distance : Nat) :
    Box.SampleTables where
  description := ⟨track.sampleEntry⟩
  sampleToGroup? :=
    if signaled then some (.roll (UInt32.ofNat track.samples.length))
    else none
  groups? := if signaled then some (.roll (-1)) else none
  timeToSample := track.samples.timeToSample
  sampleToChunk := track.chunks.sampleToChunk
  sampleSizes := track.samples.sampleSizes
  chunkOffsets := track.chunks.offsets distance

end Track

namespace Muxer

variable {σ : Type}

/-- Whether the priming of a track is signaled by an edit list. -/
def signalsPriming (muxer : Muxer σ) (track : Track) : Bool :=
  muxer.gapless.hasEditList && track.hasPriming

/-- The edit list that plays a track without its priming. -/
def primingEdits (muxer : Muxer σ) (track : Track) : Box.EditBox :=
  ⟨{ edits := [{
      duration :=
        rescale track.presentationDuration track.timescale muxer.timescale
      mediaTime := Int64.ofNat track.delay.toNat }]
     rateInteger := 1
     rateFraction := 0 }⟩

/-- The header of a track, which is counted from zero. -/
def trackHeader (muxer : Muxer σ) (index : Nat) (track : Track) :
    Box.TrackHeader where
  flags := Box.TrackHeader.enabledEverywhere
  creationTime := muxer.creationTime
  modificationTime := muxer.modificationTime
  trackId := UInt32.ofNat (index + 1)
  duration := rescale track.duration track.timescale muxer.timescale
  volume := 0x100
  matrix := .identity

/-- The media header of a track. -/
def mediaHeader (muxer : Muxer σ) (track : Track) : Box.MediaHeader where
  creationTime := muxer.creationTime
  modificationTime := muxer.modificationTime
  timescale := track.timescale
  duration := UInt64.ofNat track.duration
  language := .undetermined

/-- The box of a track, with its chunks moved by a distance. -/
def trackBox (muxer : Muxer σ) (distance index : Nat) (track : Track) :
    Box.TrackBox where
  header := muxer.trackHeader index track
  edits? :=
    if muxer.signalsPriming track then some (muxer.primingEdits track)
    else none
  media := {
    header := muxer.mediaHeader track
    handler := .ofKind track.handlerKind
    information := {
      soundHeader? := if track.handlerKind = .audio then some ⟨0⟩ else none
      dataInformation := .selfContained
      sampleTables :=
        track.sampleTables (muxer.signalsPriming track) distance } }

/-- The boxes of all tracks. -/
def trackBoxes (muxer : Muxer σ) (distance : Nat) : List Box.TrackBox :=
  muxer.tracks.mapIdx (muxer.trackBox distance)

/-- The movie box, with all chunks moved by a distance. The movie is as
long as its longest track. -/
def movie (muxer : Muxer σ) (distance : Nat) : Box.Movie :=
  let tracks := muxer.trackBoxes distance
  { header := {
      creationTime := muxer.creationTime
      modificationTime := muxer.modificationTime
      timescale := muxer.timescale
      duration :=
        tracks.foldl (fun longest track => max longest track.header.duration)
          0
      rate := 0x10000
      volume := 0x100
      matrix := .identity
      nextTrackId := UInt32.ofNat (muxer.tracks.length + 1) }
    tracks := tracks
    userData? :=
      if muxer.metadata.isEmpty then none
      else some ⟨.ofItems muxer.metadata.itemList⟩ }

end Muxer

end AudioMux

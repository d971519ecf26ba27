/-
Remuxing: an ADTS stream becomes an audio file.

The first frame says what the stream is, and all others have to agree
with it. Every access unit becomes a sample as it is; the headers are
left behind. The file is only finalized when the stream ended well. All
else, up to the first failure, is written as it is read.
-/
import AudioMux.Adts.Reader
import AudioMux.Muxer.Finalize
import AudioMux.Settings.Basic

namespace AudioMux

/-- The program's name, as files, settings and users know it. -/
def programName : String := "m4af-remux"

/-- The program's name and version. -/
def programTitle : String := programName ++ " 0.1.0"

namespace Remux

/-- What was made of a stream. -/
structure Summary where
  frames : Nat
  sampleRate : UInt32
  channels : UInt16
  /-- The size of all access units. -/
  bytes : Nat
  deriving DecidableEq, Repr

/-- The playing time in seconds, with all samples that are not to be
heard. -/
def Summary.seconds (summary : Summary) : Float :=
  Float.ofNat (summary.frames * Adts.samplesPerFrame.toNat)
    / Float.ofNat summary.sampleRate.toNat

/-- Why a stream could not be made a file. -/
inductive StreamFailure where
  | stream (cause : Adts.ReadFailure)
  | noFrames
  /-- The index of the sampling frequency stands for none. -/
  | reservedRate (index : Nat)
  /-- A frame does not agree with the first. -/
  | streamChanges (offset : Nat)
  /-- The muxer refused what comes before the first frame. -/
  | muxer (cause : Failure)
  | frame (offset : Nat) (cause : Failure)
  | finalizing (cause : Failure)
  deriving DecidableEq, Repr

/-- The messages of a failure and of what caused it, the outermost
first. -/
def StreamFailure.chain : StreamFailure → List String
  | .stream cause => cause.chain
  | .noFrames => ["Input contains no ADTS frames"]
  | .reservedRate index => [s!"Reserved sampling index {index}"]
  | .streamChanges offset =>
    [s!"Stream parameters change at byte {offset}, " ++
      "which a single track cannot hold"]
  | .muxer cause => cause.chain
  | .frame offset cause =>
    s!"Failed to write frame at byte {offset}" :: cause.chain
  | .finalizing cause => "Failed to finalize output" :: cause.chain

/-- The number of channels of a channel configuration. The one that
leaves the layout open is taken for stereo. -/
def channels (channelConfig : Nat) : UInt16 :=
  match channelConfig with
  | 0 => 2
  | 7 => 8
  | n => UInt16.ofNat n

/-- The tag that names the program. -/
def toolTag : Tag := .text Tag.Code.tool programTitle

/-- What is done while a stream is written. -/
abbrev Remuxing (σ : Type) := EStateM StreamFailure (Muxer σ)

variable {σ : Type}

/-- Does something with the muxer, and tells its failure in a way of the
caller's own. -/
def telling {α : Type} (failure : Failure → StreamFailure)
    (action : Muxing σ α) : Remuxing σ α := fun muxer =>
  match action muxer with
  | .ok a muxer => .ok a muxer
  | .error cause muxer => .error (failure cause) muxer

/-- Sets up the only track for a stream with this first header. -/
def configure (settings : Settings) (tags : List Tag)
    (first : Adts.Header) : Muxing σ Unit := do
  Muxer.setDecoderInfo 0 first.decoderConfig
  Muxer.setChannels 0 (channels first.channelConfig)
  Muxer.setFixedDuration 0 Adts.samplesPerFrame
  Muxer.setVariableBitrate 0 true
  tags.forM Muxer.addTag
  if settings.toolTag then
    Muxer.addTag toolTag

variable [Sink σ]

/-- Writes one frame of a stream with this first header. -/
def writeFrame (first : Adts.Header) (frame : Adts.Frame) :
    Remuxing σ Unit := do
  if !frame.header.sameStream first then
    throw (.streamChanges frame.offset)
  telling (.frame frame.offset)
    (Muxer.appendSample 0 frame.payload Adts.samplesPerFrame)

/-- Writes the file of a stream: its frames, up to its failure if it has
one. -/
def writeFile (settings : Settings) (tags : List Tag) (first : Adts.Header)
    (frames : List Adts.Frame) (failure? : Option Adts.ReadFailure) :
    Remuxing σ Unit := do
  telling .muxer do
    configure settings tags first
    Muxer.beginWriting
  frames.forM (writeFrame first)
  match failure? with
  | some failure => throw (.stream failure)
  | none => pure ()
  telling .muxer (Muxer.setPriming 0 settings.delay settings.padding)
  telling .finalizing (Muxer.finalize settings.muxer.optimize)

/-- The configuration of a muxer for a stream. The codec and the timescale
are those of the stream, whatever the settings say. -/
def muxerConfig (settings : Settings) (sampleRate : UInt32) :
    MuxerConfig :=
  { settings.muxer with codec := .aac, timescale := sampleRate }

/-- The size of all access units of frames. -/
def payloadSize (frames : List Adts.Frame) : Nat :=
  frames.foldr (fun frame size => frame.payload.length + size) 0

end Remux

/-- Makes a file of a stream, with a time to write as that of creation.
Gives what was made of it and the sink as it was left, also after a
failure. -/
def remux {σ : Type} [Sink σ] (settings : Settings) (tags : List Tag)
    (now : UInt64) (source : Adts.Source) (sink : σ) :
    Except Remux.StreamFailure Remux.Summary × σ :=
  let (frames, failure?) := (Adts.Reader.ofSource source).frames
  match frames with
  | [] =>
    match failure? with
    | some failure => (.error (.stream failure), sink)
    | none => (.error .noFrames, sink)
  | first :: _ =>
    let header := first.header
    match header.sampleRate? with
    | none => (.error (.reservedRate header.samplingIndex), sink)
    | some sampleRate =>
      match Muxer.create (Remux.muxerConfig settings sampleRate) now sink with
      | .error cause => (.error (.muxer cause), sink)
      | .ok muxer =>
        match Remux.writeFile settings tags header frames failure? muxer with
        | .error failure muxer => (.error failure, muxer.out.sink)
        | .ok () muxer =>
          (.ok {
            frames := frames.length
            sampleRate := sampleRate
            channels := Remux.channels header.channelConfig
            bytes := Remux.payloadSize frames },
          muxer.out.sink)

end AudioMux

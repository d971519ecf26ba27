/-
Sample entries: how the samples of a track are coded. An audio entry
takes its kind from the codec configuration in it, and a text entry
carries its configuration as it is.
-/
import AudioMux.Box.Descriptor
import AudioMux.Box.Format

namespace AudioMux.Box

/-- The configuration of an audio codec: the descriptors of AAC, or the
magic cookie of ALAC. -/
inductive CodecConfig where
  | aac (stream : Descriptor.Stream)
  | alac (cookie : Bytes)
  deriving DecidableEq, Repr

/-- The kind of the sample entry around a configuration. -/
def CodecConfig.entryKind : CodecConfig → FourCC
  | .aac _ => .ofChars 'm' 'p' '4' 'a'
  | .alac _ => .ofChars 'a' 'l' 'a' 'c'

instance : Format CodecConfig where
  kind
    | .aac _ => .ofChars 'e' 's' 'd' 's'
    | .alac _ => .ofChars 'a' 'l' 'a' 'c'
  full? _ := some .plain
  size
    | .aac stream => 12 + stream.size
    | .alac cookie => 12 + cookie.length
  body
    | .aac stream => stream.encode
    | .alac cookie => cookie

/-- How audio samples are coded. `sampleSize` is in bits, and
`sampleRate` a raw 16.16 number. -/
structure AudioSampleEntry where
  dataReferenceIndex : UInt16
  channelCount : UInt16
  sampleSize : UInt16
  sampleRate : UInt32
  config : CodecConfig
  deriving DecidableEq, Repr

/-- How text samples are coded. -/
structure TextSampleEntry where
  dataReferenceIndex : UInt16
  config : Bytes
  deriving DecidableEq, Repr

/-- How the samples of a track are coded. -/
inductive SampleEntry where
  | audio (entry : AudioSampleEntry)
  | text (entry : TextSampleEntry)
  deriving DecidableEq, Repr

instance : Format SampleEntry where
  kind
    | .audio entry => entry.config.entryKind
    | .text _ => .ofChars 't' 'e' 'x' 't'
  full? _ := none
  size
    | .audio entry =>
      8 + 6 + 2 + 8 + 2 + 2 + 2 + 2 + 4 + Format.size entry.config
    | .text entry => 8 + 6 + 2 + entry.config.length
  body
    | .audio entry =>
      Bytes.zeros 6 ++ Bytes.word16 entry.dataReferenceIndex ++
      Bytes.zeros 8 ++
      Bytes.word16 entry.channelCount ++ Bytes.word16 entry.sampleSize ++
      Bytes.zeros 2 ++ Bytes.zeros 2 ++
      Bytes.word32 entry.sampleRate ++
      encode entry.config
    | .text entry =>
      Bytes.zeros 6 ++ Bytes.word16 entry.dataReferenceIndex ++ entry.config

end AudioMux.Box

/-
The nested descriptors of an audio stream (ISO/IEC 14496-1), as an
`esds` box carries them: the stream, its decoder configuration, and in
it the bytes the decoder asks for.

Every descriptor starts with a tag byte and its payload's size, in
base 128 with a continuation bit on the first three of four bytes, even
if fewer would do. The size is therefore kept to 28 bits.
-/
import AudioMux.Bytes

namespace AudioMux.Box.Descriptor

/-- The size of a descriptor's header. -/
def headerSize : Nat := 5

/-- The header of a descriptor with `size` bytes of payload, of which
the low 28 bits are written. -/
def header (tag : UInt8) (size : Nat) : Bytes :=
  [tag,
    UInt8.ofNat (size / 128 / 128 / 128 % 128 + 128),
    UInt8.ofNat (size / 128 / 128 % 128 + 128),
    UInt8.ofNat (size / 128 % 128 + 128),
    UInt8.ofNat (size % 128)]

/-- Tags of the descriptors. -/
def streamTag : UInt8 := 3
def decoderConfigTag : UInt8 := 4
def decoderInfoTag : UInt8 := 5
def syncLayerTag : UInt8 := 6

/-- MPEG-4 audio (ISO/IEC 14496-3) as an object type. -/
def mpeg4Audio : UInt8 := 0x40

/-- The audio stream type, shifted into place, with the reserved bit. -/
def audioStream : UInt8 := 0x15

/-- What a decoder needs to know. `bufferSize` is the largest access
unit, of which the low 24 bits are written; an average of zero stands
for a variable bit rate. -/
structure DecoderConfig where
  bufferSize : UInt32
  maxBitrate : UInt32
  averageBitrate : UInt32
  info : Bytes
  deriving DecidableEq, Repr

namespace DecoderConfig

def payloadSize (config : DecoderConfig) : Nat :=
  1 + 1 + 3 + 4 + 4 + headerSize + config.info.length

/-- The size with the header. -/
def size (config : DecoderConfig) : Nat :=
  headerSize + config.payloadSize

def encode (config : DecoderConfig) : Bytes :=
  header decoderConfigTag config.payloadSize ++
  [mpeg4Audio, audioStream] ++
  Bytes.bigEndian 3 config.bufferSize.toNat ++
  Bytes.word32 config.maxBitrate ++
  Bytes.word32 config.averageBitrate ++
  header decoderInfoTag config.info.length ++
  config.info

end DecoderConfig

/-- An elementary stream with number 0 and no optional fields, closed by
the predefined sync layer descriptor. -/
structure Stream where
  decoderConfig : DecoderConfig
  deriving DecidableEq, Repr

namespace Stream

def payloadSize (stream : Stream) : Nat :=
  3 + stream.decoderConfig.size + headerSize + 1

/-- The size with the header. -/
def size (stream : Stream) : Nat :=
  headerSize + stream.payloadSize

def encode (stream : Stream) : Bytes :=
  header streamTag stream.payloadSize ++
  Bytes.zeros 3 ++
  stream.decoderConfig.encode ++
  header syncLayerTag 1 ++ [2]

end Stream

end AudioMux.Box.Descriptor

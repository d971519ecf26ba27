/-
The header of an ADTS frame, and what it says about the stream.

A frame starts with 7 bytes, or 9 with a checksum, in which the fields
are packed bit by bit. Apart from its length, everything a file needs to
know about the stream is in each of them.
-/
import AudioMux.Bytes

namespace AudioMux.Adts

/-- The samples in one access unit of AAC. -/
def samplesPerFrame : UInt32 := 1024

/-- The sampling frequencies by their index, in Hz. Larger indices are
reserved. -/
def sampleRates : List UInt32 :=
  [96000, 88200, 64000, 48000, 44100, 32000, 24000, 22050, 16000, 12000,
    11025, 8000, 7350]

/-- The fields of a header that matter. -/
structure Header where
  /-- The audio object type minus one. -/
  profile : Nat
  samplingIndex : Nat
  /-- Zero stands for a layout that is given within the stream. -/
  channelConfig : Nat
  /-- Whether there is no checksum. -/
  protectionAbsent : Bool
  /-- The length of the frame, with its header. -/
  frameLength : Nat
  /-- The number of raw data blocks minus one. -/
  rawBlocks : Nat
  deriving DecidableEq, Repr

namespace Header

/-- The bytes that every header has. -/
def fixedLength : Nat := 7

/-- The header in 7 bytes, if they start with the 12 set bits of a
frame. -/
def parse? : Bytes → Option Header
  | [b0, b1, b2, b3, b4, b5, b6] =>
    if b0.toNat = 0xff ∧ b1.toNat / 16 = 0xf then
      some {
        profile := b2.toNat / 64
        samplingIndex := b2.toNat / 4 % 16
        channelConfig := b2.toNat % 2 * 4 + b3.toNat / 64
        protectionAbsent := b1.toNat % 2 = 1
        frameLength :=
          b3.toNat % 4 * 2048 + b4.toNat * 8 + b5.toNat / 32
        rawBlocks := b6.toNat % 4 }
    else
      none
  | _ => none

/-- The length of the header, with its checksum. -/
def length (header : Header) : Nat :=
  if header.protectionAbsent then 7 else 9

/-- The sampling frequency, unless its index is reserved. -/
def sampleRate? (header : Header) : Option UInt32 :=
  sampleRates[header.samplingIndex]?

/-- The configuration of a decoder for the stream: 5 bits of object
type, 4 bits of sampling index, 4 bits of channels and 3 zero bits. -/
def decoderConfig (header : Header) : Bytes :=
  [UInt8.ofNat ((header.profile + 1) * 8 + header.samplingIndex / 2),
    UInt8.ofNat (header.samplingIndex % 2 * 128 + header.channelConfig * 8)]

/-- Whether two frames can be of one stream. -/
def sameStream (a b : Header) : Bool :=
  a.profile == b.profile && a.samplingIndex == b.samplingIndex &&
    a.channelConfig == b.channelConfig

end Header

end AudioMux.Adts

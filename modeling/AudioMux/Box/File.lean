/-
The boxes at the top level of a file, apart from the movie box: the
file type, free space, and the header of the media data.

The media data box is never held as a value: its payload is written as
the samples arrive, and its header when their total size is known.
-/
import AudioMux.Box.Format

namespace AudioMux.Box

/-- The brands of a file. -/
structure FileType where
  majorBrand : FourCC
  minorVersion : UInt32
  compatibleBrands : List FourCC
  deriving DecidableEq, Repr

instance : Format FileType where
  kind _ := .ofChars 'f' 't' 'y' 'p'
  full? _ := none
  size box := 8 + 4 + 4 + 4 * box.compatibleBrands.length
  body box := box.majorBrand.bytes ++ Bytes.word32 box.minorVersion ++
    box.compatibleBrands.flatMap FourCC.bytes

/-- The file type of an MPEG-4 audio file. The zero brand at the end
pads the box to 32 bytes. -/
def FileType.mpeg4Audio : FileType where
  majorBrand := .ofChars 'M' '4' 'A' ' '
  minorVersion := 0
  compatibleBrands :=
    [.ofChars 'M' '4' 'A' ' ', .ofChars 'm' 'p' '4' '2',
      .ofChars 'i' 's' 'o' 'm', .zero]

/-- Zeroed space of `length` bytes, header included. There is no room
for less than a header. -/
structure FreeSpace where
  length : Nat
  deriving DecidableEq, Repr

instance : Format FreeSpace where
  kind _ := .ofChars 'f' 'r' 'e' 'e'
  full? _ := none
  size box := max box.length 8
  body box := Bytes.zeros (max box.length 8 - 8)

/-- The code of the media data box. -/
def mediaDataKind : FourCC := .ofChars 'm' 'd' 'a' 't'

/-- The header of a media data box with a payload of `dataSize`
bytes. -/
structure MediaDataHeader where
  dataSize : Nat
  deriving DecidableEq, Repr

namespace MediaDataHeader

/-- Whether the payload is too large for a 32-bit size. -/
def isLarge (box : MediaDataHeader) : Bool :=
  maxWord32 < box.dataSize + 8

/-- The length of the header: the extended form has 16 bytes. -/
def length (box : MediaDataHeader) : Nat :=
  if box.isLarge then 16 else 8

/-- The header alone. -/
def encode (box : MediaDataHeader) : Bytes :=
  header mediaDataKind (box.dataSize + 8)

end MediaDataHeader

end AudioMux.Box

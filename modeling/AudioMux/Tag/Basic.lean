/-
Tags: the metadata of a file, one value each.

A tag says what it is about by its constructor and its code. `encode`
turns it into an entry, which is what a file holds: a key, a data type
and bytes. Tags with an empty value give no entry.
-/
import AudioMux.Failure
import AudioMux.Tag.Code

namespace AudioMux

/-- The type of an entry's data. -/
inductive DataType where
  /-- A layout that goes with the code. -/
  | implicit
  | utf8
  | gif
  | jpeg
  | png
  /-- A big-endian integer of 1, 2, 4 or 8 bytes. -/
  | integer
  deriving DecidableEq, Repr

/-- The number of a data type in a file. -/
def DataType.code : DataType → UInt32
  | .implicit => 0
  | .utf8 => 1
  | .gif => 12
  | .jpeg => 13
  | .png => 14
  | .integer => 21

/-- A value and what it is about. -/
inductive Tag where
  | text (code : FourCC) (value : String)
  | int8 (code : FourCC) (value : UInt8)
  | int16 (code : FourCC) (value : UInt16)
  | int32 (code : FourCC) (value : UInt32)
  | int64 (code : FourCC) (value : UInt64)
  /-- A track's number and the count of tracks, zero for unknown. -/
  | track (number total : UInt16)
  /-- A disc's number and the count of discs, zero for unknown. -/
  | disc (number total : UInt16)
  /-- A genre by its index plus one. -/
  | genre (index : UInt16)
  /-- An image, whose format is told by how it starts. -/
  | artwork (image : Bytes)
  /-- A text under a name of its own. -/
  | freeForm (name value : String)
  | raw (code : FourCC) (type : DataType) (data : Bytes)
  deriving DecidableEq, Repr

/-- What an entry goes by: a code, or the name of a free-form item. -/
inductive TagKey where
  | code (code : FourCC)
  | name (name : String)
  deriving DecidableEq, Repr

/-- A value as a file holds it. -/
structure TagEntry where
  key : TagKey
  type : DataType
  data : Bytes
  deriving DecidableEq, Repr

namespace Tag

/-- The format of an image, by its first bytes. -/
def imageType? (image : Bytes) : Option DataType :=
  if (Bytes.ofText "GIF8").isPrefixOf image then some .gif
  else if [0xff, 0xd8, 0xff].isPrefixOf image then some .jpeg
  else if [0x89, 0x50, 0x4e, 0x47, 0x0d, 0x0a, 0x1a, 0x0a].isPrefixOf image
    then some .png
  else none

/-- The key of a code that can stand on its own: a free-form item needs
a name, and a bare total belongs to a number. -/
def keyOfCode (code : FourCC) : Except Failure TagKey :=
  if code = Code.freeForm then
    .error (.unsupported .namelessFreeForm)
  else if code = Code.trackTotal ∨ code = Code.discTotal then
    .error (.unsupported .bareTotal)
  else
    .ok (.code code)

/-- An entry, or nothing if there is no data. -/
def entryOf (key : TagKey) (type : DataType) (data : Bytes) :
    Option TagEntry :=
  if data.isEmpty then none else some ⟨key, type, data⟩

/-- The entry of a tag, nothing for an empty value. -/
def encode : Tag → Except Failure (Option TagEntry)
  | .text code value => do
    pure (entryOf (← keyOfCode code) .utf8 (Bytes.ofText value))
  | .int8 code value => do
    pure (entryOf (← keyOfCode code) .integer [value])
  | .int16 code value => do
    pure (entryOf (← keyOfCode code) .integer (Bytes.word16 value))
  | .int32 code value => do
    pure (entryOf (← keyOfCode code) .integer (Bytes.word32 value))
  | .int64 code value => do
    pure (entryOf (← keyOfCode code) .integer (Bytes.word64 value))
  | .track number total =>
    .ok (entryOf (.code Code.track) .implicit
      (Bytes.zeros 2 ++ Bytes.word16 number ++ Bytes.word16 total ++
        Bytes.zeros 2))
  | .disc number total =>
    .ok (entryOf (.code Code.disc) .implicit
      (Bytes.zeros 2 ++ Bytes.word16 number ++ Bytes.word16 total))
  | .genre index =>
    .ok (entryOf (.code Code.genreIndex) .implicit (Bytes.word16 index))
  | .artwork image =>
    if image.isEmpty then .ok none
    else match imageType? image with
      | none => .error (.unsupported .unknownImage)
      | some type => .ok (entryOf (.code Code.artwork) type image)
  | .freeForm name value =>
    if name.isEmpty then .ok none
    else .ok (entryOf (.name name) .utf8 (Bytes.ofText value))
  | .raw code type data => do
    pure (entryOf (← keyOfCode code) type data)

end Tag

end AudioMux

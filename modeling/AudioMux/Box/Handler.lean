/-
What a track's media is and where it is stored: the handler, the sound
header and the data references.
-/
import AudioMux.Box.Format

namespace AudioMux.Box

/-- What a handler is for. -/
inductive HandlerKind where
  | audio
  | text
  | metadata
  deriving DecidableEq, Repr

/-- The handler's code in the file. -/
def HandlerKind.code : HandlerKind → FourCC
  | .audio => .ofChars 's' 'o' 'u' 'n'
  | .text => .ofChars 't' 'e' 'x' 't'
  | .metadata => .ofChars 'm' 'd' 'i' 'r'

/-- A handler. The manufacturer stands in the first reserved word;
players expect one on the handler of metadata. -/
structure Handler where
  kind : HandlerKind
  manufacturer? : Option FourCC
  name : String
  deriving DecidableEq, Repr

/-- The usual handler of a kind: no name, and `appl` as the
manufacturer of metadata. -/
def Handler.ofKind (kind : HandlerKind) : Handler where
  kind := kind
  manufacturer? :=
    if kind = .metadata then some (.ofChars 'a' 'p' 'p' 'l') else none
  name := ""

/-- The name ends with a zero byte. -/
instance : Format Handler where
  kind _ := .ofChars 'h' 'd' 'l' 'r'
  full? _ := some .plain
  size box := 12 + 4 + 4 + 12 + box.name.utf8ByteSize + 1
  body box :=
    Bytes.zeros 4 ++ box.kind.code.bytes ++
    (box.manufacturer?.getD .zero).bytes ++ Bytes.zeros 8 ++
    Bytes.ofText box.name ++ [0]

/-- The header of sound media. `balance` is a raw 8.8 number. -/
structure SoundHeader where
  balance : Int16
  deriving DecidableEq, Repr

instance : Format SoundHeader where
  kind _ := .ofChars 's' 'm' 'h' 'd'
  full? _ := some .plain
  size _ := 12 + 2 + 2
  body box := Bytes.word16 box.balance.toUInt16 ++ Bytes.zeros 2

/-- Where media data is stored. -/
structure DataLocation where
  flags : UInt32
  location : String
  deriving DecidableEq, Repr

namespace DataLocation

/-- Whether the media is in the same file, by the lowest flag. -/
def isSelfContained (box : DataLocation) : Bool :=
  box.flags &&& 1 != 0

/-- The media is in the same file. -/
def selfContained : DataLocation := ⟨1, ""⟩

end DataLocation

/-- The location is left out when the media is in the same file, and
ends with a zero byte otherwise. -/
instance : Format DataLocation where
  kind _ := .ofChars 'u' 'r' 'l' ' '
  full? box := some ⟨0, box.flags⟩
  size box :=
    12 + if box.isSelfContained then 0 else box.location.utf8ByteSize + 1
  body box :=
    if box.isSelfContained then [] else Bytes.ofText box.location ++ [0]

/-- The places that samples refer to by number. -/
structure DataReference where
  entries : List DataLocation
  deriving DecidableEq, Repr

instance : Format DataReference where
  kind _ := .ofChars 'd' 'r' 'e' 'f'
  full? _ := some .plain
  size box := 12 + 4 + sizeList box.entries
  body box := countedList encode box.entries

/-- The box around the data references. -/
structure DataInformation where
  reference : DataReference
  deriving DecidableEq, Repr

/-- One entry: the media is in the same file. -/
def DataInformation.selfContained : DataInformation :=
  ⟨⟨[.selfContained]⟩⟩

instance : Format DataInformation where
  kind _ := .ofChars 'd' 'i' 'n' 'f'
  full? _ := none
  size box := 8 + Format.size box.reference
  body box := encode box.reference

end AudioMux.Box

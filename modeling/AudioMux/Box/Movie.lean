/-
The movie box and the boxes that build it up: a movie has tracks, a
track has media, and media has its information and sample tables.
-/
import AudioMux.Box.Edit
import AudioMux.Box.Handler
import AudioMux.Box.Headers
import AudioMux.Box.ItemList
import AudioMux.Box.SampleTable

namespace AudioMux.Box

/-- Where a track's samples are and how they are coded. Text tracks have
no sound header. -/
structure MediaInformation where
  soundHeader? : Option SoundHeader
  dataInformation : DataInformation
  sampleTables : SampleTables
  deriving DecidableEq, Repr

instance : Format MediaInformation where
  kind _ := .ofChars 'm' 'i' 'n' 'f'
  full? _ := none
  size box :=
    8 + sizeOption box.soundHeader? + Format.size box.dataInformation +
    Format.size box.sampleTables
  body box :=
    encodeOption box.soundHeader? ++ encode box.dataInformation ++
    encode box.sampleTables

/-- The media of a track. -/
structure Media where
  header : MediaHeader
  handler : Handler
  information : MediaInformation
  deriving DecidableEq, Repr

instance : Format Media where
  kind _ := .ofChars 'm' 'd' 'i' 'a'
  full? _ := none
  size box :=
    8 + Format.size box.header + Format.size box.handler +
    Format.size box.information
  body box :=
    encode box.header ++ encode box.handler ++ encode box.information

/-- One track of a movie. -/
structure TrackBox where
  header : TrackHeader
  edits? : Option EditBox
  media : Media
  deriving DecidableEq, Repr

instance : Format TrackBox where
  kind _ := .ofChars 't' 'r' 'a' 'k'
  full? _ := none
  size box :=
    8 + Format.size box.header + sizeOption box.edits? + Format.size box.media
  body box :=
    encode box.header ++ encodeOption box.edits? ++ encode box.media

/-- A movie: all that a player needs besides the media itself. -/
structure Movie where
  header : MovieHeader
  tracks : List TrackBox
  userData? : Option UserData
  deriving DecidableEq, Repr

instance : Format Movie where
  kind _ := .ofChars 'm' 'o' 'o' 'v'
  full? _ := none
  size box :=
    8 + Format.size box.header + sizeList box.tracks +
    sizeOption box.userData?
  body box :=
    encode box.header ++ encodeList box.tracks ++ encodeOption box.userData?

end AudioMux.Box

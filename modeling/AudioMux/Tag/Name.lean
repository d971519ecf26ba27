/-
The names people use for tags, such as `title`, `Album Artist` or
`TRACKNUMBER`. Case does not matter, and neither do spaces, hyphens and
underscores.
-/
import AudioMux.Tag.Code

namespace AudioMux.Tag

/-- A letter in lower case, as far as a name in the table can tell:
besides the capital letters of ASCII, only the Kelvin sign has an ASCII
letter for its lower case. -/
def lowerLetter (c : Char) : Char :=
  if c.toNat = 0x212a then 'k' else c.toLower

/-- A name as it stands in the table. -/
def plainName (name : String) : String :=
  String.ofList
    ((name.toList.filter fun c => c != ' ' && c != '-' && c != '_').map
      lowerLetter)

/-- The code of a name in the table. -/
def codeOfPlainName? (name : String) : Option FourCC :=
  match name with
  | "album" => some Code.album
  | "albumartist" | "band" => some Code.albumArtist
  | "albumartistsort" | "albumartistsortorder" => some Code.albumArtistSort
  | "albumsort" | "albumsortorder" => some Code.albumSort
  | "artist" => some Code.artist
  | "artistsort" | "artistsortorder" => some Code.artistSort
  | "bpm" | "tempo" => some Code.tempo
  | "comment" => some Code.comment
  | "compilation" | "itunescompilation" => some Code.compilation
  | "composer" => some Code.composer
  | "composersort" | "composersortorder" => some Code.composerSort
  | "contentgroup" | "grouping" => some Code.grouping
  | "copyright" => some Code.copyright
  | "date" | "recordeddate" | "year" => some Code.date
  | "description" => some Code.description
  | "disc" | "discnumber" | "disk" => some Code.disc
  | "disctotal" | "totaldiscs" => some Code.discTotal
  | "encodedby" | "encoder" | "tool" => some Code.tool
  | "genre" => some Code.genre
  | "lyrics" | "unsyncedlyrics" => some Code.lyrics
  | "title" => some Code.title
  | "titlesort" | "titlesortorder" => some Code.titleSort
  | "track" | "tracknumber" => some Code.track
  | "tracktotal" | "totaltracks" => some Code.trackTotal
  | _ => none

/-- The code that a name stands for. -/
def codeOfName? (name : String) : Option FourCC :=
  codeOfPlainName? (plainName name)

end AudioMux.Tag

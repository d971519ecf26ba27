/-
The four-character codes of metadata items.
-/
import AudioMux.Box.FourCC

namespace AudioMux.Tag.Code

def title : FourCC := .ofChars '©' 'n' 'a' 'm'
def artist : FourCC := .ofChars '©' 'A' 'R' 'T'
def album : FourCC := .ofChars '©' 'a' 'l' 'b'
/-- The genre as free text. -/
def genre : FourCC := .ofChars '©' 'g' 'e' 'n'
def date : FourCC := .ofChars '©' 'd' 'a' 'y'
def composer : FourCC := .ofChars '©' 'w' 'r' 't'
def grouping : FourCC := .ofChars '©' 'g' 'r' 'p'
def comment : FourCC := .ofChars '©' 'c' 'm' 't'
def lyrics : FourCC := .ofChars '©' 'l' 'y' 'r'
/-- The program that made the file. -/
def tool : FourCC := .ofChars '©' 't' 'o' 'o'
def albumArtist : FourCC := .ofChars 'a' 'A' 'R' 'T'
/-- The track's number and the count of tracks. -/
def track : FourCC := .ofChars 't' 'r' 'k' 'n'
/-- The disc's number and the count of discs. -/
def disc : FourCC := .ofChars 'd' 'i' 's' 'k'
/-- The genre as an index plus one. -/
def genreIndex : FourCC := .ofChars 'g' 'n' 'r' 'e'
def tempo : FourCC := .ofChars 't' 'm' 'p' 'o'
def description : FourCC := .ofChars 'd' 'e' 's' 'c'
def copyright : FourCC := .ofChars 'c' 'p' 'r' 't'
def compilation : FourCC := .ofChars 'c' 'p' 'i' 'l'
def artwork : FourCC := .ofChars 'c' 'o' 'v' 'r'
def albumArtistSort : FourCC := .ofChars 's' 'o' 'a' 'a'
def albumSort : FourCC := .ofChars 's' 'o' 'a' 'l'
def artistSort : FourCC := .ofChars 's' 'o' 'a' 'r'
def composerSort : FourCC := .ofChars 's' 'o' 'c' 'o'
def titleSort : FourCC := .ofChars 's' 'o' 'n' 'm'
/-- An item that goes by a name of its own. -/
def freeForm : FourCC := .ofChars '-' '-' '-' '-'

/-- A count of tracks given on its own. It names no item of a file: it
has to be merged into the track's number. -/
def trackTotal : FourCC := .ofChars '\x00' 't' 'r' 't'

/-- A count of discs given on its own, likewise. -/
def discTotal : FourCC := .ofChars '\x00' 'd' 's' 't'

end AudioMux.Tag.Code

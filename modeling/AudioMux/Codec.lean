/-
Codecs: how the samples of a track are coded.
-/
import AudioMux.Box.FourCC

namespace AudioMux

/-- A codec. Text is for a second track only. -/
inductive Codec where
  | aac
  | alac
  | text
  deriving DecidableEq, Repr

namespace Codec

/-- The codec's four-character code. -/
def code : Codec → FourCC
  | .aac => .ofChars 'm' 'p' '4' 'a'
  | .alac => .ofChars 'a' 'l' 'a' 'c'
  | .text => .ofChars 't' 'e' 'x' 't'

/-- The codec's name in settings. -/
def name : Codec → String
  | .aac => "aac"
  | .alac => "alac"
  | .text => "text"

/-- The codec of a name. -/
def ofName? (name : String) : Option Codec :=
  [aac, alac, text].find? fun codec => codec.name == name

end Codec

end AudioMux

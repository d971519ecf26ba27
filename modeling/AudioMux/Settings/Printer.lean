/-
Settings as the text of a settings file.

Every setting is written, also where it has its default, so that a new
file shows what there is to set. Texts are written as they are between
single quotes where that is possible, which for most texts it is.
-/
import AudioMux.Settings.Basic

namespace AudioMux.Settings

/-- Whether a character can stand in a name without quotes. -/
def isBare (c : Char) : Bool := c.isAlphanum || c == '-' || c == '_'

/-- Whether a character has to be escaped wherever it stands. -/
def isControl (c : Char) : Bool := c.toNat < 0x20 || c.toNat == 0x7f

/-- The longest row of single quotes, where `row` of them were just
seen. -/
def longestQuoteRow (row : Nat) : List Char → Nat
  | [] => row
  | c :: rest =>
    if c = '\'' then longestQuoteRow (row + 1) rest
    else max row (longestQuoteRow 0 rest)

/-- Whether a text can be written as it is between single quotes: it has
no control characters but tabs and line breaks, fewer than three quotes
in a row, and none at the end. -/
def isLiteral (text : List Char) : Bool :=
  text.all (fun c => !isControl c || c == '\t' || c == '\n') &&
    longestQuoteRow 0 text < 3 && text.getLast? != some '\''

/-- A number in upper-case hexadecimal with four digits at least. -/
def fourDigits (n : Nat) : String := upperHexadecimal 4 n

/-- How a character is written between double quotes. Line breaks stay
in a text of several lines. -/
def escape (severalLines : Bool) (c : Char) : String :=
  match c with
  | '\x08' => "\\b"
  | '\t' => "\\t"
  | '\n' => if severalLines then "\n" else "\\n"
  | '\x0c' => "\\f"
  | '\r' => "\\r"
  | '"' => "\\\""
  | '\\' => "\\\\"
  | c =>
    if isControl c then "\\u" ++ fourDigits c.toNat else String.singleton c

/-- A text between double quotes. -/
def escaped (severalLines : Bool) (text : List Char) : String :=
  let quotes := if severalLines then "\"\"\"" else "\""
  let first := if severalLines then quotes ++ "\n" else quotes
  first ++ String.join (text.map (escape severalLines)) ++ quotes

/-- A text as a value. -/
def printText (text : String) : String :=
  let chars := text.toList
  if !isLiteral chars then escaped (chars.contains '\n') chars
  else if chars.contains '\n' then "'''\n" ++ text ++ "'''"
  else if chars.contains '\'' then "'''" ++ text ++ "'''"
  else "'" ++ text ++ "'"

/-- A text as a name. -/
def printName (name : String) : String :=
  let chars := name.toList
  if !chars.isEmpty && chars.all isBare then name else escaped false chars

/-- A name and a value that is already printed, on a line. -/
def printLine (name value : String) : String :=
  printName name ++ " = " ++ value ++ "\n"

/-- A truth value as a value. -/
def printBoolean (value : Bool) : String :=
  if value then "true" else "false"

/-- A number as a value. -/
def printWord (value : UInt32) : String := toString value.toNat

/-- Settings as the text of a file. -/
def print (settings : Settings) : String :=
  let muxer := settings.muxer
  let lines := [
    ("codec", printText muxer.codec.name),
    ("timescale", printWord muxer.timescale),
    ("gapless", printText muxer.gapless.name),
    ("optimize", printBoolean muxer.optimize),
    ("no_timestamp", printBoolean muxer.noTimestamp),
    ("delay", printWord settings.delay),
    ("padding", printWord settings.padding),
    ("tool_tag", printBoolean settings.toolTag)]
  let tags := settings.tags.map fun (name, value) => (name, printText value)
  let print := fun lines : List (String × String) =>
    String.join (lines.map fun (name, value) => printLine name value)
  print lines ++ "\n[tags]\n" ++ print tags

end AudioMux.Settings

/-
Quoted text for messages: a text between double quotes, with escapes
for what would not show. The quotes themselves, the backslash and the
usual control characters have short escapes; any other character that
prints nothing, or that would join the one before it, is written by its
number in hexadecimal.
-/
import AudioMux.Text.Unprintable

namespace AudioMux.Text

/-- A number in lower-case hexadecimal, without leading zeros. -/
def hexadecimal (n : Nat) : String :=
  String.ofList (Nat.toDigits 16 n)

/-- How a character is written inside a quoted text. -/
def escapeChar (c : Char) : String :=
  match c with
  | '"' => "\\\""
  | '\\' => "\\\\"
  | '\n' => "\\n"
  | '\r' => "\\r"
  | '\t' => "\\t"
  | '\x00' => "\\0"
  | c =>
    if isUnprintable c then "\\u\x7b" ++ hexadecimal c.toNat ++ "\x7d"
    else String.singleton c

/-- A text in double quotes, with escapes. -/
def quoted (text : String) : String :=
  "\"" ++ String.join (text.toList.map escapeChar) ++ "\""

end AudioMux.Text

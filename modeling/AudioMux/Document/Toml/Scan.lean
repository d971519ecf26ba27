/-
Reading a TOML text from left to right.

A scan takes some characters off the text that is left, or refuses the
text. What can stand between the parts of a document is skipped here:
blanks, line breaks and comments.
-/

namespace AudioMux.Toml

/-- A reader of the text that is left. -/
abbrev Scan := StateT (List Char) Option

/-- Whether a character is a blank within a line. -/
def isSpace (c : Char) : Bool := c == ' ' || c == '\t'

/-- Whether a character can stand in a comment or a literal. -/
def isVisible (c : Char) : Bool := c == '\t' || 0x20 ≤ c.toNat

/-- Whether a character can stand in a name, a number or a date without
quotes. -/
def isWordChar (c : Char) : Bool := c.isAlphanum || c == '-' || c == '_'

namespace Scan

/-- The character that comes next. -/
def peek : Scan (Option Char) := do
  pure (← get).head?

/-- Takes a character if it comes next, and tells whether it did. -/
def accept (c : Char) : Scan Bool := fun text =>
  match text with
  | [] => some (false, [])
  | d :: rest =>
    if d = c then some (true, rest) else some (false, d :: rest)

/-- Takes a character that has to come next. -/
def expect (c : Char) : Scan Unit := do
  unless ← accept c do
    failure

/-- Takes characters as long as they pass a test. -/
def takeWhile (test : Char → Bool) : Scan (List Char) := fun text =>
  some (text.takeWhile test, text.dropWhile test)

/-- Skips blanks. -/
def skipSpaces : Scan Unit := discard (takeWhile isSpace)

/-- Takes a word. -/
def word : Scan (List Char) := do
  let chars ← takeWhile isWordChar
  if chars.isEmpty then
    failure
  pure chars

/-- What is left once blanks, line breaks and comments are skipped, where
the text starts within a comment or not. -/
def skipLinesFrom (comment : Bool) : List Char → Option (List Char)
  | [] => some []
  | c :: rest =>
    if c = '\n' then skipLinesFrom false rest
    else if comment then
      if isVisible c then skipLinesFrom true rest else none
    else if isSpace c then skipLinesFrom false rest
    else if c = '#' then skipLinesFrom true rest
    else some (c :: rest)

/-- Skips blanks, line breaks and comments. -/
def skipLines : Scan Unit := fun text => do
  pure ((), ← skipLinesFrom false text)

/-- Takes what is left of a line, which can only be a comment. -/
def endLine : Scan Unit := do
  skipSpaces
  if ← accept '#' then
    discard (takeWhile isVisible)
  if (← get).isEmpty then
    pure ()
  else
    expect '\n'

end Scan

end AudioMux.Toml

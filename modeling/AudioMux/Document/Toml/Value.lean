/-
Values in TOML: texts, numbers and truth values, and lists and tables of
values. How deep values are nested is bounded by the length of the text,
since each level takes a bracket.
-/
import AudioMux.Document.Toml.Number
import AudioMux.Document.Toml.Tree

namespace AudioMux.Toml

/-- Reads a name: a word, or a text of a single line. -/
def name : Scan String := do
  match ← text? with
  | some (text, false) => pure text
  | some (_, true) => failure
  | none => pure (String.ofList (← Scan.word))

/-- Reads the rest of a dotted name, in which the names `path` were read,
the last one first, and at most `limit` names follow. -/
def moreNames (path : List String) : (limit : Nat) → Scan (List String)
  | 0 => failure
  | limit + 1 => do
    Scan.skipSpaces
    if ← Scan.accept '.' then
      Scan.skipSpaces
      moreNames ((← name) :: path) limit
    else
      pure path.reverse

/-- Reads a dotted name of at most `limit` parts, and the blanks after
it. -/
def dottedName (limit : Nat) : Scan (List String) := do
  moreNames [← name] limit

/-- Reads a value that starts with a word. -/
def wordValue (word : List Char) : Scan Document :=
  if word = "true".toList then pure (.boolean true)
  else if word = "false".toList then pure (.boolean false)
  else if word = "inf".toList ∨ word = "nan".toList then pure .real
  else if word.head?.any (fun c => c == '-' || c.isDigit) then
    numberOrTime word
  else failure

mutual

/-- Reads a value that is nested at most so deep. -/
def value : Nat → Scan Document
  | 0 => failure
  | depth + 1 => do
    match ← text? with
    | some (text, _) => pure (.text text)
    | none =>
      if ← Scan.accept '[' then
        Scan.skipLines
        pure (.list (← listItems [] depth))
      else if ← Scan.accept '\x7b' then
        Scan.skipSpaces
        if ← Scan.accept '\x7d' then pure (.table [])
        else pure (.table (← tableItems [] depth).documents)
      else if ← Scan.accept '+' then
        number (← Scan.word)
      else
        wordValue (← Scan.word)

/-- Reads the rest of a list after the items read so far, the last one
first. -/
def listItems (items : List Document) : Nat → Scan (List Document)
  | 0 => failure
  | depth + 1 => do
    if ← Scan.accept ']' then
      pure items.reverse
    else
      let item ← value depth
      Scan.skipLines
      if ← Scan.accept ',' then
        Scan.skipLines
        listItems (item :: items) depth
      else
        Scan.expect ']'
        pure (item :: items).reverse

/-- Reads the rest of a table on one line after the entries read so
far. -/
def tableItems (entries : Entries) : Nat → Scan Entries
  | 0 => failure
  | depth + 1 => do
    let path ← dottedName (depth + 1)
    Scan.expect '='
    Scan.skipSpaces
    let item ← value depth
    let entries ← Entries.assign item path entries
    Scan.skipSpaces
    if ← Scan.accept '\x7d' then
      pure entries
    else
      Scan.expect ','
      Scan.skipSpaces
      tableItems entries depth

end

end AudioMux.Toml

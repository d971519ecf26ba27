/-
Whole TOML texts.

A text is a row of lines, each of which assigns a value to a name or
starts a section. The assignments of a section, and those in front of
the first one, are gathered before they are put in their place.
-/
import AudioMux.Document.Toml.Value

namespace AudioMux.Toml

/-- A line that says something. -/
inductive Line where
  /-- The start of a section, for a table or for one of a list of
  tables. -/
  | header (isList : Bool) (path : List String)
  | assignment (path : List String) (value : Document)

/-- Reads the start of a section after its first bracket. -/
def headerLine (limit : Nat) : Scan Line := do
  let isList ← Scan.accept '['
  Scan.skipSpaces
  let path ← dottedName limit
  Scan.expect ']'
  if isList then
    Scan.expect ']'
  Scan.endLine
  pure (.header isList path)

/-- Reads an assignment. -/
def assignmentLine (limit : Nat) : Scan Line := do
  let path ← dottedName limit
  Scan.expect '='
  Scan.skipSpaces
  let value ← value limit
  Scan.endLine
  pure (.assignment path value)

/-- What was made of the lines so far. -/
structure Draft where
  /-- The assignments in front of the first section. -/
  front : List (String × Document)
  /-- The sections before the one in progress. -/
  done : Sections
  /-- The header of the section in progress, if it has one. -/
  header? : Option (Bool × List String)
  /-- The assignments of the section in progress. -/
  own : Entries

namespace Draft

/-- The draft before any line. -/
def empty : Draft := ⟨[], [], none, []⟩

/-- The draft with the section in progress in its place. -/
def close (draft : Draft) : Option Draft :=
  let own := draft.own.documents
  match draft.header? with
  | none => some { draft with front := own, own := [] }
  | some (isList, path) => do
    let done ← Sections.add isList own path draft.done
    pure { draft with done := done, own := [] }

/-- The draft with one more line. -/
def add (draft : Draft) : Line → Option Draft
  | .header isList path => do
    pure { ← draft.close with header? := some (isList, path) }
  | .assignment path value => do
    pure { draft with own := ← Entries.assign value path draft.own }

/-- The document of a draft that is complete. -/
def document? (draft : Draft) : Option Document := do
  let closed ← draft.close
  pure (.table (closed.front ++ closed.done.documents))

end Draft

/-- Reads the lines up to the end of the text, of which there are at most
`fuel`. -/
def lines (limit : Nat) (draft : Draft) : (fuel : Nat) → Scan Draft
  | 0 => failure
  | fuel + 1 => do
    Scan.skipLines
    match ← Scan.peek with
    | none => pure draft
    | some _ =>
      let line ←
        if ← Scan.accept '[' then headerLine limit else assignmentLine limit
      lines limit (← draft.add line) fuel

/-- Line breaks of two characters made line breaks of one, after the
characters `done`, the last one first. -/
def foldBreaksFrom (done : List Char) : List Char → List Char
  | '\r' :: '\n' :: rest => foldBreaksFrom ('\n' :: done) rest
  | c :: rest => foldBreaksFrom (c :: done) rest
  | [] => done.reverse

/-- The characters of a text, without a mark of byte order in front. -/
def characters (text : String) : List Char :=
  match foldBreaksFrom [] text.toList with
  | '\ufeff' :: rest => rest
  | chars => chars

end Toml

/-- The document of a TOML text. How deep its values are nested is
bounded by its length, since each level takes a bracket, and so is every
other repetition. -/
def Document.ofToml? (text : String) : Option Document := do
  let chars := Toml.characters text
  let limit := 2 * chars.length + 2
  let (draft, _) ← (Toml.lines limit Toml.Draft.empty limit).run chars
  draft.document?

end AudioMux

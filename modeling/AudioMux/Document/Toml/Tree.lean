/-
Tables in the making.

The entries of a table can be spread over a TOML text: a dotted name
reaches into a table, and so does a section with a longer name. What is
kept apart is what can still be added to. A dotted name reaches only
into what dotted names made, a section only into what sections made, and
a table has one section of its own. Where these do not meet, a name can
be used again, and the table has it more than once.
-/
import AudioMux.Document.Basic

namespace AudioMux.Toml

/-- Changes the first entry of a name, or adds one at the end if there is
none. -/
def alter {α : Type} (name : String) (change : Option α → Option α) :
    List (String × α) → Option (List (String × α))
  | [] => do pure [(name, ← change none)]
  | (other, item) :: rest =>
    if other = name then do pure ((name, ← change (some item)) :: rest)
    else do pure ((other, item) :: (← alter name change rest))

-- ========================================================== assignments

/-- An entry that assignments made. -/
inductive Entry where
  /-- A value, which is complete. -/
  | value (document : Document)
  /-- A table that dotted names reach into, the latest entry first. -/
  | dotted (entries : List (String × Entry))

/-- Entries that assignments made, the latest first. -/
abbrev Entries := List (String × Entry)

namespace Entries

/-- Gives a value to a dotted name. The first part of a dotted name of
several parts means the oldest entry it can. -/
def assign (document : Document) : List String → Entries → Option Entries
  | [], _ => none
  | [name], entries => some ((name, .value document) :: entries)
  | name :: path, entries => do
    let assignInner : Option Entry → Option Entry
      | none => do pure (.dotted (← assign document path []))
      | some (.dotted inner) => do
        pure (.dotted (← assign document path inner))
      | some (.value _) => none
    let oldestFirst ← alter name assignInner entries.reverse
    pure oldestFirst.reverse

mutual

/-- An entry as a document. -/
def entryDocument : Entry → Document
  | .value document => document
  | .dotted entries => .table (documentsOnto [] entries)

/-- Entries as documents in front of others, the oldest first. -/
def documentsOnto (done : List (String × Document)) :
    Entries → List (String × Document)
  | [] => done
  | (name, entry) :: rest =>
    documentsOnto ((name, entryDocument entry) :: done) rest

end

/-- Entries as documents, the oldest first. -/
def documents (entries : Entries) : List (String × Document) :=
  documentsOnto [] entries

end Entries

-- ============================================================= sections

/-- What sections made of a name. -/
inductive Section where
  /-- A table with the entries of its own section, if it had one. -/
  | table (own? : Option (List (String × Document)))
      (inner : List (String × Section))
  /-- A list of tables with a section each, of which the latest can get
  more. The others come latest first. -/
  | tables (closed : List Document) (own : List (String × Document))
      (inner : List (String × Section))

/-- What sections made of the names in a table. -/
abbrev Sections := List (String × Section)

namespace Sections

mutual

/-- A section as a document. -/
def sectionDocument : Section → Document
  | .table own? inner => .table (own?.getD [] ++ documents inner)
  | .tables closed own inner =>
    .list ((.table (own ++ documents inner)) :: closed).reverse

/-- Sections as documents. -/
def documents : Sections → List (String × Document)
  | [] => []
  | (name, part) :: rest => (name, sectionDocument part) :: documents rest

end

/-- The table with its own section, or one more table in a list of
them. -/
def state (isList : Bool) (own : List (String × Document)) :
    Option Section → Option Section
  | none => some (if isList then .tables [] own [] else .table own [])
  | some (.table none inner) =>
    if isList then none else some (.table own inner)
  | some (.table (some _) _) => none
  | some (.tables closed earlier inner) =>
    if isList then
      let latest := .table (earlier ++ documents inner)
      some (.tables (latest :: closed) own [])
    else none

/-- Adds a section with its entries, as a table or as one of a list of
tables. -/
def add (isList : Bool) (own : List (String × Document)) :
    List String → Sections → Option Sections
  | [], _ => none
  | [name], sections => alter name (state isList own) sections
  | name :: path, sections =>
    let addInner : Option Section → Option Section
      | none => do pure (.table none (← add isList own path []))
      | some (.table earlier? inner) => do
        pure (.table earlier? (← add isList own path inner))
      | some (.tables closed earlier inner) => do
        pure (.tables closed earlier (← add isList own path inner))
    alter name addInner sections

end Sections

end AudioMux.Toml

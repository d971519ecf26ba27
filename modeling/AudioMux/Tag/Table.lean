/-
The table of tags: entries in the order of their first appearance. A
later value takes the place of an earlier one with the same key, except
that a file may hold several pieces of artwork.
-/
import AudioMux.Box.ItemList
import AudioMux.Tag.Basic

namespace AudioMux

/-- The entries of a file's metadata, in order. -/
structure TagTable where
  entries : List TagEntry
  deriving DecidableEq, Repr

namespace TagTable

/-- A table without entries. -/
def empty : TagTable := ⟨[]⟩

/-- The number of entries. -/
def length (table : TagTable) : Nat := table.entries.length

/-- Whether there are no entries. -/
def isEmpty (table : TagTable) : Bool := table.entries.isEmpty

/-- The first entry with a key. -/
def get? (table : TagTable) (key : TagKey) : Option TagEntry :=
  table.entries.find? fun entry => entry.key = key

/-- Puts an entry in the place of the first with its key, or at the end
if there is none. -/
def replaceOrAppend (entry : TagEntry) : List TagEntry → List TagEntry
  | [] => [entry]
  | old :: rest =>
    if old.key = entry.key then entry :: rest
    else old :: replaceOrAppend entry rest

/-- Stores an entry. Artwork is always added. -/
def insert (entry : TagEntry) (table : TagTable) : TagTable :=
  if entry.key = .code Tag.Code.artwork then
    ⟨table.entries ++ [entry]⟩
  else
    ⟨replaceOrAppend entry table.entries⟩

/-- Stores the entry of a tag. A tag without a value changes nothing. -/
def add (tag : Tag) (table : TagTable) : Except Failure TagTable := do
  match ← tag.encode with
  | some entry => pure (table.insert entry)
  | none => pure table

/-- An entry as an item of a file. -/
def item (entry : TagEntry) : Box.Item :=
  let data : Box.ItemData := ⟨entry.type.code, 0, entry.data⟩
  match entry.key with
  | .code code => .coded code data
  | .name name => .freeForm ⟨name⟩ data

/-- All entries as a list of items. -/
def itemList (table : TagTable) : Box.ItemList :=
  ⟨table.entries.map item⟩

end TagTable

end AudioMux

/-
Reading a table of tags back from the list of items in a file.

An item says what its entry was: its code, or the name of a free-form item,
with the number of its data type and the data (`TagEntry.ofItem?`). No entry
that was stored is lost on the way, since its key is one that a file can
tell from all others (`TagEntry.Proper`), and data types have small numbers.
So a table whose list is below 32 bits is read back as it is
(`readEntries?_encode`).
-/
import AudioMux.Proofs.Box.Decode.Movie
import AudioMux.Proofs.Tag.Table

namespace AudioMux

open Box (Item ItemList encode walk maxWord32 sizeList)
open Box.Reader (child)

-- ================================================================= readers

/-- The data type with a number. -/
def DataType.ofCode? (code : UInt32) : Option DataType :=
  [implicit, utf8, gif, jpeg, png, integer].find? fun type =>
    type.code = code

/-- The entry of an item. -/
def TagEntry.ofItem? : Item → Option TagEntry
  | .coded code data => do
    pure ⟨.code code, ← DataType.ofCode? data.typeCode, data.payload⟩
  | .freeForm name data => do
    pure ⟨.name name.name, ← DataType.ofCode? data.typeCode, data.payload⟩

/-- The entries in the bytes of a list of items. -/
def TagTable.readEntries? (bytes : Bytes) : Option (List TagEntry) := do
  let list ← (walk bytes).bind
    (child (.ofChars 'i' 'l' 's' 't') ItemList.reader)
  list.items.mapM TagEntry.ofItem?

-- ==================================================================== laws

theorem DataType.ofCode?_code (type : DataType) :
    ofCode? type.code = some type := by
  cases type <;> rfl

theorem TagEntry.ofItem?_item (entry : TagEntry) :
    ofItem? (TagTable.item entry) = some entry := by
  obtain ⟨key, type, data⟩ := entry
  cases key <;> simp [TagTable.item, ofItem?, DataType.ofCode?_code]

/-- Nothing is lost when an entry that was stored is written. -/
theorem TagEntry.Proper.lossless_item {entry : TagEntry}
    (h : entry.Proper) : (TagTable.item entry).Lossless := by
  obtain ⟨key, type, data⟩ := entry
  have htype : type.code.toNat < 2 ^ 24 := by cases type <;> decide
  cases key with
  | code own =>
      have halone : Tag.StandsAlone own := h.key
      exact ⟨halone.1, htype⟩
  | name own => exact htype

namespace TagTable

/-- The items of a table are those of its entries. -/
theorem mapM_ofItem? (table : TagTable) :
    table.itemList.items.mapM TagEntry.ofItem? = some table.entries := by
  show (table.entries.map item).mapM TagEntry.ofItem? = _
  generalize table.entries = entries
  induction entries with
  | nil => rfl
  | cons entry entries ih =>
      rw [List.map_cons, List.mapM_cons, ih, TagEntry.ofItem?_item]
      rfl

theorem lossless_items {table : TagTable}
    (hproper : ∀ entry ∈ table.entries, entry.Proper) :
    ∀ item ∈ table.itemList.items, item.Lossless := by
  intro item hitem
  obtain ⟨entry, hentry, rfl⟩ := List.mem_map.mp hitem
  exact (hproper entry hentry).lossless_item

/-- A list of items below 32 bits gives its entries back. -/
theorem readEntries?_encode {table : TagTable}
    (hproper : ∀ entry ∈ table.entries, entry.Proper)
    (hsize : (encode table.itemList).length < 2 ^ 32) :
    readEntries? (encode table.itemList) = some table.entries := by
  have hfits : Box.Format.size table.itemList ≤ maxWord32 := by
    have hle := (Box.fair_encode table.itemList).1
    unfold maxWord32
    omega
  have hlist : (walk (encode table.itemList)).bind
      (child (.ofChars 'i' 'l' 's' 't') ItemList.reader)
        = some table.itemList := by
    rw [Box.walk_encode_self hfits, Option.bind_some]
    exact Box.child_of rfl
      (Box.reads_itemList hfits (lossless_items hproper))
  unfold readEntries?
  rw [hlist]
  exact mapM_ofItem? table

-- ================================================================== result

/-- Whatever tags are added to an empty table, whether or not they are
refused: the keys of the table are those of the entries that were stored, in
the order they came first. Under each key but that of artwork there is the
last entry that was stored with it, and nothing else, and all artwork is
there as it was stored. A tag that is refused or has no value stores nothing
and changes no table. If the list of items is below 32 bits, its bytes give
all entries back. -/
theorem addAll_kept (tags : List Tag) :
    (addAll tags).entries.map TagEntry.key
        = (TagEntry.leading (tags.filterMap Tag.stored?)).map TagEntry.key
      ∧ (∀ key ≠ .code Tag.Code.artwork,
        (addAll tags).entries.filter (fun entry => entry.key = key)
          = ((tags.filterMap Tag.stored?).filter fun entry =>
              entry.key = key).getLast?.toList)
      ∧ (addAll tags).entries.filter (fun entry => entry.IsArtwork)
        = (tags.filterMap Tag.stored?).filter (fun entry => entry.IsArtwork)
      ∧ (∀ tag : Tag, tag.stored? = none
        ↔ (∃ failure, tag.encode = .error failure) ∨ ¬ tag.HasValue)
      ∧ (∀ (tag : Tag) (table : TagTable), tag.stored? = none →
        table.attempt tag = table)
      ∧ ((encode (addAll tags).itemList).length < 2 ^ 32 →
        readEntries? (encode (addAll tags).itemList)
          = some (addAll tags).entries) := by
  refine ⟨?_, ?_, ?_, fun _ => Tag.stored?_eq_none_iff, ?_, ?_⟩
  · rw [addAll_eq, map_key_insertAll]
  · intro key hkey
    rw [addAll_eq, filter_key_insertAll hkey]
  · rw [addAll_eq, filter_isArtwork_insertAll]
  · intro tag table hnone
    rw [attempt_eq, hnone]
    rfl
  · exact readEntries?_encode fun _ => proper_addAll

/-- A title that is given twice and once more without a text, two pieces of
artwork, one of them as it is, and a number that cannot stand alone. -/
def someTags : List Tag :=
  [.text Tag.Code.title "A", .artwork [0xff, 0xd8, 0xff],
    .freeForm "mood" "B", .text Tag.Code.title "C", .track 1 2,
    .int16 Tag.Code.trackTotal 7, .raw Tag.Code.artwork .png [9],
    .text Tag.Code.title "", .freeForm "" "D", .artwork [1]]

theorem addAll_kept_someTags :
    (encode (addAll someTags).itemList).length < 2 ^ 32
      ∧ readEntries? (encode (addAll someTags).itemList)
        = some [⟨.code Tag.Code.title, .utf8, [0x43]⟩,
            ⟨.code Tag.Code.artwork, .jpeg, [0xff, 0xd8, 0xff]⟩,
            ⟨.name "mood", .utf8, [0x42]⟩,
            ⟨.code Tag.Code.track, .implicit, [0, 0, 0, 1, 0, 2, 0, 0]⟩,
            ⟨.code Tag.Code.artwork, .png, [9]⟩] := by
  have hsize : (encode (addAll someTags).itemList).length < 2 ^ 32 := by
    decide +kernel
  obtain ⟨-, -, -, -, -, hread⟩ := addAll_kept someTags
  refine ⟨hsize, (hread hsize).trans ?_⟩
  decide +kernel

end TagTable

end AudioMux

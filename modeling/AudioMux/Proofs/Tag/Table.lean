/-
What a table of tags holds after any number of tags were added.

A tag is refused, or has nothing to store, or stores an entry
(`Tag.outcome_encode`), and only the last of these changes the table. So
what counts is the list of entries that were stored, one after the other.
The table is a list of slots, one for each key and each piece of artwork,
with the last entry of its key in each (`entries_insertAll`).
-/
import AudioMux.Proofs.Slots
import AudioMux.Proofs.Tag.Encode

namespace AudioMux

-- ================================================================== storing

/-- A code that names an item of its own. -/
def Tag.StandsAlone (code : FourCC) : Prop :=
  code ≠ Code.freeForm ∧ code ≠ Code.trackTotal ∧ code ≠ Code.discTotal

instance (code : FourCC) : Decidable (Tag.StandsAlone code) :=
  inferInstanceAs (Decidable (_ ∧ _ ∧ _))

/-- A key that an item of a file can go by. -/
def TagKey.Proper : TagKey → Prop
  | .code own => Tag.StandsAlone own
  | .name own => own ≠ ""

instance : (key : TagKey) → Decidable key.Proper
  | .code own => inferInstanceAs (Decidable (Tag.StandsAlone own))
  | .name own => inferInstanceAs (Decidable (own ≠ ""))

/-- An entry that a file can hold. -/
structure TagEntry.Proper (entry : TagEntry) : Prop where
  key : entry.key.Proper
  data : entry.data ≠ []

namespace Tag

/-- The tag has a value. A free-form item without a name has none, and a
number always has one. -/
def HasValue : Tag → Prop
  | .text _ value => value ≠ ""
  | .freeForm name value => name ≠ "" ∧ value ≠ ""
  | .artwork image => image ≠ []
  | .raw _ _ data => data ≠ []
  | _ => True

theorem ofText_eq_nil_iff {text : String} :
    Bytes.ofText text = [] ↔ text = "" := by
  constructor
  · intro h
    have hbytes : text.toByteArray = ⟨#[]⟩ :=
      ByteArray.ext (Array.toList_eq_nil_iff.mp h)
    exact String.toByteArray_inj.mp hbytes
  · rintro rfl
    rfl

theorem keyOfCode_of_standsAlone {code : FourCC} (h : StandsAlone code) :
    keyOfCode code = .ok (.code code) := by
  obtain ⟨hfree, htrack, hdisc⟩ := h
  simp [keyOfCode, hfree, htrack, hdisc]

/-- Under a code that stands alone any data is an entry, if there is any. -/
theorem keyed_of_standsAlone {code : FourCC} (h : StandsAlone code)
    (type : DataType) (data : Bytes) :
    (do pure (entryOf (← keyOfCode code) type data)
      : Except Failure (Option TagEntry))
      = .ok (entryOf (.code code) type data) := by
  rw [keyOfCode_of_standsAlone h]
  rfl

theorem exists_failure_of_keyOfCode {code : FourCC}
    (h : ¬ StandsAlone code) :
    ∃ failure, keyOfCode code = .error failure := by
  unfold keyOfCode
  split
  · exact ⟨_, rfl⟩
  · split
    · exact ⟨_, rfl⟩
    · next hfree htotals =>
      exact absurd ⟨hfree, not_or.mp htotals⟩ h

/-- What becomes of a tag: it is refused, has nothing to store, or stores an
entry. -/
inductive Outcome (hasValue : Prop) :
    Except Failure (Option TagEntry) → Prop where
  | refused (failure : Failure) : Outcome hasValue (.error failure)
  | nothing (h : ¬ hasValue) : Outcome hasValue (.ok none)
  | stored {entry : TagEntry} (h : hasValue) (hproper : entry.Proper) :
      Outcome hasValue (.ok (some entry))

theorem outcome_entryOf {key : TagKey} {type : DataType} {data : Bytes}
    {hasValue : Prop} (hkey : key.Proper) (hdata : data ≠ [] ↔ hasValue) :
    Outcome hasValue (.ok (entryOf key type data)) := by
  by_cases hempty : data = []
  · have hnone : entryOf key type data = none := by simp [entryOf, hempty]
    rw [hnone]
    exact .nothing fun h => hdata.mpr h hempty
  · have hsome : entryOf key type data = some ⟨key, type, data⟩ := by
      simp [entryOf, hempty]
    rw [hsome]
    exact .stored (hdata.mp hempty) ⟨hkey, hempty⟩

/-- The outcome under a code is that of the data, if the code stands
alone. -/
theorem outcome_keyed {code : FourCC} {type : DataType} {data : Bytes}
    {hasValue : Prop} (hdata : data ≠ [] ↔ hasValue) :
    Outcome hasValue (do pure (entryOf (← keyOfCode code) type data)) := by
  by_cases halone : StandsAlone code
  · have hkey : TagKey.Proper (.code code) := halone
    rw [keyed_of_standsAlone halone]
    exact outcome_entryOf hkey hdata
  · obtain ⟨failure, hkey⟩ := exists_failure_of_keyOfCode halone
    rw [hkey]
    exact .refused failure

theorem outcome_encode (tag : Tag) : Outcome tag.HasValue tag.encode := by
  -- A number has bytes whatever it is.
  have hbytes : ∀ {data : Bytes}, 0 < data.length → (data ≠ [] ↔ True) :=
    fun h => iff_of_true (List.ne_nil_of_length_pos h) trivial
  cases tag with
  | text code value => exact outcome_keyed (not_congr ofText_eq_nil_iff)
  | int8 | int16 | int32 | int64 => exact outcome_keyed (hbytes (by simp))
  | raw code type data => exact outcome_keyed Iff.rfl
  | track | disc | genre =>
      exact outcome_entryOf (by decide) (hbytes (by simp))
  | artwork image =>
      simp only [encode, HasValue]
      by_cases hempty : image = []
      · rw [if_pos (List.isEmpty_iff.mpr hempty)]
        exact .nothing fun h => h hempty
      rw [if_neg (mt List.isEmpty_iff.mp hempty)]
      cases imageType? image with
      | none => exact .refused _
      | some type => exact outcome_entryOf (by decide) Iff.rfl
  | freeForm name value =>
      simp only [encode, HasValue]
      by_cases hname : name = ""
      · rw [if_pos (String.isEmpty_iff.mpr hname)]
        exact .nothing fun h => h.1 hname
      rw [if_neg (mt String.isEmpty_iff.mp hname)]
      have hkey : TagKey.Proper (.name name) := hname
      refine outcome_entryOf hkey ?_
      rw [Ne, ofText_eq_nil_iff]
      exact (and_iff_right hname).symm

/-- The entry that a tag puts into a table, if there is one. -/
def stored? (tag : Tag) : Option TagEntry :=
  match tag.encode with
  | .ok found? => found?
  | .error _ => none

theorem proper_of_stored? {tag : Tag} {entry : TagEntry}
    (h : tag.stored? = some entry) : entry.Proper := by
  have houtcome := tag.outcome_encode
  unfold stored? at h
  cases hencode : tag.encode with
  | error failure =>
      rw [hencode] at h
      cases h
  | ok found? =>
      rw [hencode] at h houtcome
      obtain rfl : found? = some entry := h
      cases houtcome with
      | stored _ hproper => exact hproper

/-- Nothing is stored of a tag that is refused or has no value. -/
theorem stored?_eq_none_iff {tag : Tag} :
    tag.stored? = none
      ↔ (∃ failure, tag.encode = .error failure) ∨ ¬ tag.HasValue := by
  have houtcome := tag.outcome_encode
  unfold stored?
  cases hencode : tag.encode with
  | error failure => simp
  | ok found? =>
      rw [hencode] at houtcome
      cases houtcome with
      | nothing hvalue => simp [hvalue]
      | stored hvalue _ => simp [hvalue]

end Tag

-- ================================================================== adding

namespace TagTable

/-- The table after a tag was added to it. If the tag is refused the table
stays as it is. -/
def attempt (table : TagTable) (tag : Tag) : TagTable :=
  match table.add tag with
  | .ok table => table
  | .error _ => table

/-- The table after some tags were added to an empty one, whatever came of
each. -/
def addAll (tags : List Tag) : TagTable := tags.foldl attempt .empty

/-- The table after some entries were stored in an empty one. -/
def insertAll (entries : List TagEntry) : TagTable :=
  entries.foldl (fun table entry => table.insert entry) .empty

theorem attempt_eq (table : TagTable) (tag : Tag) :
    table.attempt tag = tag.stored?.elim table table.insert := by
  unfold attempt Tag.stored?
  cases hencode : tag.encode with
  | error failure =>
      rw [add_of_encode_error hencode]
      rfl
  | ok found? => rw [add_of_encode hencode]

/-- Only what is stored counts. -/
theorem addAll_eq (tags : List Tag) :
    addAll tags = insertAll (tags.filterMap Tag.stored?) := by
  unfold addAll insertAll
  generalize empty = table
  induction tags generalizing table with
  | nil => rfl
  | cons tag tags ih =>
      rw [List.foldl_cons, ih, attempt_eq]
      cases hstored : tag.stored? with
      | none => rw [List.filterMap_cons_none hstored]; rfl
      | some entry => rw [List.filterMap_cons_some hstored]; rfl

end TagTable

-- =================================================================== slots

/-- The key itself, if a later value replaces an earlier one. -/
def TagKey.slot? (key : TagKey) : Option TagKey :=
  if key = .code Tag.Code.artwork then none else some key

namespace TagEntry

/-- A piece of artwork, of which a file may hold several. -/
def IsArtwork (entry : TagEntry) : Prop :=
  entry.key = .code Tag.Code.artwork

instance (entry : TagEntry) : Decidable entry.IsArtwork :=
  inferInstanceAs (Decidable (_ = _))

/-- The key under which a later entry replaces this one, if any does. -/
def slot? (entry : TagEntry) : Option TagKey := entry.key.slot?

/-- The later of two entries with the same key. -/
def replace (_ entry : TagEntry) : TagEntry := entry

/-- The entries that come first with their key, and all artwork. -/
def leading (entries : List TagEntry) : List TagEntry :=
  Slots.firsts slot? entries

variable {entry : TagEntry} {key : TagKey}

theorem slot?_eq_none_iff : entry.slot? = none ↔ entry.IsArtwork := by
  unfold slot? TagKey.slot? IsArtwork
  split <;> simp_all

theorem key_of_slot? (h : entry.slot? = some key) : entry.key = key := by
  unfold slot? TagKey.slot? at h
  split at h
  · cases h
  · exact Option.some_inj.mp h

theorem slot?_eq_some_iff (hkey : key ≠ .code Tag.Code.artwork) :
    entry.slot? = some key ↔ entry.key = key := by
  refine ⟨key_of_slot?, ?_⟩
  rintro rfl
  exact if_neg hkey

theorem keepsKey_replace : Slots.KeepsKey slot? replace :=
  fun _ _ hkey => hkey.symm

theorem mergeAll_replace (entries : List TagEntry) :
    Slots.mergeAll replace entries = entries.getLast? := by
  induction entries using List.reverseRecOn with
  | nil => rfl
  | append_singleton entries entry _ =>
      rw [Slots.mergeAll_concat, List.getLast?_concat]
      cases Slots.mergeAll replace entries <;> rfl

/-- The latest entry of a slot has the key of the first. -/
theorem key_gather (entries : List TagEntry) (entry : TagEntry) :
    (Slots.gather slot? replace entries entry).key = entry.key := by
  have hslot := Slots.key_gather keepsKey_replace entries entry
  cases hkey : entry.slot? with
  | none => rw [Slots.gather_of_none hkey]
  | some key =>
      rw [hkey] at hslot
      rw [key_of_slot? hslot, key_of_slot? hkey]

end TagEntry

namespace TagTable

open TagEntry (leading slot? replace)

/-- An entry is stored in the slot of its key. -/
theorem entries_insert (entry : TagEntry) (table : TagTable) :
    (table.insert entry).entries
      = Slots.put slot? replace entry table.entries := by
  unfold insert
  split
  · next hartwork =>
    have hnone := TagEntry.slot?_eq_none_iff.mpr hartwork
    exact (Slots.put_of_own (Or.inl hnone)).symm
  · next hartwork =>
    have hslot : entry.slot? = some entry.key := if_neg hartwork
    show replaceOrAppend entry table.entries = _
    generalize table.entries = entries
    induction entries with
    | nil => rfl
    | cons old rest ih =>
        unfold replaceOrAppend Slots.put
        rw [ih, hslot]
        simp only [TagEntry.slot?_eq_some_iff hartwork]
        simp [replace]

/-- A table has a slot for each key, and for each piece of artwork, and in
it the latest entry. -/
theorem entries_insertAll (entries : List TagEntry) :
    (insertAll entries).entries = Slots.slots slot? replace entries := by
  have hfold : ∀ table : TagTable,
      (entries.foldl (fun table entry => table.insert entry) table).entries
        = entries.foldl (fun filled entry =>
            Slots.put slot? replace entry filled) table.entries := by
    intro table
    induction entries generalizing table with
    | nil => rfl
    | cons entry entries ih =>
        rw [List.foldl_cons, List.foldl_cons, ih, entries_insert]
  rw [← Slots.foldl_put TagEntry.keepsKey_replace]
  exact hfold empty

/-- The keys are in the order they came first. -/
theorem map_key_insertAll (entries : List TagEntry) :
    (insertAll entries).entries.map TagEntry.key
      = (leading entries).map TagEntry.key := by
  rw [entries_insertAll]
  unfold Slots.slots
  rw [List.map_map]
  exact List.map_congr_left fun first _ => TagEntry.key_gather entries first

/-- Under any key but that of artwork there is the last entry that was
stored with it. -/
theorem filter_key_insertAll {key : TagKey}
    (hkey : key ≠ .code Tag.Code.artwork) (entries : List TagEntry) :
    (insertAll entries).entries.filter (fun entry => entry.key = key)
      = (entries.filter fun entry => entry.key = key).getLast?.toList := by
  have hwith : ∀ entries : List TagEntry,
      entries.filter (fun entry => entry.key = key)
        = Slots.withKey slot? key entries := by
    intro entries
    unfold Slots.withKey
    simp only [TagEntry.slot?_eq_some_iff hkey]
  rw [entries_insertAll, hwith, hwith,
    Slots.withKey_slots TagEntry.keepsKey_replace, TagEntry.mergeAll_replace]

/-- The tag that is added last is the only one of its key, unless it is
artwork. -/
theorem filter_key_addAll_concat {tag : Tag} {entry : TagEntry}
    (h : tag.stored? = some entry)
    (hkey : entry.key ≠ .code Tag.Code.artwork) (tags : List Tag) :
    (addAll (tags ++ [tag])).entries.filter
        (fun other => other.key = entry.key) = [entry] := by
  have hlast : [entry].filter (fun other => other.key = entry.key)
      = [entry] := List.filter_cons_of_pos (decide_eq_true rfl)
  rw [addAll_eq, filter_key_insertAll hkey, List.filterMap_append,
    List.filterMap_cons_some h, List.filterMap_nil, List.filter_append,
    hlast, List.getLast?_concat]
  rfl

/-- Artwork is kept as it was stored. -/
theorem filter_isArtwork_insertAll (entries : List TagEntry) :
    (insertAll entries).entries.filter (fun entry => entry.IsArtwork)
      = entries.filter fun entry => entry.IsArtwork := by
  have hnone := Slots.filter_none_slots TagEntry.keepsKey_replace entries
  simp only [TagEntry.slot?_eq_none_iff] at hnone
  rw [entries_insertAll]
  exact hnone

/-- What is in a table was stored. -/
theorem mem_of_mem_insertAll {entry : TagEntry} {entries : List TagEntry}
    (h : entry ∈ (insertAll entries).entries) : entry ∈ entries := by
  by_cases hartwork : entry.IsArtwork
  · have hmem : entry ∈ (insertAll entries).entries.filter
        (fun other => other.IsArtwork) :=
      List.mem_filter.mpr ⟨h, decide_eq_true hartwork⟩
    rw [filter_isArtwork_insertAll] at hmem
    exact (List.mem_filter.mp hmem).1
  · have hmem : entry ∈ (insertAll entries).entries.filter
        (fun other => other.key = entry.key) :=
      List.mem_filter.mpr ⟨h, decide_eq_true rfl⟩
    rw [filter_key_insertAll hartwork, Option.mem_toList] at hmem
    exact (List.mem_filter.mp (List.mem_of_mem_getLast? hmem)).1

/-- Only entries that a file can hold are in a table. -/
theorem proper_addAll {tags : List Tag} {entry : TagEntry}
    (h : entry ∈ (addAll tags).entries) : entry.Proper := by
  have hstored : ∀ entry ∈ tags.filterMap Tag.stored?, entry.Proper := by
    intro entry hentry
    obtain ⟨tag, _, htag⟩ := List.mem_filterMap.mp hentry
    exact Tag.proper_of_stored? htag
  rw [addAll_eq] at h
  exact hstored entry (mem_of_mem_insertAll h)

end TagTable

end AudioMux

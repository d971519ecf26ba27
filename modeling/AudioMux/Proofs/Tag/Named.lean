/-
Tags by name, from the pairs a user gives to the entries of a table.

A pair is refused if no item goes by its name or its text means nothing for
the item. The tags of all others are merged and added to a table. The table
is the same as without merging, but for the numbers of tracks and discs:
merging keeps the tags that count nothing, and the first one of those that
count the same (`Slots.firsts`), in whose place all of them share an item
anyway. So the keys stand where the first pair put them
(`map_key_addAll_merged`), and what an item holds is the last value of its
pairs, or the last numbers.
-/
import Mathlib.Data.List.Forall2
import AudioMux.Proofs.Tag.Table
import AudioMux.Proofs.Tag.Value
import AudioMux.Tag.Named

namespace AudioMux

open TagEntry (leading)

-- =================================================================== pairs

section
variable {α β ε : Type}

/-- A loop gives its outcomes in order, if it gives all of them. -/
theorem mapM_eq_ok_iff {f : α → Except ε β} {as : List α} {bs : List β} :
    as.mapM f = .ok bs ↔ List.Forall₂ (fun a b => f a = .ok b) as bs := by
  induction as generalizing bs with
  | nil =>
      constructor
      · rintro ⟨⟩
        exact .nil
      · rintro ⟨⟩
        rfl
  | cons a as ih =>
      rw [List.mapM_cons]
      constructor
      · intro h
        cases hfirst : f a with
        | error failure =>
            rw [hfirst] at h
            cases h
        | ok b =>
            cases hrest : as.mapM f with
            | error failure =>
                rw [hfirst, hrest] at h
                cases h
            | ok later =>
                rw [hfirst, hrest] at h
                cases h
                exact .cons hfirst (ih.mp hrest)
      · rintro (_ | ⟨hfirst, hrest⟩)
        rw [hfirst, ih.mpr hrest]
        rfl

theorem exists_forall₂_iff {R : α → β → Prop} {as : List α} :
    (∃ bs, List.Forall₂ R as bs) ↔ ∀ a ∈ as, ∃ b, R a b := by
  induction as with
  | nil => simp
  | cons a as ih =>
      rw [List.forall_mem_cons, ← ih]
      constructor
      · rintro ⟨_, ⟨⟩⟩
        next b bs hfirst hrest => exact ⟨⟨b, hfirst⟩, ⟨bs, hrest⟩⟩
      · rintro ⟨⟨b, hfirst⟩, ⟨bs, hrest⟩⟩
        exact ⟨b :: bs, .cons hfirst hrest⟩

end

namespace Tag

/-- The tag that a name and a text stand for, if they stand for any. -/
def Names (pair : String × String) (tag : Tag) : Prop :=
  ∃ code, codeOfName? pair.1 = some code ∧ Means code pair.2 tag

theorem ofNamed_eq_ok_iff {pair : String × String} {tag : Tag} :
    ofNamed pair.1 pair.2 = .ok tag ↔ Names pair tag := by
  unfold ofNamed Names
  cases codeOfName? pair.1 with
  | none => simp
  | some code =>
      simp only [← ofText_eq_ok_iff]
      cases hvalue : ofText code pair.2 <;> simp [hvalue]

/-- Pairs that stand for tags give these merged. -/
theorem ofNamedList_eq_ok_iff {pairs : List (String × String)}
    {tags : List Tag} :
    ofNamedList pairs = .ok tags
      ↔ ∃ given, List.Forall₂ Names pairs given
        ∧ tags = mergeNumbering given := by
  have hgiven : ∀ given, List.Forall₂ Names pairs given
      ↔ pairs.mapM (fun pair => ofNamed pair.1 pair.2) = .ok given := by
    intro given
    rw [mapM_eq_ok_iff]
    simp only [ofNamed_eq_ok_iff]
  have hmerged : ofNamedList pairs
      = (pairs.mapM fun pair => ofNamed pair.1 pair.2).map mergeNumbering :=
    rfl
  rw [hmerged]
  simp only [hgiven]
  cases pairs.mapM fun pair => ofNamed pair.1 pair.2 with
  | error failure => simp [Except.map]
  | ok given => simp [Except.map, eq_comm]

/-- A list of pairs is refused if there is one with an unknown name, or with
a text that means nothing for its item. -/
theorem ofNamedList_eq_error_iff {pairs : List (String × String)} :
    (∃ failure, ofNamedList pairs = .error failure)
      ↔ ∃ pair ∈ pairs, codeOfName? pair.1 = none
        ∨ ∃ code, codeOfName? pair.1 = some code
          ∧ ∀ tag, ¬ Means code pair.2 tag := by
  have hpair : ∀ pair : String × String, (¬ ∃ tag, Names pair tag)
      ↔ codeOfName? pair.1 = none ∨ ∃ code,
        codeOfName? pair.1 = some code ∧ ∀ tag, ¬ Means code pair.2 tag := by
    intro pair
    unfold Names
    cases codeOfName? pair.1 <;> simp
  have herror : (∃ failure, ofNamedList pairs = .error failure)
      ↔ ¬ ∃ tags, ofNamedList pairs = .ok tags := by
    cases ofNamedList pairs <;> simp
  have hok : (∃ tags, ofNamedList pairs = .ok tags)
      ↔ ∃ given, List.Forall₂ Names pairs given := by
    simp only [ofNamedList_eq_ok_iff]
    constructor
    · rintro ⟨tags, given, hgiven, -⟩
      exact ⟨given, hgiven⟩
    · rintro ⟨given, hgiven⟩
      exact ⟨_, given, hgiven, rfl⟩
  rw [herror, hok, exists_forall₂_iff]
  simp only [← hpair, not_forall, exists_prop]

-- =================================================================== items

end Tag

/-- The key of the item that holds a number and a total. -/
def Counted.key (kind : Counted) : TagKey := .code kind.code

/-- The entry of a number and a total. The one for tracks has two bytes more
at the end. -/
def Counted.entry : Counted → UInt16 → UInt16 → TagEntry
  | .track, number, total => ⟨.code Tag.Code.track, .implicit,
    Bytes.zeros 2 ++ Bytes.word16 number ++ Bytes.word16 total
      ++ Bytes.zeros 2⟩
  | .disc, number, total => ⟨.code Tag.Code.disc, .implicit,
    Bytes.zeros 2 ++ Bytes.word16 number ++ Bytes.word16 total⟩

namespace Tag

theorem stored?_tag (kind : Counted) (number total : UInt16) :
    (kind.tag number total).stored? = some (kind.entry number total) := by
  cases kind <;> rfl

theorem key_entry (kind : Counted) (number total : UInt16) :
    (kind.entry number total).key = kind.key := by
  cases kind <;> rfl

/-- A tag that counts is stored under the key of what it counts. -/
theorem stored?_of_counted {tag : Tag} {kind : Counted}
    (h : tag.counted? = some kind) :
    tag.stored? = some (kind.entry tag.statedNumber tag.statedTotal) := by
  conv_lhs => rw [counted?_eq_some_iff.mp h]
  exact stored?_tag kind _ _

/-- Names stand for codes of items that have no name of their own and are no
artwork. -/
theorem ne_of_codeOfName? {name : String} {code : FourCC}
    (h : codeOfName? name = some code) :
    code ≠ Code.freeForm ∧ code ≠ Code.artwork := by
  unfold codeOfName? codeOfPlainName? at h
  split at h <;> cases h <;> decide

theorem reading_code (kind : Counted) :
    reading kind.code = .numbered kind := by
  unfold reading
  cases kind with
  | track =>
      rw [if_neg (by decide), if_neg (by decide)]
      exact if_pos rfl
  | disc =>
      rw [if_neg (by decide), if_neg (by decide), if_neg (by decide)]
      exact if_pos rfl

/-- A code that is no bare total names an item of its own. -/
theorem standsAlone_of_reading {code : FourCC} (hfree : code ≠ Code.freeForm)
    (h : ∀ kind, reading code ≠ .total kind) : StandsAlone code := by
  refine ⟨hfree, ?_, ?_⟩
  · intro htotal
    exact h .track (if_pos htotal)
  · rintro rfl
    apply h .disc
    unfold reading
    rw [if_neg (by decide)]
    exact if_pos rfl

/-- A number is stored under the code it was given for. -/
theorem encode_of_reading_number {code : FourCC} {max : Nat}
    {ofNumber : Nat → Tag} (halone : StandsAlone code)
    (h : reading code = .number max ofNumber) (n : Nat) :
    (ofNumber n).counted? = none
      ∧ ∃ type data, data ≠ []
        ∧ (ofNumber n).encode = .ok (entryOf (.code code) type data) := by
  have hbytes : ∀ {data : Bytes}, 0 < data.length → data ≠ [] :=
    List.ne_nil_of_length_pos
  unfold reading at h
  split_ifs at h with h₁ h₂ h₃ h₄ hgenre
  all_goals cases h
  · refine ⟨rfl, .implicit, Bytes.word16 (UInt16.ofNat n), ?_, ?_⟩
    · exact hbytes (by simp)
    · rw [hgenre]
      rfl
  all_goals
    refine ⟨rfl, .integer, _, ?_, keyed_of_standsAlone halone .integer _⟩
    exact hbytes (by simp)

/-- What becomes of the tag of a pair: it counts, or it is an item of its
own, which has a value unless the text is empty. -/
theorem Names.cases {pair : String × String} {tag : Tag}
    (h : Names pair tag) :
    (∃ kind, tag.counted? = some kind ∧ pair.2 ≠ "")
      ∨ tag.counted? = none ∧ ∃ key type data,
          (∀ kind : Counted, key ≠ kind.key)
            ∧ key ≠ .code Code.artwork
            ∧ tag.encode = .ok (entryOf key type data)
            ∧ (data = [] ↔ pair.2 = "") := by
  obtain ⟨code, hcode, hmeans⟩ := h
  obtain ⟨hfree, hartwork⟩ := ne_of_codeOfName? hcode
  have hkey : TagKey.code code ≠ .code Code.artwork :=
    fun h => hartwork (TagKey.code.inj h)
  unfold Means at hmeans
  cases hreading : reading code with
  | total kind =>
      rw [hreading] at hmeans
      obtain ⟨total, hgives, rfl⟩ := hmeans
      exact Or.inl ⟨kind, counted?_tag kind _ _, hgives.ne_empty⟩
  | numbered kind =>
      rw [hreading] at hmeans
      obtain ⟨number, total, hgives, rfl⟩ := hmeans
      exact Or.inl ⟨kind, counted?_tag kind _ _, hgives.ne_empty⟩
  | number max ofNumber =>
      rw [hreading] at hmeans
      obtain ⟨number, hgives, rfl⟩ := hmeans
      have halone := standsAlone_of_reading hfree (by simp [hreading])
      obtain ⟨hcounted, type, data, hdata, hencode⟩ :=
        encode_of_reading_number halone hreading number
      refine Or.inr ⟨hcounted, .code code, type, data, ?_, hkey, hencode,
        iff_of_false hdata hgives.ne_empty⟩
      intro kind hsame
      rw [TagKey.code.inj hsame, reading_code] at hreading
      cases hreading
  | text =>
      rw [hreading] at hmeans
      obtain rfl : tag = .text code pair.2 := hmeans
      have halone := standsAlone_of_reading hfree (by simp [hreading])
      refine Or.inr ⟨rfl, .code code, .utf8, Bytes.ofText pair.2, ?_, hkey,
        ?_, ofText_eq_nil_iff⟩
      · intro kind hsame
        rw [TagKey.code.inj hsame, reading_code] at hreading
        cases hreading
      · exact keyed_of_standsAlone halone .utf8 _

/-- The tag of a pair can be encoded. -/
theorem Names.exists_encode {pair : String × String} {tag : Tag}
    (h : Names pair tag) : ∃ found?, tag.encode = .ok found? := by
  rcases h.cases with ⟨kind, hkind, -⟩ | ⟨-, key, type, data, -, -, hencode, -⟩
  · rw [counted?_eq_some_iff.mp hkind]
    cases kind <;> exact ⟨_, rfl⟩
  · exact ⟨_, hencode⟩

theorem stored?_of_encode {tag : Tag} {found? : Option TagEntry}
    (h : tag.encode = .ok found?) : tag.stored? = found? := by
  unfold stored?
  rw [h]

/-- The tag of a pair stores nothing if the text is empty, and only then. -/
theorem Names.stored?_eq_none_iff {pair : String × String} {tag : Tag}
    (h : Names pair tag) : tag.stored? = none ↔ pair.2 = "" := by
  rcases h.cases with ⟨kind, hkind, hvalue⟩
    | ⟨-, key, type, data, -, -, hencode, hdata⟩
  · rw [stored?_of_counted hkind]
    exact iff_of_false nofun hvalue
  · rw [stored?_of_encode hencode, ← hdata]
    unfold entryOf
    split <;> simp_all

/-- What a pair stores is no artwork, and it is a number and a total only if
the tag counts. -/
theorem Names.key_ne {pair : String × String} {tag : Tag}
    (h : Names pair tag) {entry : TagEntry} (hentry : tag.stored? = some entry) :
    ¬ entry.IsArtwork
      ∧ (tag.counted? = none → ∀ kind : Counted, entry.key ≠ kind.key) := by
  rcases h.cases with ⟨kind, hkind, -⟩
    | ⟨-, key, type, data, hkinds, hartwork, hencode, -⟩
  · rw [stored?_of_counted hkind] at hentry
    cases hentry
    refine ⟨?_, fun hnone => nomatch hnone.symm.trans hkind⟩
    unfold TagEntry.IsArtwork
    rw [key_entry]
    cases kind <;> decide
  · rw [stored?_of_encode hencode] at hentry
    unfold entryOf at hentry
    split at hentry
    · cases hentry
    · cases hentry
      exact ⟨hartwork, fun _ => hkinds⟩

-- ================================================================= merging

/-- A merged tag counts, or it is one that was given. -/
theorem mem_mergeNumbering {tags : List Tag} {tag : Tag}
    (h : tag ∈ mergeNumbering tags) (hnone : tag.counted? = none) :
    tag ∈ tags := by
  rw [mergeNumbering_eq] at h
  have hmem : tag ∈ (Slots.slots counted? merge tags).filter
      fun tag => tag.counted? = none :=
    List.mem_filter.mpr ⟨h, decide_eq_true hnone⟩
  rw [Slots.filter_none_slots keepsKey_merge] at hmem
  exact (List.mem_filter.mp hmem).1

/-- The key under which a tag stores something. -/
def storedKey? (tag : Tag) : Option TagKey := tag.stored?.map TagEntry.key

theorem storedKey?_of_counted {tag : Tag} {kind : Counted}
    (h : tag.counted? = some kind) : tag.storedKey? = some kind.key := by
  unfold storedKey?
  rw [stored?_of_counted h, Option.map_some, key_entry]

theorem map_key_stored (tags : List Tag) :
    (tags.filterMap stored?).map TagEntry.key
      = tags.filterMap storedKey? := by
  rw [List.map_filterMap]
  rfl

/-- With numbers merged, keys come first in the same order. -/
theorem map_key_leading_merged (tags : List Tag) :
    (leading ((mergeNumbering tags).filterMap stored?)).map TagEntry.key
      = (leading (tags.filterMap stored?)).map TagEntry.key := by
  have hkeys : ∀ entries : List TagEntry,
      (leading entries).map TagEntry.key
        = Slots.firsts TagKey.slot? (entries.map TagEntry.key) :=
    fun entries => (Slots.firsts_map (fun _ => rfl) entries).symm
  have hgather : ∀ tag, (Slots.gather counted? merge tags tag).storedKey?
      = tag.storedKey? := by
    intro tag
    have hkind := Slots.key_gather keepsKey_merge tags tag
    cases hcounted : tag.counted? with
    | none => rw [Slots.gather_of_none hcounted]
    | some kind =>
        rw [storedKey?_of_counted hcounted,
          storedKey?_of_counted (hkind.trans hcounted)]
  rw [hkeys, hkeys, map_key_stored, map_key_stored, mergeNumbering_eq]
  unfold Slots.slots
  rw [List.filterMap_map]
  simp only [Function.comp_def, hgather]
  apply Slots.firsts_filterMap_firsts
  · intro tag other hsome hsame
    obtain ⟨kind, hkind⟩ := Option.ne_none_iff_exists'.mp hsome
    rw [storedKey?_of_counted hkind,
      storedKey?_of_counted (hsame.symm.trans hkind)]
  · intro tag key hsome hkey
    obtain ⟨kind, hkind⟩ := Option.ne_none_iff_exists'.mp hsome
    rw [storedKey?_of_counted hkind] at hkey
    cases hkey
    cases kind <;> decide

theorem key_injective {kind other : Counted} (h : kind.key = other.key) :
    kind = other := by
  cases kind <;> cases other <;> first | rfl | exact absurd h (by decide)

/-- An item that counts nothing is found in tags that count nothing. -/
theorem filter_key_of_free {key : TagKey}
    (hkey : ∀ kind : Counted, key ≠ kind.key) (tags : List Tag) :
    (tags.filterMap stored?).filter (fun entry => entry.key = key)
      = ((tags.filter fun tag => tag.counted? = none).filterMap
          stored?).filter fun entry => entry.key = key := by
  rw [List.filter_filterMap, List.filter_filterMap, List.filterMap_filter]
  apply List.filterMap_congr
  intro tag _
  cases hcounted : tag.counted? with
  | none => simp
  | some kind =>
      simp [stored?_of_counted hcounted, key_entry, (hkey kind).symm]

/-- The item of a number and a total is found in tags that count. -/
theorem filter_key_of_kind {kind : Counted} {tags : List Tag}
    (hfree : ∀ tag ∈ tags, tag.counted? = none →
      ∀ entry, tag.stored? = some entry → entry.key ≠ kind.key) :
    (tags.filterMap stored?).filter (fun entry => entry.key = kind.key)
      = (Slots.withKey counted? kind tags).filterMap stored? := by
  unfold Slots.withKey
  rw [List.filter_filterMap, List.filterMap_filter]
  apply List.filterMap_congr
  intro tag htag
  cases hcounted : tag.counted? with
  | none =>
      cases hstored : tag.stored? with
      | none => simp
      | some entry => simp [hfree tag htag hcounted entry hstored]
  | some other =>
      rw [stored?_of_counted hcounted]
      by_cases hsame : other = kind
      · simp [hsame, key_entry]
      · simp [hsame, key_entry, mt key_injective hsame]

end Tag

namespace TagTable

open Tag (Names counted? numbers? mergeNumbering)

/-- Tags that can be encoded are all taken. -/
theorem foldlM_add {tags : List Tag}
    (h : ∀ tag ∈ tags, ∃ found?, tag.encode = .ok found?)
    (table : TagTable) :
    tags.foldlM (fun table tag => table.add tag) table
      = .ok (tags.foldl attempt table) := by
  induction tags generalizing table with
  | nil => rfl
  | cons tag tags ih =>
      obtain ⟨found?, hencode⟩ := h tag List.mem_cons_self
      have hadd := add_of_encode hencode table
      have hattempt : table.attempt tag = found?.elim table table.insert := by
        rw [attempt_eq, Tag.stored?_of_encode hencode]
      rw [List.foldlM_cons, hadd, List.foldl_cons, hattempt]
      exact ih (fun other hother =>
        h other (List.mem_cons_of_mem _ hother)) _

section
variable {pairs : List (String × String)} {given : List Tag}

theorem exists_pair (h : List.Forall₂ Names pairs given) {tag : Tag}
    (htag : tag ∈ given) : ∃ pair, Names pair tag := by
  induction h with
  | nil => cases htag
  | cons hfirst _ ih =>
      rcases List.mem_cons.mp htag with rfl | hrest
      · exact ⟨_, hfirst⟩
      · exact ih hrest

theorem exists_encode_merged (h : List.Forall₂ Names pairs given) :
    ∀ tag ∈ mergeNumbering given, ∃ found?, tag.encode = .ok found? := by
  intro tag htag
  cases hcounted : tag.counted? with
  | none =>
      obtain ⟨pair, hpair⟩ :=
        exists_pair h (Tag.mem_mergeNumbering htag hcounted)
      exact hpair.exists_encode
  | some kind =>
      rw [Tag.counted?_eq_some_iff.mp hcounted]
      cases kind <;> exact ⟨_, rfl⟩

/-- The keys of a table of merged tags stand where the first pair put
them. -/
theorem map_key_addAll_merged (given : List Tag) :
    (addAll (mergeNumbering given)).entries.map TagEntry.key
      = (leading (given.filterMap Tag.stored?)).map TagEntry.key := by
  rw [addAll_eq, map_key_insertAll, Tag.map_key_leading_merged]

/-- In a table of merged tags there is one item for all numbers of a
kind. -/
theorem filter_kind_addAll_merged (h : List.Forall₂ Names pairs given)
    (kind : Counted) :
    (addAll (mergeNumbering given)).entries.filter
        (fun entry => entry.key = kind.key)
      = ((numbers? kind given).map fun (number, total) =>
          kind.entry number total).toList := by
  have hartwork : kind.key ≠ .code Tag.Code.artwork := by
    cases kind <;> decide
  have hfree : ∀ tag ∈ mergeNumbering given, tag.counted? = none →
      ∀ entry, tag.stored? = some entry → entry.key ≠ kind.key := by
    intro tag htag hnone entry hentry
    obtain ⟨pair, hpair⟩ :=
      exists_pair h (Tag.mem_mergeNumbering htag hnone)
    exact (hpair.key_ne hentry).2 hnone kind
  rw [addAll_eq, filter_key_insertAll hartwork,
    Tag.filter_key_of_kind hfree, Tag.mergeNumbering_eq,
    Slots.withKey_slots Tag.keepsKey_merge, Tag.mergeAll_merge]
  cases numbers? kind given with
  | none => rfl
  | some pair =>
      obtain ⟨number, total⟩ := pair
      simp [Tag.stored?_tag]

/-- Under any other key there is what its last pair stored. -/
theorem filter_key_addAll_merged (h : List.Forall₂ Names pairs given)
    {key : TagKey} (hkey : ∀ kind : Counted, key ≠ kind.key) :
    (addAll (mergeNumbering given)).entries.filter
        (fun entry => entry.key = key)
      = ((given.filterMap Tag.stored?).filter fun entry =>
          entry.key = key).getLast?.toList := by
  have hstored : ((mergeNumbering given).filterMap Tag.stored?).filter
        (fun entry => entry.key = key)
      = (given.filterMap Tag.stored?).filter fun entry =>
          entry.key = key := by
    rw [Tag.filter_key_of_free hkey, Tag.mergeNumbering_eq,
      Slots.filter_none_slots Tag.keepsKey_merge,
      ← Tag.filter_key_of_free hkey]
  rw [addAll_eq]
  by_cases hartwork : key = .code Tag.Code.artwork
  · -- No pair stores artwork, so there is none on either side.
    have hnone : (given.filterMap Tag.stored?).filter
        (fun entry => entry.key = key) = [] := by
      apply List.filter_eq_nil_iff.mpr
      intro entry hentry
      obtain ⟨tag, htag, hof⟩ := List.mem_filterMap.mp hentry
      obtain ⟨pair, hpair⟩ := exists_pair h htag
      rw [hartwork, decide_eq_true_iff]
      exact (hpair.key_ne hof).1
    rw [hnone] at hstored ⊢
    rw [hartwork] at hstored ⊢
    exact (filter_isArtwork_insertAll _).trans hstored
  · rw [filter_key_insertAll hartwork, hstored]

end

-- ================================================================== result

/-- A list of names and texts is refused exactly if some name is unknown or
some text means nothing for its item. The tags of any other list can all be
added to an empty table. Then the keys stand in the order in which the pairs
first stored something under them. There is one item for tracks if some pair
is about them, and one for discs, and its number and total are each the last
one given that is not zero. Any other item holds what its last pair stored,
where a pair with an empty text, and no other, stores nothing. And no total
is an item of its own. -/
theorem ofNamedList_table (pairs : List (String × String)) :
    ((∃ failure, Tag.ofNamedList pairs = .error failure)
      ↔ ∃ pair ∈ pairs, Tag.codeOfName? pair.1 = none
        ∨ ∃ code, Tag.codeOfName? pair.1 = some code
          ∧ ∀ tag, ¬ Tag.Means code pair.2 tag)
    ∧ ∀ given, List.Forall₂ Names pairs given →
      ∃ tags table, Tag.ofNamedList pairs = .ok tags
        ∧ tags.foldlM (fun table tag => table.add tag) empty = .ok table
        ∧ table.entries.map TagEntry.key
          = (leading (given.filterMap Tag.stored?)).map TagEntry.key
        ∧ (∀ kind : Counted,
          table.entries.filter (fun entry => entry.key = kind.key)
            = ((numbers? kind given).map fun (number, total) =>
                kind.entry number total).toList)
        ∧ (∀ key, (∀ kind : Counted, key ≠ kind.key) →
          table.entries.filter (fun entry => entry.key = key)
            = ((given.filterMap Tag.stored?).filter fun entry =>
                entry.key = key).getLast?.toList)
        ∧ List.Forall₂ (fun pair tag => tag.stored? = none ↔ pair.2 = "")
          pairs given
        ∧ ∀ entry ∈ table.entries, entry.key ≠ .code Tag.Code.trackTotal
          ∧ entry.key ≠ .code Tag.Code.discTotal := by
  refine ⟨Tag.ofNamedList_eq_error_iff, fun given hgiven => ?_⟩
  refine ⟨mergeNumbering given, addAll (mergeNumbering given),
    Tag.ofNamedList_eq_ok_iff.mpr ⟨given, hgiven, rfl⟩,
    foldlM_add (exists_encode_merged hgiven) empty,
    map_key_addAll_merged given, filter_kind_addAll_merged hgiven,
    fun key hkey => filter_key_addAll_merged hgiven hkey,
    hgiven.imp fun _ _ hnames => hnames.stored?_eq_none_iff, ?_⟩
  intro entry hentry
  have hproper := (proper_addAll hentry).key
  constructor <;> rintro hkey <;> rw [hkey] at hproper
  · exact hproper.2.1 rfl
  · exact hproper.2.2 rfl

/-- Pairs as they come from several places: numbers in parts, an artist who
is named again, and texts without a value. -/
def somePairs : List (String × String) :=
  [("Track", "3"), ("artist", "A"), ("totaltracks", "12"),
    ("disc_number", "1 / 2"), ("Year", ""), ("TRACKNUMBER", "0/9"),
    ("Artist", "B"), ("bpm", " +120 "), ("artist", "")]

/-- What the pairs stand for one by one. -/
def someGiven : List Tag :=
  [.track 3 0, .text Tag.Code.artist "A", .track 0 12, .disc 1 2,
    .text Tag.Code.date "", .track 0 9, .text Tag.Code.artist "B",
    .int16 Tag.Code.tempo 120, .text Tag.Code.artist ""]

theorem ofNamedList_table_somePairs :
    List.Forall₂ Names somePairs someGiven
      ∧ ∃ tags table, Tag.ofNamedList somePairs = .ok tags
        ∧ tags.foldlM (fun table tag => table.add tag) empty = .ok table
        ∧ table.entries.map TagEntry.key
          = [.code Tag.Code.track, .code Tag.Code.artist,
              .code Tag.Code.disc, .code Tag.Code.tempo]
        ∧ table.entries.filter
            (fun entry => entry.key = .code Tag.Code.track)
          = [Counted.track.entry 3 9]
        ∧ table.entries.filter
            (fun entry => entry.key = .code Tag.Code.artist)
          = [⟨.code Tag.Code.artist, .utf8, [0x42]⟩] := by
  have hread : somePairs.mapM (fun pair => Tag.ofNamed pair.1 pair.2)
      = .ok someGiven := rfl
  have hgiven : List.Forall₂ Names somePairs someGiven :=
    (mapM_eq_ok_iff.mp hread).imp fun _ _ => Tag.ofNamed_eq_ok_iff.mp
  obtain ⟨tags, table, htags, hadd, hkeys, hkinds, hothers, -, -⟩ :=
    (ofNamedList_table somePairs).2 someGiven hgiven
  refine ⟨hgiven, tags, table, htags, hadd, hkeys.trans ?_,
    (hkinds .track).trans ?_, (hothers _ ?_).trans ?_⟩
  · decide +kernel
  · decide +kernel
  · intro kind
    cases kind <;> decide
  · decide +kernel

end TagTable

end AudioMux

/-
Reading edit lists back.

The format gives each edit a rate of its own, right behind its start. A
list has one rate, and writes it once, behind the last edit. A reader of
the format takes the same number of bytes for every edit that the list
counts, so the bytes that were written come out even for one count only: the
reader gets to the end of the list, with every edit and its rate, if there
is one edit and not otherwise (`reads_editEntries_iff`).
-/
import AudioMux.Proofs.Box.Decode.Headers

namespace AudioMux.Box

open Reader

-- ================================================================= lengths

section
variable {α β : Type} {reader : Reader α} {next : α → Reader β} {m n : Nat}

/-- The reader takes so many bytes off the front, if it gets that far. -/
def Spans (reader : Reader α) (n : Nat) : Prop :=
  ∀ bytes a rest, reader bytes = some (a, rest) →
    bytes.length = n + rest.length

theorem spans_pure (a : α) : Spans (pure a) 0 := by
  rintro bytes _ rest ⟨⟩
  exact (Nat.zero_add _).symm

theorem Spans.bind (h : Spans reader n) (hnext : ∀ a, Spans (next a) m) :
    Spans (reader >>= next) (n + m) := by
  intro bytes b rest hread
  obtain ⟨⟨a, more⟩, hfirst, hsecond⟩ := Option.bind_eq_some_iff.mp hread
  have hlength := h bytes a more hfirst
  have hrest := hnext a more b rest hsecond
  omega

theorem Spans.map (h : Spans reader n) (f : α → β) :
    Spans (reader >>= fun a => pure (f a)) n :=
  h.bind fun a => spans_pure (f a)

theorem spans_number (width : Nat) : Spans (number width) width := by
  intro bytes a rest hread
  unfold number readNumber? at hread
  split at hread
  · cases hread
    rw [List.length_drop]
    omega
  · cases hread

/-- Entries of one length make up a multiple of it. -/
theorem length_of_readEntries? (h : Spans reader n) {count : Nat}
    {bytes : Bytes} {entries : List α}
    (hread : readEntries? reader count bytes = some entries) :
    bytes.length = count * n := by
  induction count generalizing bytes entries with
  | zero =>
      unfold readEntries? at hread
      split at hread
      · next hempty =>
        rw [List.isEmpty_iff.mp hempty, Nat.zero_mul]
        rfl
      · cases hread
  | succ count ih =>
      unfold readEntries? at hread
      obtain ⟨⟨entry, rest⟩, hentry, hmore⟩ :=
        Option.bind_eq_some_iff.mp hread
      obtain ⟨entries, hrest, -⟩ := Option.bind_eq_some_iff.mp hmore
      have hlength := h bytes entry rest hentry
      rw [hlength, ih hrest, Nat.succ_mul, Nat.add_comm]

end

-- =============================================================== an edit

/-- An edit, and the rate to play it at. -/
def Edit.reader (width : Nat) : Reader (Edit × Int16 × Int16) := do
  let duration ← time width
  let mediaTime ← signed width
  let rateInteger ← int16
  let rateFraction ← int16
  pure (⟨duration, mediaTime⟩, rateInteger, rateFraction)

theorem spans_edit (width : Nat) :
    Spans (Edit.reader width) (2 * width + 4) := by
  have hint16 : Spans int16 2 := ((spans_number 2).map _).map _
  have hspans : Spans (Edit.reader width) (width + (width + (2 + 2))) := by
    refine ((spans_number width).map _).bind fun duration => ?_
    refine ((spans_number width).map _).bind fun mediaTime => ?_
    exact hint16.bind fun rateInteger => hint16.map _
  have hlength : width + (width + (2 + 2)) = 2 * width + 4 := by omega
  exact hlength ▸ hspans

theorem width_editList (box : EditList) (flags : UInt32) :
    VersionFlags.width ⟨widthVersion box.width, flags⟩ = box.width := by
  unfold EditList.width
  split <;> rfl

theorem editList_width_cases (box : EditList) :
    box.width = 4 ∨ box.width = 8 := by
  unfold EditList.width
  split
  · exact Or.inr rfl
  · exact Or.inl rfl

/-- An edit fits the width that is chosen for the list. -/
theorem takes_edit {box : EditList} {edit : Edit} (h : edit ∈ box.edits) :
    Takes (Edit.reader box.width)
      (edit.encode box.width ++ Bytes.word16 box.rateInteger.toUInt16 ++
        Bytes.word16 box.rateFraction.toUInt16)
      (edit, box.rateInteger, box.rateFraction) := by
  have hfits : edit.duration.toNat < 256 ^ box.width
      ∧ -256 ^ box.width ≤ 2 * edit.mediaTime.toInt
      ∧ 2 * edit.mediaTime.toInt < 256 ^ box.width := by
    unfold EditList.width
    split
    · have hduration := edit.duration.toNat_lt
      have hlo := edit.mediaTime.le_toInt
      have hhi := edit.mediaTime.toInt_lt
      omega
    · next hnarrow =>
      have hwide : ¬ (maxWord32 < edit.duration.toNat ∨
          edit.mediaTime.toInt < -0x80000000 ∨
            0x7fffffff < edit.mediaTime.toInt) := by
        refine fun hedit => hnarrow (List.any_eq_true.mpr ⟨edit, h, ?_⟩)
        simpa [or_assoc] using hedit
      unfold maxWord32 at hwide
      omega
  obtain ⟨hduration, hlo, hhi⟩ := hfits
  simp only [Edit.encode, List.append_assoc]
  refine (takes_time hduration).bind ?_
  refine (takes_signed (editList_width_cases box) hlo hhi).bind ?_
  refine (takes_int16 _).bind ?_
  exact (takes_int16 _).map

-- ================================================================ entries

/-- What the format has in a list: each edit with a rate. -/
def EditList.entriesReader : Reader (List (Edit × Int16 × Int16)) := do
  let full ← versionFlags
  table (Edit.reader full.width)

/-- The edits of a list, each with the rate of the list. -/
def EditList.entries (box : EditList) : List (Edit × Int16 × Int16) :=
  box.edits.map fun edit => (edit, box.rateInteger, box.rateFraction)

/-- What is written of the edits, and of the rate behind them. -/
def EditList.tail (box : EditList) : Bytes :=
  box.edits.flatMap (Edit.encode box.width) ++
    (Bytes.word16 box.rateInteger.toUInt16 ++
      Bytes.word16 box.rateFraction.toUInt16)

theorem length_tail (box : EditList) :
    box.tail.length = 2 * box.width * box.edits.length + 4 := by
  have hcounted :=
    length_countedList (length_edit box.width) box.edits
  unfold countedList at hcounted
  rw [List.length_append, Bytes.length_bigEndian] at hcounted
  unfold EditList.tail
  simp only [List.length_append, Bytes.length_word16]
  omega

/-- The reader finds the count, and takes the edits that it counts from all
that is behind it. -/
theorem reads_entries_iff_tail {box : EditList}
    {entries : List (Edit × Int16 × Int16)} :
    Reads EditList.entriesReader (content box) entries
      ↔ readEntries? (Edit.reader box.width) (box.edits.length % 256 ^ 4)
        box.tail = some entries := by
  have hcontent : content box
      = (VersionFlags.mk (widthVersion box.width) 0).encode ++
        (Bytes.bigEndian 4 box.edits.length ++ box.tail) := by
    simp only [content, Format.full?, Format.body, Option.elim, countedList,
      EditList.tail, List.append_assoc]
  have hversion : Takes versionFlags
      (VersionFlags.mk (widthVersion box.width) 0).encode
      ⟨widthVersion box.width, 0⟩ := takes_versionFlags (by decide)
  unfold EditList.entriesReader
  rw [hcontent, hversion.bind_reads_iff, width_editList]
  unfold Reads table readTable?
  rw [readNumber?_bigEndian, Option.bind_eq_bind, Option.bind_some]
  simp

/-- One edit with the rate behind it is a list of one edit with a rate. -/
theorem reads_entries_one {box : EditList} {edit : Edit}
    (h : box.edits = [edit]) :
    Reads EditList.entriesReader (content box) box.entries := by
  have hmem : edit ∈ box.edits := h ▸ List.mem_singleton_self edit
  have hentry := (takes_edit hmem).reads
  have htail : box.tail = edit.encode box.width ++
      Bytes.word16 box.rateInteger.toUInt16 ++
      Bytes.word16 box.rateFraction.toUInt16 := by
    simp [EditList.tail, h]
  have hcount : box.edits.length % 256 ^ 4 = 1 := by
    rw [h]
    rfl
  unfold Reads at hentry
  rw [reads_entries_iff_tail, hcount, htail]
  unfold readEntries?
  rw [hentry]
  simp [EditList.entries, h, readEntries?]

/-- A count of edits that comes out even over the bytes of a list is one,
and counts all of them. -/
theorem eq_one_of_length_tail {box : EditList} {count : Nat}
    (hcount : count = box.edits.length % 256 ^ 4)
    (h : box.tail.length = count * (2 * box.width + 4)) :
    box.edits.length = 1 := by
  have hlength := length_tail box
  rcases editList_width_cases box with hwidth | hwidth
  all_goals
    rw [hwidth] at h hlength
    omega

/-- A reader of the format gets to the end of a list if there is one edit in
it, and not otherwise. It finds the edits, and the rate for each. -/
theorem reads_editEntries_iff {box : EditList}
    {entries : List (Edit × Int16 × Int16)} :
    Reads EditList.entriesReader (content box) entries
      ↔ box.edits.length = 1 ∧ entries = box.entries := by
  constructor
  · intro h
    have hread := reads_entries_iff_tail.mp h
    have hlength := eq_one_of_length_tail rfl
      (length_of_readEntries? (spans_edit box.width) hread)
    obtain ⟨edit, hedits⟩ := List.length_eq_one_iff.mp hlength
    cases h.symm.trans (reads_entries_one hedits)
    exact ⟨hlength, rfl⟩
  · rintro ⟨hlength, rfl⟩
    obtain ⟨edit, hedits⟩ := List.length_eq_one_iff.mp hlength
    exact reads_entries_one hedits

/-- Two edits that share a rate. -/
def EditList.pair : EditList := ⟨[⟨1, 0⟩, ⟨2, 0⟩], 1, 0⟩

/-- Behind the second edit there are too few bytes for both rates. -/
theorem editEntries_pair_unread :
    ¬ Reads EditList.entriesReader (content EditList.pair)
      EditList.pair.entries := by
  unfold Reads
  decide

-- ==================================================================== box

/-- A list with one rate for all is known of a single edit only. -/
def EditList.reader : Reader EditList := do
  let full ← versionFlags
  match ← table (Edit.reader full.width) with
  | [(edit, rateInteger, rateFraction)] =>
    pure ⟨[edit], rateInteger, rateFraction⟩
  | _ => failure

theorem reads_editList {box : EditList} (h : box.edits.length = 1) :
    Reads EditList.reader (content box) box := by
  obtain ⟨edit, hedits⟩ := List.length_eq_one_iff.mp h
  have hreader : EditList.reader
      = EditList.entriesReader >>= fun entries => match entries with
        | [(edit, rateInteger, rateFraction)] =>
          pure ⟨[edit], rateInteger, rateFraction⟩
        | _ => failure := by
    unfold EditList.reader EditList.entriesReader
    rw [bind_assoc]
  rw [hreader]
  refine (reads_entries_one hedits).bind ?_
  unfold EditList.entries
  rw [hedits]
  show Reads (pure (EditList.mk [edit] box.rateInteger box.rateFraction)) []
    box
  rw [← hedits]
  exact (takes_pure box).reads

def EditBox.reader : Reader EditBox :=
  boxes fun parts => do
    let editList ← child (.ofChars 'e' 'l' 's' 't') EditList.reader parts
    pure ⟨editList⟩

/-- There is one edit. -/
def EditBox.Lossless (box : EditBox) : Prop :=
  box.editList.edits.length = 1

instance EditBox.decidableLossless (box : EditBox) :
    Decidable box.Lossless :=
  inferInstanceAs (Decidable (_ = _))

theorem walk_editBox {box : EditBox} (h : Format.size box ≤ maxWord32) :
    walk (content box) = some [Part.of box.editList] := by
  have hsize : Format.size box = 8 + Format.size box.editList := rfl
  exact walk_encode_self (by omega)

theorem reads_editBox {box : EditBox} (hsize : Format.size box ≤ maxWord32)
    (h : box.Lossless) : Reads EditBox.reader (content box) box := by
  refine reads_boxes (walk_editBox hsize) ?_
  rw [child_of rfl (reads_editList h)]
  rfl

end AudioMux.Box

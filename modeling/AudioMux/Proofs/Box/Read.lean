/-
Reading the tables of a track: a reader that takes the content of a box
apart field by field, as the format lays it out, and knows nothing of how
it was written.

A reader of a field takes what it needs off the front and gives the rest.
The law of each is that it takes off what was written, whatever follows.
Counted tables are read entry by entry (`readTable?_countedList`), and
nothing may be left behind the last one.
-/
import AudioMux.Proofs.Box.Walk

namespace AudioMux.Box

-- ================================================================== fields

/-- A big-endian number of `width` bytes. -/
def readNumber? (width : Nat) (bytes : Bytes) : Option (Nat × Bytes) :=
  if width ≤ bytes.length then
    some (Bytes.toNat (bytes.take width), bytes.drop width)
  else none

/-- The version of a full box. The flags behind it are skipped. -/
def readVersion? (bytes : Bytes) : Option (Nat × Bytes) := do
  let (version, bytes) ← readNumber? 1 bytes
  let (_, bytes) ← readNumber? 3 bytes
  pure (version, bytes)

/-- A number is taken off reduced to its width. -/
theorem readNumber?_bigEndian (width n : Nat) (rest : Bytes) :
    readNumber? width (Bytes.bigEndian width n ++ rest)
      = some (n % 256 ^ width, rest) := by
  have hlength := Bytes.length_bigEndian width n
  unfold readNumber?
  rw [if_pos (by rw [List.length_append]; omega), List.take_left' hlength,
    List.drop_left' hlength, Bytes.toNat_bigEndian]
  rfl

theorem readNumber?_word32 (n : UInt32) (rest : Bytes) :
    readNumber? 4 (Bytes.word32 n ++ rest) = some (n.toNat, rest) := by
  have hlt : n.toNat < 256 ^ 4 := n.toNat_lt
  unfold Bytes.word32
  rw [readNumber?_bigEndian, Nat.mod_eq_of_lt hlt]

theorem readNumber?_word64 (n : UInt64) (rest : Bytes) :
    readNumber? 8 (Bytes.word64 n ++ rest) = some (n.toNat, rest) := by
  have hlt : n.toNat < 256 ^ 8 := n.toNat_lt
  unfold Bytes.word64
  rw [readNumber?_bigEndian, Nat.mod_eq_of_lt hlt]

theorem readVersion?_encode (full : VersionFlags) (rest : Bytes) :
    readVersion? (full.encode ++ rest)
      = some (full.version.toNat, rest) := by
  have hversion : readNumber? 1 (full.encode ++ rest)
      = some (full.version.toNat,
          Bytes.bigEndian 3 full.flags.toNat ++ rest) := by
    unfold readNumber? VersionFlags.encode
    rw [if_pos (by simp)]
    simp [Bytes.toNat]
  unfold readVersion?
  rw [hversion, Option.bind_eq_bind, Option.bind_some]
  dsimp only
  rw [readNumber?_bigEndian]
  rfl

-- ================================================================== tables

/-- So many entries, and nothing behind them. -/
def readEntries? {α : Type} (readItem? : Bytes → Option (α × Bytes)) :
    Nat → Bytes → Option (List α)
  | 0, bytes => if bytes.isEmpty then some [] else none
  | count + 1, bytes => do
    let (entry, bytes) ← readItem? bytes
    let entries ← readEntries? readItem? count bytes
    pure (entry :: entries)

/-- The count of a table and its entries. -/
def readTable? {α : Type} (readItem? : Bytes → Option (α × Bytes))
    (bytes : Bytes) : Option (List α) := do
  let (count, bytes) ← readNumber? 4 bytes
  readEntries? readItem? count bytes

section
variable {α β : Type} {readItem? : Bytes → Option (β × Bytes)}
  {entry : α → Bytes} {value : α → β}

theorem readEntries?_flatMap
    (h : ∀ a rest, readItem? (entry a ++ rest) = some (value a, rest))
    (entries : List α) :
    readEntries? readItem? entries.length (entries.flatMap entry)
      = some (entries.map value) := by
  induction entries with
  | nil => rfl
  | cons a entries ih =>
      rw [List.length_cons, List.flatMap_cons]
      unfold readEntries?
      rw [h, Option.bind_eq_bind, Option.bind_some]
      dsimp only
      rw [ih]
      rfl

/-- A counted list is read back, as long as its length fits the
count. -/
theorem readTable?_countedList
    (h : ∀ a rest, readItem? (entry a ++ rest) = some (value a, rest))
    {entries : List α} (hcount : entries.length ≤ maxWord32) :
    readTable? readItem? (countedList entry entries)
      = some (entries.map value) := by
  have hlt : entries.length < 256 ^ 4 := by
    unfold maxWord32 at hcount
    omega
  unfold readTable? countedList
  rw [readNumber?_bigEndian, Option.bind_eq_bind, Option.bind_some]
  dsimp only
  rw [Nat.mod_eq_of_lt hlt]
  exact readEntries?_flatMap h entries

end

-- =================================================================== boxes

/-- How many samples last how long. -/
def readTimeRun? (bytes : Bytes) : Option ((Nat × Nat) × Bytes) := do
  let (count, bytes) ← readNumber? 4 bytes
  let (delta, bytes) ← readNumber? 4 bytes
  pure ((count, delta), bytes)

/-- From which chunk on chunks have how many samples. -/
def readChunkRun? (bytes : Bytes) : Option ((Nat × Nat) × Bytes) := do
  let (firstChunk, bytes) ← readNumber? 4 bytes
  let (samplesPerChunk, bytes) ← readNumber? 4 bytes
  let (_, bytes) ← readNumber? 4 bytes
  pure ((firstChunk, samplesPerChunk), bytes)

/-- The entries of a full box that consists of a table. -/
def readFullTable? {α : Type} (readItem? : Bytes → Option (α × Bytes))
    (content : Bytes) : Option (List α) := do
  let (_, bytes) ← readVersion? content
  readTable? readItem? bytes

/-- The sizes of samples. A size in front that is not zero is that of all
of them. -/
def readSizes? (content : Bytes) : Option (List Nat) := do
  let (_, bytes) ← readVersion? content
  let (size, bytes) ← readNumber? 4 bytes
  if size = 0 then readTable? (readNumber? 4) bytes
  else
    let (count, _) ← readNumber? 4 bytes
    pure (List.replicate count size)

/-- The duration that a media header gives. Its times have 64 bits in
version 1. -/
def readDuration? (content : Bytes) : Option Nat := do
  let (version, bytes) ← readVersion? content
  let width := if version = 1 then 8 else 4
  let (_, bytes) ← readNumber? width bytes
  let (_, bytes) ← readNumber? width bytes
  let (_, bytes) ← readNumber? 4 bytes
  let (duration, _) ← readNumber? width bytes
  pure duration

theorem readFullTable?_countedList {α β : Type}
    {readItem? : Bytes → Option (β × Bytes)} {entry : α → Bytes}
    {value : α → β}
    (h : ∀ a rest, readItem? (entry a ++ rest) = some (value a, rest))
    (full : VersionFlags) {entries : List α}
    (hcount : entries.length ≤ maxWord32) :
    readFullTable? readItem? (full.encode ++ countedList entry entries)
      = some (entries.map value) := by
  unfold readFullTable?
  rw [readVersion?_encode, Option.bind_eq_bind, Option.bind_some]
  exact readTable?_countedList h hcount

/-- Durations are read back as they were written. -/
theorem read_timeToSample {box : TimeToSample}
    (h : Format.size box ≤ maxWord32) :
    readFullTable? readTimeRun? (content box)
      = some (box.runs.map fun run =>
          (run.count.toNat, run.delta.toNat)) := by
  have hcount : box.runs.length ≤ maxWord32 := by
    have hsize : Format.size box = 12 + 4 + 8 * box.runs.length := rfl
    omega
  refine readFullTable?_countedList (fun run rest => ?_) _ hcount
  simp only [readTimeRun?, List.append_assoc, readNumber?_word32,
    Option.bind_eq_bind, Option.bind_some, Option.pure_def]

theorem read_sampleToChunk {box : SampleToChunk}
    (h : Format.size box ≤ maxWord32) :
    readFullTable? readChunkRun? (content box)
      = some (box.runs.map fun run =>
          (run.firstChunk.toNat, run.samplesPerChunk.toNat)) := by
  have hcount : box.runs.length ≤ maxWord32 := by
    have hsize : Format.size box = 12 + 4 + 12 * box.runs.length := rfl
    omega
  refine readFullTable?_countedList (fun run rest => ?_) _ hcount
  simp only [readChunkRun?, List.append_assoc, readNumber?_word32,
    Option.bind_eq_bind, Option.bind_some, Option.pure_def]

theorem read_sampleSizes {box : SampleSizes}
    (h : Format.size box ≤ maxWord32) :
    readSizes? (content box)
      = some (box.sizes.map UInt32.toNat) := by
  have hcount : box.sizes.length ≤ maxWord32 := by
    have hsize : Format.size box = 12 + 4 + 4 + 4 * box.sizes.length := rfl
    omega
  have hzero : ∀ rest, readNumber? 4 (Bytes.zeros 4 ++ rest)
      = some (0, rest) := readNumber?_bigEndian 4 0
  have hcontent : content box = VersionFlags.plain.encode ++
      (Bytes.zeros 4 ++ countedList Bytes.word32 box.sizes) := rfl
  unfold readSizes?
  simp only [hcontent, readVersion?_encode, hzero, Option.bind_eq_bind,
    Option.bind_some, if_true]
  exact readTable?_countedList readNumber?_word32 hcount

/-- The offsets as a reader is to find them. -/
def ChunkOffsets.toList : ChunkOffsets → List Nat
  | .narrow offsets => offsets.map UInt32.toNat
  | .wide offsets => offsets.map UInt64.toNat

/-- An offset takes up 4 bytes at least. -/
theorem length_offsets_le (offsets : ChunkOffsets) :
    16 + 4 * offsets.toList.length ≤ Format.size offsets := by
  cases offsets with
  | narrow offsets =>
      have hcount : (offsets.map UInt32.toNat).length = offsets.length :=
        List.length_map _
      show 16 + 4 * (offsets.map UInt32.toNat).length
        ≤ 12 + 4 + 4 * offsets.length
      omega
  | wide offsets =>
      have hcount : (offsets.map UInt64.toNat).length = offsets.length :=
        List.length_map _
      show 16 + 4 * (offsets.map UInt64.toNat).length
        ≤ 12 + 4 + 8 * offsets.length
      omega

theorem read_narrowOffsets {offsets : List UInt32}
    (h : Format.size (ChunkOffsets.narrow offsets) ≤ maxWord32) :
    readFullTable? (readNumber? 4) (content (ChunkOffsets.narrow offsets))
      = some (offsets.map UInt32.toNat) := by
  have hcount : offsets.length ≤ maxWord32 := by
    have hsize : Format.size (ChunkOffsets.narrow offsets)
        = 12 + 4 + 4 * offsets.length := rfl
    omega
  exact readFullTable?_countedList readNumber?_word32 _ hcount

theorem read_wideOffsets {offsets : List UInt64}
    (h : Format.size (ChunkOffsets.wide offsets) ≤ maxWord32) :
    readFullTable? (readNumber? 8) (content (ChunkOffsets.wide offsets))
      = some (offsets.map UInt64.toNat) := by
  have hcount : offsets.length ≤ maxWord32 := by
    have hsize : Format.size (ChunkOffsets.wide offsets)
        = 12 + 4 + 8 * offsets.length := rfl
    omega
  exact readFullTable?_countedList readNumber?_word64 _ hcount

/-- Each value fits the width that is chosen for all of them. -/
theorem toNat_lt_fieldWidth {values : List UInt64} {value : UInt64}
    (h : value ∈ values) : value.toNat < 256 ^ fieldWidth values := by
  unfold fieldWidth
  split
  · exact value.toNat_lt
  · next hnarrow =>
    have hsmall : value.toNat ≤ maxWord32 := by
      refine Nat.le_of_not_lt fun hlarge => hnarrow ?_
      exact List.any_eq_true.mpr ⟨value, h, decide_eq_true hlarge⟩
    unfold maxWord32 at hsmall
    omega

theorem read_mediaHeader (box : MediaHeader) :
    readDuration? (content box) = some box.duration.toNat := by
  have hwidth : (if (widthVersion box.width).toNat = 1 then 8 else 4)
      = box.width := by
    unfold MediaHeader.width fieldWidth
    split <;> rfl
  have hduration : box.duration.toNat % 256 ^ box.width
      = box.duration.toNat :=
    Nat.mod_eq_of_lt (toNat_lt_fieldWidth (by simp))
  have hcontent : content box
      = (VersionFlags.mk (widthVersion box.width) 0).encode ++
        (Bytes.bigEndian box.width box.creationTime.toNat ++
        (Bytes.bigEndian box.width box.modificationTime.toNat ++
        (Bytes.word32 box.timescale ++
        (Bytes.bigEndian box.width box.duration.toNat ++
        (box.language.encode ++ Bytes.zeros 2))))) := by
    simp [content, Format.full?, Format.body]
  unfold readDuration?
  simp only [hcontent, readVersion?_encode, hwidth, readNumber?_bigEndian,
    readNumber?_word32, hduration, Option.bind_eq_bind, Option.bind_some,
    Option.pure_def]

end AudioMux.Box

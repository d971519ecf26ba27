/-
What a reader gets back from a closed file.

The reader (`readFile?`) knows the format and nothing of the muxer. It
walks down to the tables of each track, expands them, and takes every
sample out of the file by the offset of its chunk and the sizes of the
samples in front of it. It gives up if the tables do not fit each other
or the file.

What it gets back is what the caller handed in: the data of the accepted
samples of each track, in order, and their durations
(`Session.reads_back`). No fault on the way can change that, since the
muxer cannot be finalized after one.
-/
import AudioMux.Proofs.Box.Read
import AudioMux.Proofs.Muxer.Tiling
import AudioMux.Proofs.Table.Expansion

namespace AudioMux

open Box
open AccessUnit (payload totalDuration)

-- ============================================================== the reader

/-- A track as a reader gets it back. -/
structure Recovered where
  samples : List Bytes
  durations : List Nat
  duration : Nat
  deriving DecidableEq, Repr

/-- So many bytes at a position, if they are there. -/
def bytesAt? (file : Bytes) (position count : Nat) : Option Bytes :=
  let bytes := (file.drop position).take count
  if bytes.length = count then some bytes else none

/-- The samples of a chunk, which lie back to back. -/
def readChunk? (file : Bytes) : (position : Nat) → (sizes : List Nat) →
    Option (List Bytes)
  | _, [] => some []
  | position, size :: sizes => do
    let sample ← bytesAt? file position size
    let samples ← readChunk? file (position + size) sizes
    pure (sample :: samples)

/-- The samples of chunks, given where each chunk lies and how many
samples it has. Every sample must belong to a chunk. -/
def readChunks? (file : Bytes) : (chunks : List (Nat × Nat)) →
    (sizes : List Nat) → Option (List Bytes)
  | [], sizes => if sizes.isEmpty then some [] else none
  | (position, count) :: chunks, sizes =>
    if count ≤ sizes.length then do
      let samples ← readChunk? file position (sizes.take count)
      let later ← readChunks? file chunks (sizes.drop count)
      pure (samples ++ later)
    else none

/-- The content of the first box of a kind inside a box. -/
def child? (kind : FourCC) (content : Bytes) : Option Bytes :=
  (walk content).bind (Part.payload? kind)

/-- The offsets of chunks, from whichever of the two tables there is. -/
def readOffsets? (tables : Bytes) : Option (List Nat) :=
  match child? (.ofChars 's' 't' 'c' 'o') tables with
  | some narrow => readFullTable? (readNumber? 4) narrow
  | none =>
    (child? (.ofChars 'c' 'o' '6' '4') tables).bind
      (readFullTable? (readNumber? 8))

/-- A track, given the content of its box. -/
def readTrack? (file track : Bytes) : Option Recovered := do
  let media ← child? (.ofChars 'm' 'd' 'i' 'a') track
  let header ← child? (.ofChars 'm' 'd' 'h' 'd') media
  let duration ← readDuration? header
  let information ← child? (.ofChars 'm' 'i' 'n' 'f') media
  let tables ← child? (.ofChars 's' 't' 'b' 'l') information
  let times ← (child? (.ofChars 's' 't' 't' 's') tables).bind
    (readFullTable? readTimeRun?)
  let runs ← (child? (.ofChars 's' 't' 's' 'c') tables).bind
    (readFullTable? readChunkRun?)
  let sizes ← (child? (.ofChars 's' 't' 's' 'z') tables).bind readSizes?
  let offsets ← readOffsets? tables
  let counts := chunkCounts offsets.length 1 0 runs
  let samples ← readChunks? file (offsets.zip counts) sizes
  pure ⟨samples, expandRuns times, duration⟩

/-- All tracks of a file, in the order of their boxes. -/
def readFile? (file : Bytes) : Option (List Recovered) := do
  let movie ← child? (.ofChars 'm' 'o' 'o' 'v') file
  let parts ← walk movie
  (Part.payloads (.ofChars 't' 'r' 'a' 'k') parts).mapM (readTrack? file)

/-- What should be got back of a track. -/
def Intake.recovered (intake : Intake) : Recovered where
  samples := intake.units.map AccessUnit.data
  durations := intake.units.map fun unit => unit.duration.toNat
  duration := (intake.units.map fun unit => unit.duration.toNat).sum

-- ================================================================= samples

theorem bytesAt?_of_holdsAt {file data : Bytes} {position : Nat}
    (h : file.HoldsAt position data) :
    bytesAt? file position data.length = some data := by
  unfold bytesAt?
  dsimp only
  rw [h.take_drop, if_pos rfl]

/-- A chunk that is where it should be gives its units back. -/
theorem readChunk?_of_holdsAt {file : Bytes} {position : Nat}
    {units : List AccessUnit} (h : file.HoldsAt position (payload units)) :
    readChunk? file position (units.map fun unit => unit.data.length)
      = some (units.map AccessUnit.data) := by
  induction units generalizing position with
  | nil => rfl
  | cons unit units ih =>
      obtain ⟨hfirst, hrest⟩ := Bytes.holdsAt_append.mp
        (show file.HoldsAt position (unit.data ++ payload units) from h)
      rw [List.map_cons]
      unfold readChunk?
      rw [bytesAt?_of_holdsAt hfirst, Option.bind_eq_bind, Option.bind_some,
        ih hrest]
      rfl

/-- Chunks that are where they should be give all units back. -/
theorem readChunks?_of_forall₂ {file : Bytes} {chunks : List (Nat × Nat)}
    {parts : List (List AccessUnit)}
    (h : List.Forall₂ (fun chunk units => chunk.2 = units.length
      ∧ file.HoldsAt chunk.1 (payload units)) chunks parts) :
    readChunks? file chunks
        (parts.flatten.map fun unit => unit.data.length)
      = some (parts.flatten.map AccessUnit.data) := by
  induction h with
  | nil => rfl
  | @cons chunk units chunks parts hfirst _ ih =>
      obtain ⟨position, count⟩ := chunk
      obtain ⟨hcount, hholds⟩ := hfirst
      have hcount' : count
          = (units.map fun unit => unit.data.length).length := by
        rw [List.length_map]
        exact hcount
      rw [List.flatten_cons, List.map_append, List.map_append]
      unfold readChunks?
      rw [if_pos (by rw [List.length_append]; omega), hcount',
        List.take_left, List.drop_left, readChunk?_of_holdsAt hholds,
        Option.bind_eq_bind, Option.bind_some, ih]
      rfl

-- ================================================================== tables

theorem child?_media {box : TrackBox} (h : Format.size box ≤ maxWord32) :
    child? (.ofChars 'm' 'd' 'i' 'a') (content box)
      = some (content box.media) := by
  unfold child?
  rw [walk_trackBox h, Option.bind_some]
  cases box.edits? <;> rfl

theorem child?_mediaHeader {box : Media}
    (h : Format.size box ≤ maxWord32) :
    child? (.ofChars 'm' 'd' 'h' 'd') (content box)
      = some (content box.header) := by
  unfold child?
  rw [walk_mediaBox h]
  rfl

theorem child?_information {box : Media}
    (h : Format.size box ≤ maxWord32) :
    child? (.ofChars 'm' 'i' 'n' 'f') (content box)
      = some (content box.information) := by
  unfold child?
  rw [walk_mediaBox h]
  rfl

theorem child?_sampleTables {box : MediaInformation}
    (h : Format.size box ≤ maxWord32) :
    child? (.ofChars 's' 't' 'b' 'l') (content box)
      = some (content box.sampleTables) := by
  unfold child?
  rw [walk_mediaInformation h, Option.bind_some]
  cases box.soundHeader? <;> rfl

section
variable {box : SampleTables} (h : Format.size box ≤ maxWord32)

include h

theorem child?_timeToSample :
    child? (.ofChars 's' 't' 't' 's') (content box)
      = some (content box.timeToSample) := by
  unfold child?
  rw [walk_sampleTables h, Option.bind_some]
  cases box.sampleToGroup? <;> cases box.groups? <;> rfl

theorem child?_sampleToChunk :
    child? (.ofChars 's' 't' 's' 'c') (content box)
      = some (content box.sampleToChunk) := by
  unfold child?
  rw [walk_sampleTables h, Option.bind_some]
  cases box.sampleToGroup? <;> cases box.groups? <;> rfl

theorem child?_sampleSizes :
    child? (.ofChars 's' 't' 's' 'z') (content box)
      = some (content box.sampleSizes) := by
  unfold child?
  rw [walk_sampleTables h, Option.bind_some]
  cases box.sampleToGroup? <;> cases box.groups? <;> rfl

/-- The chunk offsets are found under the kind that they have. -/
theorem child?_chunkOffsets (kind : FourCC)
    (hkind : kind = .ofChars 's' 't' 'c' 'o'
      ∨ kind = .ofChars 'c' 'o' '6' '4') :
    child? kind (content box)
      = if Format.kind box.chunkOffsets = kind then
          some (content box.chunkOffsets)
        else none := by
  unfold child?
  rw [walk_sampleTables h, Option.bind_some]
  rcases hkind with rfl | rfl
  · cases box.sampleToGroup? <;> cases box.groups? <;>
      cases box.chunkOffsets <;> rfl
  · cases box.sampleToGroup? <;> cases box.groups? <;>
      cases box.chunkOffsets <;> rfl

end

/-- The offsets are found in either table. -/
theorem readOffsets?_content {box : SampleTables}
    (h : Format.size box ≤ maxWord32)
    (hoffsets : Format.size box.chunkOffsets ≤ maxWord32) :
    readOffsets? (content box) = some box.chunkOffsets.toList := by
  unfold readOffsets?
  rw [child?_chunkOffsets h _ (Or.inl rfl),
    child?_chunkOffsets h _ (Or.inr rfl)]
  cases hbox : box.chunkOffsets with
  | narrow offsets =>
      rw [hbox] at hoffsets
      exact read_narrowOffsets hoffsets
  | wide offsets =>
      rw [hbox] at hoffsets
      have hkind : Format.kind (ChunkOffsets.wide offsets)
          ≠ .ofChars 's' 't' 'c' 'o' := by
        show FourCC.ofChars 'c' 'o' '6' '4' ≠ _
        decide
      have hkind' : Format.kind (ChunkOffsets.wide offsets)
          = .ofChars 'c' 'o' '6' '4' := rfl
      rw [if_neg hkind, if_pos hkind']
      dsimp only [Option.bind_some]
      exact read_wideOffsets hoffsets

/-- What the reader makes of the box of a track. -/
theorem readTrack?_content {box : TrackBox} {tables : SampleTables}
    (h : Format.size box ≤ maxWord32)
    (htables : box.media.information.sampleTables = tables)
    (file : Bytes) :
    readTrack? file (content box)
      = (readChunks? file
          (tables.chunkOffsets.toList.zip
            (chunkCounts tables.chunkOffsets.toList.length 1 0
              (tables.sampleToChunk.runs.map fun run =>
                (run.firstChunk.toNat, run.samplesPerChunk.toNat))))
          (tables.sampleSizes.sizes.map UInt32.toNat)).map
        fun samples => ⟨samples,
          expandRuns (tables.timeToSample.runs.map fun run =>
            (run.count.toNat, run.delta.toNat)),
          box.media.header.duration.toNat⟩ := by
  have hmedia := size_media_le h
  have hinformation := size_information_le hmedia
  have hfits := size_sampleTables_le hinformation
  rw [htables] at hfits
  obtain ⟨htimes, hchunks, hsizes, hoffsets⟩ := size_tables_le hfits
  unfold readTrack?
  simp only [child?_media h, child?_mediaHeader hmedia, read_mediaHeader,
    child?_information hmedia, child?_sampleTables hinformation, htables,
    child?_timeToSample hfits, read_timeToSample htimes,
    child?_sampleToChunk hfits, read_sampleToChunk hchunks,
    child?_sampleSizes hfits, read_sampleSizes hsizes,
    readOffsets?_content hfits hoffsets, Option.bind_eq_bind,
    Option.bind_some]
  exact Option.map_eq_bind.symm

-- ================================================================== tracks

/-- Durations have 32 bits each. -/
theorem totalDuration_le (units : List AccessUnit) :
    totalDuration units ≤ units.length * UInt32.size := by
  induction units with
  | nil => exact Nat.zero_le _
  | cons unit units ih =>
      have hlt := unit.duration.toNat_lt
      show unit.duration.toNat + totalDuration units ≤ _
      rw [List.length_cons, Nat.succ_mul]
      have hsize : UInt32.size = 2 ^ 32 := rfl
      omega

namespace Entry

variable {entry : Entry}

/-- The sample table lists what was handed in. -/
theorem Sound.sizes_eq (h : entry.Sound) :
    entry.track.samples.sampleSizes.sizes.map UInt32.toNat
      = entry.intake.units.map fun unit => unit.data.length := by
  unfold SampleTable.sampleSizes
  rw [h.cut.samples, List.map_map, List.map_map]
  refine List.map_congr_left fun unit hunit => ?_
  have hsmall := h.small unit hunit
  refine UInt32.toNat_ofNat_of_lt' ?_
  exact Nat.lt_of_le_of_lt hsmall (by decide)

theorem Sound.durations_eq (h : entry.Sound) :
    (entry.track.samples.toList.map fun sample => sample.duration.toNat)
      = entry.intake.units.map fun unit => unit.duration.toNat := by
  rw [h.cut.samples, List.map_map]
  rfl

theorem Sound.length_samples (h : entry.Sound) :
    entry.track.samples.length = entry.intake.units.length := by
  have hlength := congrArg List.length h.samples
  rw [List.length_reverse, List.length_map] at hlength
  exact hlength

/-- The duration of the track is that of what was handed in. -/
theorem Sound.totalDuration_eq (h : entry.Sound) :
    entry.track.duration = totalDuration entry.intake.units := by
  unfold Track.duration
  rw [SampleTable.duration_eq_sum, h.durations_eq]
  rfl

/-- It cannot need more than 64 bits. -/
theorem Sound.duration_lt (h : entry.Sound)
    (hcount : entry.track.samples.length < 2 ^ 32) :
    entry.track.duration < 2 ^ 64 := by
  have hle := totalDuration_le entry.intake.units
  have hsize : UInt32.size = 2 ^ 32 := rfl
  rw [h.length_samples] at hcount
  rw [h.totalDuration_eq]
  rw [hsize] at hle
  omega

theorem Sound.duration_eq (h : entry.Sound)
    (hcount : entry.track.samples.length < 2 ^ 32) :
    (UInt64.ofNat entry.track.duration).toNat
      = (entry.intake.units.map fun unit => unit.duration.toNat).sum :=
  (UInt64.toNat_ofNat_of_lt' (h.duration_lt hcount)).trans
    h.totalDuration_eq

/-- No chunk has more samples than the track. -/
theorem Sound.samples_le (h : entry.Sound) {chunk : Chunk}
    (hchunk : chunk ∈ entry.track.chunks.toList) :
    chunk.samples ≤ entry.intake.units.length := by
  have hcounts : entry.track.chunks.toList.map Chunk.samples
      = entry.parts.reverse.map List.length := by
    have hchunks := h.cut.chunks
    revert hchunks
    generalize entry.track.chunks.toList = chunks
    generalize entry.parts.reverse = parts
    intro hchunks
    induction hchunks with
    | nil => rfl
    | cons hsums _ ih => rw [List.map_cons, List.map_cons, ih, hsums.samples]
  have hmem : chunk.samples ∈ entry.parts.reverse.map List.length := by
    rw [← hcounts]
    exact List.mem_map_of_mem hchunk
  obtain ⟨units, hunits, hlength⟩ := List.mem_map.mp hmem
  rw [← hlength, ← h.cut.units]
  exact (List.sublist_flatten_of_mem hunits).length_le

end Entry

namespace Muxer

variable {optimize : Bool} {muxer done : Muxer FlatFile}
  {intakes : List Intake} {ledger : List Entry} {blocks : List Block}
  {gap : Nat}

/-- In a file below 2 ^ 32 bytes offsets have 32 bits and are read as they
are. -/
theorem Closed.exists_narrow
    (h : Closed optimize muxer intakes done ledger blocks gap)
    (hlength : muxer.out.sink.bytes.length < 2 ^ 32)
    {entry : Entry} (hentry : entry ∈ ledger) :
    ∃ offsets, entry.track.chunks.offsets gap = .narrow offsets
      ∧ offsets.map UInt32.toNat
        = entry.track.chunks.toList.map
            fun chunk => chunk.offset + gap := by
  have hsmall : ∀ chunk ∈ entry.track.chunks.newestFirst,
      chunk.offset + gap ≤ maxWord32 := by
    intro chunk hchunk
    have hle := h.offset_le hentry hchunk
    unfold maxWord32
    omega
  have hnarrow : ¬ entry.track.chunks.IsWideAt gap := by
    rintro ⟨chunk, hnewest, hwide⟩
    have hle := hsmall chunk (List.mem_of_mem_head? hnewest)
    omega
  refine ⟨_, ChunkTable.offsets_narrow hnarrow, ?_⟩
  rw [List.map_map]
  refine List.map_congr_left fun chunk hchunk => ?_
  have hle := hsmall chunk (List.mem_reverse.mp hchunk)
  exact UInt32.toNat_ofNat_of_lt' (Nat.lt_of_le_of_lt hle (by decide))

/-- A reader finds the samples of a track. -/
theorem Closed.readChunks?_eq
    (h : Closed optimize muxer intakes done ledger blocks gap)
    {entry : Entry} (hentry : entry ∈ ledger) :
    readChunks? muxer.out.sink.bytes
        (entry.track.chunks.toList.map fun chunk =>
          (chunk.offset + gap, chunk.samples))
        (entry.intake.units.map fun unit => unit.data.length)
      = some (entry.intake.units.map AccessUnit.data) := by
  rw [← (h.seals.sound entry hentry).units]
  refine readChunks?_of_forall₂ (List.forall₂_map_left_iff.mpr ?_)
  refine List.forall₂_reverse_iff.mpr ((h.holdsAt_chunks hentry).imp ?_)
  rintro chunk units ⟨hsums, _, hholds⟩
  exact ⟨hsums.samples, hholds⟩

theorem Closed.toList_offsets
    (h : Closed optimize muxer intakes done ledger blocks gap)
    (hlength : muxer.out.sink.bytes.length < 2 ^ 32)
    {entry : Entry} (hentry : entry ∈ ledger) :
    (entry.track.chunks.offsets gap).toList
      = entry.track.chunks.toList.map fun chunk => chunk.offset + gap := by
  obtain ⟨offsets, hnarrow, hvalues⟩ := h.exists_narrow hlength hentry
  rw [hnarrow]
  exact hvalues

/-- A table of sizes that fits its box lists fewer samples than 32 bits can
count. -/
theorem Closed.units_lt
    (h : Closed optimize muxer intakes done ledger blocks gap)
    {entry : Entry} (hentry : entry ∈ ledger) {index : Nat}
    (hfits : Format.size (done.trackBox gap index entry.track)
      ≤ maxWord32) : entry.intake.units.length < maxWord32 := by
  obtain ⟨_, _, hsizes, _⟩ := size_tables_le
    (size_sampleTables_le (size_information_le (size_media_le hfits)))
  have hcount := congrArg List.length (h.seals.sound entry hentry).sizes_eq
  rw [List.length_map, List.length_map] at hcount
  have hunits : 20 + 4 * entry.intake.units.length ≤ maxWord32 := by
    rw [← hcount]
    exact hsizes
  omega

/-- The same goes for the samples and the chunks. -/
theorem Closed.counts_lt
    (h : Closed optimize muxer intakes done ledger blocks gap)
    (hlength : muxer.out.sink.bytes.length < 2 ^ 32)
    {entry : Entry} (hentry : entry ∈ ledger) {index : Nat}
    (hfits : Format.size (done.trackBox gap index entry.track)
      ≤ maxWord32) :
    entry.intake.units.length < maxWord32
      ∧ entry.track.chunks.length < maxWord32 := by
  obtain ⟨_, _, _, hoffsets⟩ := size_tables_le
    (size_sampleTables_le (size_information_le (size_media_le hfits)))
  refine ⟨h.units_lt hentry hfits, ?_⟩
  have hcount := length_offsets_le (entry.track.chunks.offsets gap)
  have hsame : entry.track.chunks.toList.length
      = entry.track.chunks.length := List.length_reverse
  rw [h.toList_offsets hlength hentry, List.length_map, hsame] at hcount
  have hchunks : Format.size (entry.track.chunks.offsets gap)
    ≤ maxWord32 := hoffsets
  omega

/-- The offsets of the chunks, with the sample counts that the runs of
the table expand to. -/
theorem Closed.zip_chunkCounts
    (h : Closed optimize muxer intakes done ledger blocks gap)
    (hlength : muxer.out.sink.bytes.length < 2 ^ 32)
    {entry : Entry} (hentry : entry ∈ ledger)
    (hunits : entry.intake.units.length < maxWord32)
    (hchunks : entry.track.chunks.length < maxWord32) :
    (entry.track.chunks.offsets gap).toList.zip
        (chunkCounts (entry.track.chunks.offsets gap).toList.length 1 0
          (entry.track.chunks.sampleToChunk.runs.map fun run =>
            (run.firstChunk.toNat, run.samplesPerChunk.toNat)))
      = entry.track.chunks.toList.map fun chunk =>
          (chunk.offset + gap, chunk.samples) := by
  have hsame : entry.track.chunks.toList.length
      = entry.track.chunks.length := List.length_reverse
  have hcounts := ChunkTable.chunkCounts_sampleToChunk entry.track.chunks
    hchunks fun chunk hchunk => by
      have hle := (h.seals.sound entry hentry).samples_le hchunk
      omega
  rw [h.toList_offsets hlength hentry, List.length_map, hsame, hcounts,
    List.zip_map']

/-- A reader gets the track of an entry back. -/
theorem Closed.readTrack?_eq
    (h : Closed optimize muxer intakes done ledger blocks gap)
    (hlength : muxer.out.sink.bytes.length < 2 ^ 32)
    {entry : Entry} (hentry : entry ∈ ledger) (index : Nat)
    (hfits : Format.size (done.trackBox gap index entry.track)
      ≤ maxWord32) :
    readTrack? muxer.out.sink.bytes
        (content (done.trackBox gap index entry.track))
      = some entry.intake.recovered := by
  have hsound := h.seals.sound entry hentry
  obtain ⟨hunits, hchunks⟩ := h.counts_lt hlength hentry hfits
  have hcount : entry.track.samples.length < 2 ^ 32 := by
    rw [hsound.length_samples]
    exact Nat.lt_trans hunits (by decide)
  have hduration := hsound.duration_eq hcount
  have htimes := SampleTable.expandRuns_timeToSample entry.track.samples
    (by rw [hsound.length_samples]; omega)
  rw [hsound.durations_eq] at htimes
  have hsamples : readChunks? muxer.out.sink.bytes
        ((entry.track.chunks.offsets gap).toList.zip
          (chunkCounts (entry.track.chunks.offsets gap).toList.length 1 0
            (entry.track.chunks.sampleToChunk.runs.map fun run =>
              (run.firstChunk.toNat, run.samplesPerChunk.toNat))))
        (entry.track.samples.sampleSizes.sizes.map UInt32.toNat)
      = some (entry.intake.units.map AccessUnit.data) := by
    rw [h.zip_chunkCounts hlength hentry hunits hchunks, hsound.sizes_eq]
    exact h.readChunks?_eq hentry
  have hbox : (done.trackBox gap index
      entry.track).media.information.sampleTables
    = entry.track.sampleTables (done.signalsPriming entry.track) gap := rfl
  rw [readTrack?_content hfits hbox]
  refine (congrArg _ hsamples).trans ?_
  unfold Intake.recovered
  rw [← hduration, ← htimes]
  rfl

theorem Closed.child?_movie
    (h : Closed optimize muxer intakes done ledger blocks gap)
    (hlength : muxer.out.sink.bytes.length < 2 ^ 64) :
    child? (.ofChars 'm' 'o' 'o' 'v') muxer.out.sink.bytes
      = some (content (done.movie gap)) := by
  unfold child?
  rw [h.walk_eq hlength, Option.bind_some]
  unfold Outline.parts Outline.of
  cases optimize with
  | false =>
      rw [if_neg Bool.false_ne_true]
      dsimp only
      split <;> rfl
  | true => rfl

/-- Reading the boxes of tracks one after the other. -/
theorem mapM_boxes {α : Type} {read? : Bytes → Option α} {value : Entry → α}
    {boxOf : Nat → Track → TrackBox}
    (h : ∀ index entry, ledger[index]? = some entry →
      read? (content (boxOf index entry.track)) = some (value entry)) :
    (((ledger.map Entry.track).mapIdx boxOf).map content).mapM read?
      = some (ledger.map value) := by
  induction ledger generalizing boxOf with
  | nil => rfl
  | cons entry ledger ih =>
      have hfirst := h 0 entry rfl
      have hrest : (((ledger.map Entry.track).mapIdx
            fun index => boxOf (index + 1)).map content).mapM read? = _ :=
        ih fun index => h (index + 1)
      rw [List.map_cons, List.mapIdx_cons, List.map_cons, List.mapM_cons,
        hfirst, hrest]
      rfl

theorem Closed.size_movie
    (h : Closed optimize muxer intakes done ledger blocks gap) :
    Format.size (done.movie gap) ≤ maxWord32 := by
  rw [size_eq_of_length_le h.movieFits]
  exact h.movieFits

theorem Closed.size_trackBox
    (h : Closed optimize muxer intakes done ledger blocks gap)
    {index : Nat} {entry : Entry} (hentry : ledger[index]? = some entry) :
    Format.size (done.trackBox gap index entry.track) ≤ maxWord32 := by
  refine size_track_le h.size_movie (List.mem_of_getElem? (i := index) ?_)
  show (done.tracks.mapIdx (done.trackBox gap))[index]? = _
  rw [h.seals.tracks, List.getElem?_mapIdx, List.getElem?_map, hentry]
  rfl

theorem Closed.samples_lt
    (h : Closed optimize muxer intakes done ledger blocks gap)
    {index : Nat} {entry : Entry} (hentry : ledger[index]? = some entry) :
    entry.track.samples.length < 2 ^ 32 := by
  have hmem := List.mem_of_getElem? hentry
  have hunits := h.units_lt hmem (h.size_trackBox hentry)
  rw [(h.seals.sound entry hmem).length_samples]
  exact Nat.lt_trans hunits (by decide)

/-- What a reader makes of each track it makes of all tracks of the
file. -/
theorem Closed.mapM_tracks {α : Type} {read? : Bytes → Option α}
    {value : Entry → α}
    (h : Closed optimize muxer intakes done ledger blocks gap)
    (hlength : muxer.out.sink.bytes.length < 2 ^ 64)
    (hread : ∀ index, ∀ entry ∈ ledger,
      Format.size (done.trackBox gap index entry.track) ≤ maxWord32 →
      read? (content (done.trackBox gap index entry.track))
        = some (value entry)) :
    (do
      let movie ← child? (.ofChars 'm' 'o' 'o' 'v') muxer.out.sink.bytes
      let parts ← walk movie
      (Part.payloads (.ofChars 't' 'r' 'a' 'k') parts).mapM read?)
      = some (ledger.map value) := by
  have hboxes : (done.movie gap).tracks
      = (ledger.map Entry.track).mapIdx (done.trackBox gap) := by
    rw [← h.seals.tracks]
    rfl
  rw [h.child?_movie hlength, Option.bind_eq_bind, Option.bind_some,
    walk_movieBox h.size_movie, Option.bind_eq_bind, Option.bind_some,
    payloads_tracks, hboxes]
  exact mapM_boxes fun index entry hentry =>
    hread index entry (List.mem_of_getElem? hentry) (h.size_trackBox hentry)

/-- A reader gets all tracks back. -/
theorem Closed.readFile?_eq
    (h : Closed optimize muxer intakes done ledger blocks gap)
    (hlength : muxer.out.sink.bytes.length < 2 ^ 32) :
    readFile? muxer.out.sink.bytes
      = some (intakes.map Intake.recovered) := by
  rw [h.seals.intakes, List.map_map]
  exact h.mapM_tracks (Nat.lt_trans hlength (by decide))
    fun index entry hentry hfits =>
      h.readTrack?_eq hlength hentry index hfits

end Muxer

/-- Whatever was called, on whatever sink that is faithful and was empty:
if the muxer has been finalized and the file is below 2 ^ 32 bytes, a
reader gets back what was handed in. -/
theorem Session.reads_back {σ : Type} [Sink σ] [FaithfulSink σ]
    {config : MuxerConfig} {now : UInt64} {sink : σ}
    {muxer final : Muxer σ} {calls : List Call} {optimize : Bool}
    (hfresh : FaithfulSink.view sink = .empty)
    (hcreate : Muxer.create config now sink = .ok muxer)
    (hfinalize : Muxer.finalize optimize ((opened muxer).run calls).muxer
      = .ok () final)
    (hlength : (FaithfulSink.view final.out.sink).bytes.length < 2 ^ 32) :
    readFile? (FaithfulSink.view final.out.sink).bytes
      = some (((opened muxer).run calls).intakes.map Intake.recovered) := by
  obtain ⟨done, ledger, blocks, gap, hclosed⟩ :=
    exists_closed hfresh hcreate hfinalize
  exact hclosed.readFile?_eq hlength

/-- The short session is read back from an optimized file. -/
theorem reads_back_shortSession :
    ∃ final : Muxer FlatFile,
      Muxer.finalize true
          ((Session.opened freshMuxer).run shortSession).muxer
        = .ok () final
      ∧ readFile? final.out.sink.bytes
        = some [⟨[[1, 2, 3], [], [6]], [22000, 1024, 1024], 24048⟩,
            ⟨[[], [4, 5]], [700, 700], 1400⟩] := by
  obtain ⟨final, hfinalize, hlength⟩ := finalize_shortSession true
  have hread := Session.reads_back (σ := FlatFile) rfl create_default
    hfinalize hlength
  have hunits : ((Session.opened freshMuxer).run shortSession).intakes.map
        Intake.recovered
      = [⟨[[1, 2, 3], [], [6]], [22000, 1024, 1024], 24048⟩,
          ⟨[[], [4, 5]], [700, 700], 1400⟩] := by decide +kernel
  rw [hunits] at hread
  exact ⟨final, hfinalize, hread⟩

end AudioMux

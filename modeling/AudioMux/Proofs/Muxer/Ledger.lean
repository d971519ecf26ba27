/-
A track against the caller's account of it.

An `Entry` puts a track beside its intake and says how the track's
chunks cut up the units that were handed in (`parts`). The cut is not
part of the program: it is what the chunk table stands for. An entry is
sound if the tables are the counts and sums that the cut asks for, and
held if the bytes held back are those of the newest chunk.

Three things happen to an entry: its bytes are settled in the file, a
chunk is opened, and the newest chunk is extended by a unit. Each keeps
soundness, and each says what it does to the blocks the track has in the
file (`stored`): settling adds one, unless nothing was held back, and
the other two leave them alone.
-/
import Mathlib.Data.List.Forall2
import AudioMux.Proofs.Muxer.Flat
import AudioMux.Proofs.Muxer.Session

namespace AudioMux

-- ================================================================== units

namespace AccessUnit

/-- The data of units, back to back. -/
def payload (units : List AccessUnit) : Bytes :=
  units.flatMap AccessUnit.data

/-- The duration of units together. -/
def totalDuration (units : List AccessUnit) : Nat :=
  (units.map fun unit => unit.duration.toNat).sum

/-- What the sample table keeps of a unit. -/
def sample (unit : AccessUnit) : Sample :=
  ⟨UInt32.ofNat unit.data.length, unit.duration⟩

theorem payload_append (first second : List AccessUnit) :
    payload (first ++ second) = payload first ++ payload second :=
  List.flatMap_append

theorem payload_concat (units : List AccessUnit) (unit : AccessUnit) :
    payload (units ++ [unit]) = payload units ++ unit.data := by
  rw [payload_append]
  simp [payload]

theorem totalDuration_append (first second : List AccessUnit) :
    totalDuration (first ++ second)
      = totalDuration first + totalDuration second := by
  unfold totalDuration
  rw [List.map_append, List.sum_append]

theorem totalDuration_concat (units : List AccessUnit)
    (unit : AccessUnit) :
    totalDuration (units ++ [unit])
      = totalDuration units + unit.duration.toNat :=
  totalDuration_append units [unit]

end AccessUnit

open AccessUnit (payload totalDuration)

theorem SampleTable.duration_eq_sum (table : SampleTable) :
    table.duration
      = (table.toList.map fun sample => sample.duration.toNat).sum := by
  have hnewest : ∀ samples : List Sample,
      samples.foldr (fun sample duration =>
          sample.duration.toNat + duration) 0
        = (samples.map fun sample => sample.duration.toNat).sum := by
    intro samples
    induction samples with
    | nil => rfl
    | cons sample samples ih => rw [List.foldr_cons, ih]; rfl
  unfold duration toList
  rw [hnewest, List.map_reverse, List.sum_reverse]

/-- A table of the units lasts as long as they do. -/
theorem SampleTable.duration_units (units : List AccessUnit) :
    duration ⟨(units.map AccessUnit.sample).reverse⟩
      = totalDuration units := by
  rw [duration_eq_sum]
  unfold toList
  rw [List.reverse_reverse, List.map_map]
  rfl

-- ================================================================= chunks

/-- A chunk says of its units how many there are, and how large and how
long they are together. Without any bytes it never gets a place. -/
structure Chunk.SumsUp (chunk : Chunk) (units : List AccessUnit) :
    Prop where
  samples : chunk.samples = units.length
  size : chunk.size = (payload units).length
  duration : chunk.duration = totalDuration units
  unplaced : payload units = [] → chunk.offset = 0

theorem Chunk.sumsUp_empty : Chunk.empty.SumsUp [] :=
  ⟨rfl, rfl, rfl, fun _ => rfl⟩

theorem Chunk.SumsUp.add {chunk : Chunk} {units : List AccessUnit}
    (h : chunk.SumsUp units) (unit : AccessUnit) :
    (chunk.add unit.data.length unit.duration).SumsUp
      (units ++ [unit]) where
  samples := by
    rw [List.length_append, ← h.samples]
    rfl
  size := by
    rw [AccessUnit.payload_concat, List.length_append, ← h.size]
    rfl
  duration := by
    rw [AccessUnit.totalDuration_concat, ← h.duration]
    rfl
  unplaced := by
    intro hempty
    rw [AccessUnit.payload_concat] at hempty
    exact h.unplaced (List.append_eq_nil_iff.mp hempty).1

/-- Where a chunk lies is not its units' concern, if there is anything in
it. -/
theorem Chunk.SumsUp.moveTo {chunk : Chunk} {units : List AccessUnit}
    (h : chunk.SumsUp units) (hunits : payload units ≠ [])
    (position : Nat) :
    ({ chunk with offset := position } : Chunk).SumsUp units :=
  ⟨h.samples, h.size, h.duration, fun hempty => absurd hempty hunits⟩

/-- A stretch of the file and what it should hold. -/
structure Block where
  offset : Nat
  data : Bytes
  deriving DecidableEq, Repr

namespace Block

/-- Whether there is anything in a block. -/
def isFilled (block : Block) : Bool := !block.data.isEmpty

/-- Data at a position, which is no block if it is empty. -/
def place (position : Nat) (data : Bytes) : List Block :=
  if data.isEmpty then [] else [⟨position, data⟩]

@[simp] theorem place_nil (position : Nat) : place position [] = [] := rfl

theorem place_of_ne_nil {data : Bytes} (h : data ≠ []) (position : Nat) :
    place position data = [⟨position, data⟩] := by
  unfold place
  rw [if_neg (by simpa using h)]

end Block

/-- The stretches of chunks with given units, newest chunk first. -/
def Chunk.blocks (chunks : List Chunk) (parts : List (List AccessUnit)) :
    List Block :=
  List.zipWith (fun chunk units => ⟨chunk.offset, payload units⟩) chunks
    parts

/-- Each chunk with its units is one of the stretches. -/
theorem Chunk.forall₂_blocks {chunks : List Chunk}
    {parts : List (List AccessUnit)}
    (h : List.Forall₂ Chunk.SumsUp chunks parts) :
    List.Forall₂ (fun chunk units => chunk.SumsUp units
      ∧ ⟨chunk.offset, payload units⟩ ∈ Chunk.blocks chunks parts) chunks
      parts := by
  induction h with
  | nil => exact .nil
  | cons hsums _ ih =>
      refine .cons ⟨hsums, List.mem_cons_self⟩ (ih.imp ?_)
      rintro chunk units ⟨hsums', hmem⟩
      exact ⟨hsums', List.mem_cons_of_mem _ hmem⟩

/-- Each chunk goes with one of the parts. -/
theorem Chunk.exists_part {R : Chunk → List AccessUnit → Prop}
    {chunks : List Chunk} {parts : List (List AccessUnit)}
    (h : List.Forall₂ R chunks parts) {chunk : Chunk}
    (hchunk : chunk ∈ chunks) : ∃ units ∈ parts, R chunk units := by
  induction h with
  | nil => cases hchunk
  | cons hfirst _ ih =>
      rcases List.mem_cons.mp hchunk with rfl | hmem
      · exact ⟨_, List.mem_cons_self, hfirst⟩
      · obtain ⟨units, hunits, hrel⟩ := ih hmem
        exact ⟨units, List.mem_cons_of_mem _ hunits, hrel⟩

-- ================================================================ entries

/-- A track, the caller's account of it, and the units of each chunk,
newest chunk first. -/
structure Entry where
  track : Track
  intake : Intake
  parts : List (List AccessUnit)

namespace Entry

/-- The tables of the track say what was handed in, and the chunks cut
it up in order. -/
structure Sound (entry : Entry) : Prop where
  fixed : entry.track.fixedDuration? = entry.intake.fixedDuration?
  samples : entry.track.samples.newestFirst
    = (entry.intake.units.map AccessUnit.sample).reverse
  small : ∀ unit ∈ entry.intake.units,
    unit.data.length ≤ Box.maxWord32
  chunks : List.Forall₂ Chunk.SumsUp entry.track.chunks.newestFirst
    entry.parts
  units : entry.parts.reverse.flatten = entry.intake.units

/-- A new track, for which nothing was handed in. -/
def fresh (codec : Codec) (timescale : UInt32) : Entry :=
  ⟨Track.new codec timescale, .empty, []⟩

theorem sound_fresh (codec : Codec) (timescale : UInt32) :
    (fresh codec timescale).Sound :=
  ⟨rfl, rfl, nofun, .nil, rfl⟩

/-- A track with a chunk has a newest part. -/
theorem Sound.exists_newest {entry : Entry} (h : entry.Sound)
    (hopen : entry.track.chunks.newestFirst ≠ []) :
    ∃ chunk older units rest,
      entry.track.chunks.newestFirst = chunk :: older
        ∧ entry.parts = units :: rest
        ∧ chunk.SumsUp units ∧ List.Forall₂ Chunk.SumsUp older rest := by
  have hchunks := h.chunks
  cases hnewest : entry.track.chunks.newestFirst with
  | nil => exact absurd hnewest hopen
  | cons chunk older =>
      rw [hnewest] at hchunks
      cases hparts : entry.parts with
      | nil =>
          rw [hparts] at hchunks
          cases hchunks
      | cons units rest =>
          rw [hparts] at hchunks
          cases hchunks with
          | cons hsums hrest =>
              exact ⟨chunk, older, units, rest, rfl, rfl, hsums, hrest⟩

/-- What is held back is what the newest chunk consists of. -/
def Held (entry : Entry) : Prop :=
  entry.track.chunks.pending = payload (entry.parts.headD [])

theorem held_fresh (codec : Codec) (timescale : UInt32) :
    (fresh codec timescale).Held := rfl

/-- Bytes are held back for the newest chunk only. -/
def Tidy (entry : Entry) : Prop :=
  entry.track.chunks.pending = [] ∨ entry.Held

/-- All chunks of the track that may be in the file, filled or not. -/
def closed (entry : Entry) : List Block :=
  let blocks := Chunk.blocks entry.track.chunks.newestFirst entry.parts
  if entry.track.chunks.pending.isEmpty then blocks else blocks.tail

/-- What the track has in the file, newest block first. -/
def stored (entry : Entry) : List Block :=
  entry.closed.filter Block.isFilled

theorem stored_of_blank {entry : Entry}
    (h : entry.track.chunks = .empty) :
    entry.stored = [] := by
  unfold stored closed Chunk.blocks
  rw [h]
  rfl

/-- While bytes are held back the newest chunk is not in the file, and
without such bytes it is empty. -/
theorem stored_of_held {entry : Entry} (h : entry.Held) :
    entry.stored
      = (Chunk.blocks entry.track.chunks.newestFirst
          entry.parts).tail.filter Block.isFilled := by
  unfold stored closed
  dsimp only
  split
  · next hempty =>
    have hpending := List.isEmpty_iff.mp hempty
    unfold Held at h
    rw [hpending] at h
    unfold Chunk.blocks
    cases entry.track.chunks.newestFirst with
    | nil => rfl
    | cons chunk older =>
        cases hparts : entry.parts with
        | nil => rfl
        | cons units rest =>
            rw [hparts] at h
            have hunits : payload units = [] := h.symm
            rw [List.zipWith_cons_cons, hunits]
            rfl
  · rfl

-- =============================================================== settling

/-- The bytes held back are written at a position. -/
def settle (position : Nat) (entry : Entry) : Entry :=
  { entry with track :=
    { entry.track with chunks := entry.track.chunks.settle position } }

/-- Placing the newest chunk changes its offset only. -/
theorem newestFirst_settle {table : ChunkTable} {chunk : Chunk}
    {older : List Chunk} (hchunks : table.newestFirst = chunk :: older)
    (hpending : table.pending ≠ []) (position : Nat) :
    (table.settle position).newestFirst
      = { chunk with offset := position } :: older := by
  unfold ChunkTable.settle ChunkTable.place
  rw [if_neg (by simpa using hpending), hchunks]

/-- Bytes that are held back are those of the newest chunk, and then
there is one. -/
theorem Sound.exists_held {entry : Entry} (h : entry.Sound)
    (htidy : entry.Tidy) (hpending : entry.track.chunks.pending ≠ []) :
    ∃ chunk older units rest,
      entry.track.chunks.newestFirst = chunk :: older
        ∧ entry.parts = units :: rest
        ∧ entry.track.chunks.pending = payload units
        ∧ chunk.SumsUp units ∧ List.Forall₂ Chunk.SumsUp older rest := by
  have hheld : entry.track.chunks.pending
      = payload (entry.parts.headD []) := htidy.resolve_left hpending
  have hopen : entry.track.chunks.newestFirst ≠ [] := by
    intro hnil
    have hchunks := h.chunks
    rw [hnil] at hchunks
    rw [List.forall₂_nil_left_iff.mp hchunks] at hheld
    exact hpending hheld
  obtain ⟨chunk, older, units, rest, hnewest, hparts, hsums, hrest⟩ :=
    h.exists_newest hopen
  rw [hparts] at hheld
  exact ⟨chunk, older, units, rest, hnewest, hparts, hheld, hsums, hrest⟩

theorem Sound.settle {entry : Entry} (h : entry.Sound)
    (htidy : entry.Tidy) (position : Nat) :
    (entry.settle position).Sound := by
  refine ⟨h.fixed, h.samples, h.small, ?_, h.units⟩
  show List.Forall₂ _ (entry.track.chunks.settle position).newestFirst
    entry.parts
  by_cases hpending : entry.track.chunks.pending = []
  · rw [ChunkTable.settle_of_pending_nil hpending]
    exact h.chunks
  obtain ⟨chunk, older, units, rest, hnewest, hparts, hheld, hsums,
    hrest⟩ := h.exists_held htidy hpending
  have hunits : payload units ≠ [] := by
    rw [← hheld]
    exact hpending
  rw [newestFirst_settle hnewest hpending, hparts]
  exact .cons (hsums.moveTo hunits position) hrest

/-- Settling adds what was held back to the blocks in the file. -/
theorem stored_settle {entry : Entry} (h : entry.Sound)
    (htidy : entry.Tidy) (position : Nat) :
    (entry.settle position).stored
      = Block.place position entry.track.chunks.pending
          ++ entry.stored := by
  by_cases hpending : entry.track.chunks.pending = []
  · have hsame : entry.settle position = entry := by
      unfold Entry.settle
      rw [ChunkTable.settle_of_pending_nil hpending]
    rw [hsame, hpending, Block.place_nil, List.nil_append]
  obtain ⟨chunk, older, units, rest, hnewest, hparts, hheld, _, _⟩ :=
    h.exists_held htidy hpending
  have hpayload : payload units ≠ [] := by
    rw [← hheld]
    exact hpending
  have hafter : (entry.settle position).stored
      = (Chunk.blocks (entry.track.chunks.settle position).newestFirst
          entry.parts).filter Block.isFilled := by
    unfold stored closed Entry.settle
    dsimp only
    rw [ChunkTable.pending_settle]
    rfl
  have hbefore : entry.stored
      = (Chunk.blocks older rest).filter Block.isFilled := by
    unfold stored closed
    dsimp only
    rw [if_neg (by simpa using hpending), hnewest, hparts]
    rfl
  have hfilled : Block.isFilled ⟨position, payload units⟩ = true := by
    unfold Block.isFilled
    simpa using hpayload
  have hsettled := newestFirst_settle hnewest hpending position
  rw [hafter, hbefore, hsettled, hparts, hheld,
    Block.place_of_ne_nil hpayload]
  show List.filter _ (⟨position, payload units⟩
    :: Chunk.blocks older rest) = _
  rw [List.filter_cons_of_pos hfilled]
  rfl

theorem pending_settle (entry : Entry) (position : Nat) :
    (entry.settle position).track.chunks.pending = [] :=
  ChunkTable.pending_settle position entry.track.chunks

-- ================================================================ opening

/-- A chunk without units is opened. -/
def startChunk (entry : Entry) : Entry :=
  { entry with
    track := { entry.track with chunks := entry.track.chunks.openChunk }
    parts := [] :: entry.parts }

theorem Sound.startChunk {entry : Entry} (h : entry.Sound) :
    entry.startChunk.Sound where
  fixed := h.fixed
  samples := h.samples
  small := h.small
  chunks := .cons Chunk.sumsUp_empty h.chunks
  units := by
    show ([] :: entry.parts).reverse.flatten = _
    rw [List.reverse_cons, List.flatten_append, h.units]
    exact List.append_nil _

/-- A new chunk holds nothing back once the older ones are settled. -/
theorem held_startChunk {entry : Entry}
    (h : entry.track.chunks.pending = []) : entry.startChunk.Held := h

theorem stored_startChunk {entry : Entry}
    (h : entry.track.chunks.pending = []) :
    entry.startChunk.stored = entry.stored := by
  rw [stored_of_held (held_startChunk h)]
  unfold stored closed
  dsimp only
  rw [h]
  rfl

-- ============================================================== extending

/-- A unit joins the newest chunk and the tables. -/
def extend (data : Bytes) (duration : UInt32) (entry : Entry) : Entry where
  track := Track.record (UInt32.ofNat data.length) duration
    { entry.track with chunks := entry.track.chunks.extend data duration }
  intake := { entry.intake with
    units := entry.intake.units ++ [⟨data, duration⟩] }
  parts :=
    match entry.parts with
    | [] => []
    | units :: older => (units ++ [⟨data, duration⟩]) :: older

theorem Sound.extend {entry : Entry} (h : entry.Sound)
    (hopen : entry.track.chunks.newestFirst ≠ []) {data : Bytes}
    (hdata : data.length ≤ Box.maxWord32) (duration : UInt32) :
    (entry.extend data duration).Sound := by
  obtain ⟨chunk, older, units, rest, hnewest, hparts, hsums, hrest⟩ :=
    h.exists_newest hopen
  refine ⟨h.fixed, ?_, ?_, ?_, ?_⟩
  · show (⟨UInt32.ofNat data.length, duration⟩ : Sample)
      :: entry.track.samples.newestFirst = _
    rw [h.samples]
    show _ = List.reverse (List.map _ (entry.intake.units ++ [_]))
    rw [List.map_append, List.reverse_append]
    rfl
  · intro unit hunit
    rcases List.mem_append.mp hunit with hold | hnew
    · exact h.small unit hold
    · rw [List.mem_singleton.mp hnew]
      exact hdata
  · show List.Forall₂ _ (entry.track.chunks.extend data duration).newestFirst
      (Entry.extend data duration entry).parts
    unfold ChunkTable.extend Entry.extend
    rw [hnewest, hparts]
    exact .cons (hsums.add ⟨data, duration⟩) hrest
  · have hunits := h.units
    show (Entry.extend data duration entry).parts.reverse.flatten
      = entry.intake.units ++ [⟨data, duration⟩]
    unfold Entry.extend
    rw [hparts] at hunits ⊢
    simp only [List.reverse_cons, List.flatten_append, List.flatten_cons,
      List.flatten_nil, List.append_nil] at hunits ⊢
    rw [← hunits, List.append_assoc]

theorem Held.extend {entry : Entry} (hheld : entry.Held) (h : entry.Sound)
    (hopen : entry.track.chunks.newestFirst ≠ []) (data : Bytes)
    (duration : UInt32) : (entry.extend data duration).Held := by
  obtain ⟨chunk, older, units, rest, hnewest, hparts, _, _⟩ :=
    h.exists_newest hopen
  unfold Held at hheld ⊢
  show (entry.track.chunks.extend data duration).pending
    = payload ((Entry.extend data duration entry).parts.headD [])
  unfold ChunkTable.extend Entry.extend
  rw [hparts] at hheld ⊢
  rw [hnewest]
  show entry.track.chunks.pending ++ data = payload (units ++ [_])
  rw [hheld, AccessUnit.payload_concat]
  rfl

/-- What joins the newest chunk is held back. -/
theorem stored_extend {entry : Entry} (h : entry.Sound)
    (hheld : entry.Held) (hopen : entry.track.chunks.newestFirst ≠ [])
    (data : Bytes) (duration : UInt32) :
    (entry.extend data duration).stored = entry.stored := by
  obtain ⟨chunk, older, units, rest, hnewest, hparts, _, _⟩ :=
    h.exists_newest hopen
  rw [stored_of_held hheld,
    stored_of_held (hheld.extend h hopen data duration)]
  show (Chunk.blocks (entry.track.chunks.extend data duration).newestFirst
    (Entry.extend data duration entry).parts).tail.filter _ = _
  unfold ChunkTable.extend Entry.extend
  rw [hnewest, hparts]
  rfl

-- ================================================================ samples

/-- The entry after a sample was appended, what it released being
written at a position. -/
def grow (data : Bytes) (duration : UInt32) (position : Nat)
    (entry : Entry) : Entry :=
  if entry.track.chunks.needsNewChunk duration entry.track.timescale then
    (entry.settle position).startChunk.extend data duration
  else entry.extend data duration

theorem track_grow (data : Bytes) (duration : UInt32) (position : Nat)
    (entry : Entry) :
    (entry.grow data duration position).track
      = entry.track.grown data duration position := by
  unfold grow Track.grown Track.withRoom
  split <;> rfl

theorem intake_grow (data : Bytes) (duration : UInt32) (position : Nat)
    (entry : Entry) :
    (entry.grow data duration position).intake
      = { entry.intake with
          units := entry.intake.units ++ [⟨data, duration⟩] } := by
  unfold grow
  split <;> rfl

theorem Sound.grow {entry : Entry} (h : entry.Sound) (hheld : entry.Held)
    {data : Bytes} (hdata : data.length ≤ Box.maxWord32)
    (duration : UInt32) (position : Nat) :
    (entry.grow data duration position).Sound := by
  unfold Entry.grow
  split
  · exact (h.settle (Or.inr hheld) position).startChunk.extend
      (List.cons_ne_nil _ _) hdata duration
  · next hroom => exact h.extend (ChunkTable.newestFirst_of_fits hroom) hdata duration

theorem Held.grow {entry : Entry} (hheld : entry.Held) (h : entry.Sound)
    (data : Bytes) (duration : UInt32) (position : Nat) :
    (entry.grow data duration position).Held := by
  unfold Entry.grow
  split
  · exact (held_startChunk (pending_settle entry position)).extend
      (h.settle (Or.inr hheld) position).startChunk (List.cons_ne_nil _ _)
      data duration
  · next hroom =>
    exact hheld.extend h (ChunkTable.newestFirst_of_fits hroom) data duration

/-- A sample adds what it releases to the blocks in the file. -/
theorem stored_grow {entry : Entry} (h : entry.Sound) (hheld : entry.Held)
    (data : Bytes) (duration : UInt32) (position : Nat) :
    (entry.grow data duration position).stored
      = Block.place position (entry.track.released duration)
          ++ entry.stored := by
  unfold grow Track.released
  split
  · have hpending := pending_settle entry position
    rw [stored_extend (h.settle (Or.inr hheld) position).startChunk
        (held_startChunk hpending) (List.cons_ne_nil _ _),
      stored_startChunk hpending, stored_settle h (Or.inr hheld)]
  · next hroom =>
    rw [stored_extend h hheld (ChunkTable.newestFirst_of_fits hroom)]
    rfl

/-- The entry once the track is finished, what it held back being
written at a position. -/
def finish (position : Nat) (entry : Entry) : Entry :=
  { entry with track := entry.track.finished position }

theorem Sound.finish {entry : Entry} (h : entry.Sound)
    (htidy : entry.Tidy) (position : Nat) :
    (entry.finish position).Sound :=
  let hsettle := h.settle htidy position
  ⟨hsettle.fixed, hsettle.samples, hsettle.small, hsettle.chunks,
    hsettle.units⟩

theorem pending_finish (entry : Entry) (position : Nat) :
    (entry.finish position).track.chunks.pending = [] :=
  ChunkTable.pending_settle position entry.track.chunks

theorem stored_finish {entry : Entry} (h : entry.Sound)
    (htidy : entry.Tidy) (position : Nat) :
    (entry.finish position).stored
      = Block.place position entry.track.chunks.pending ++ entry.stored :=
  stored_settle h htidy position

end Entry

end AudioMux

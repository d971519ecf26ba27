/-
What the movie box has to do with the distance its chunks are moved by.

The distance shows in the chunk offsets alone, and in their width: a
track's offsets take 64 bits from some distance on, and stay wide for
every larger one. So the movie box grows with the distance and only
where a track becomes wide (`length_movie_le`). Moving the chunks first
and building the movie box then is the same as building it for the
distance (`movie_shift`).
-/
import AudioMux.Muxer.Finalize
import AudioMux.Proofs.Box.Size

namespace AudioMux

open Box

-- ============================================================ no longer than

namespace Box

/-- Two boxes, the first of which is no longer than the second, as
declared and in fact. -/
structure NoLonger {α : Type} [Format α] (box box' : α) : Prop where
  size : Format.size box ≤ Format.size box'
  content : (content box).length ≤ (content box').length

section
variable {α : Type} [Format α] {box box' : α}

theorem NoLonger.encode (h : NoLonger box box') :
    (encode box).length ≤ (encode box').length := by
  have hsize := h.size
  have hcontent := h.content
  unfold Box.encode
  rw [List.length_append, List.length_append]
  by_cases hsmall : Format.size box ≤ maxWord32
  · rw [length_header_small _ hsmall]
    by_cases hsmall' : Format.size box' ≤ maxWord32
    · rw [length_header_small _ hsmall']
      omega
    · rw [length_header_large _ (by omega)]
      omega
  · rw [length_header_large _ (by omega), length_header_large _ (by omega)]
    omega

/-- Lists of boxes that are no longer one by one. -/
theorem noLonger_mapIdx {ι : Type} {f f' : Nat → ι → α} {l : List ι}
    (h : ∀ i, ∀ a ∈ l, NoLonger (f i a) (f' i a)) :
    sizeList (l.mapIdx f) ≤ sizeList (l.mapIdx f')
      ∧ (encodeList (l.mapIdx f)).length
        ≤ (encodeList (l.mapIdx f')).length := by
  induction l generalizing f f' with
  | nil => exact ⟨Nat.le_refl _, Nat.le_refl _⟩
  | cons a l ih =>
      obtain ⟨hsize, hlength⟩ := ih fun i b hb =>
        h (i + 1) b (List.mem_cons_of_mem a hb)
      have hfirst := h 0 a List.mem_cons_self
      have hfirst' := hfirst.encode
      rw [List.mapIdx_cons, List.mapIdx_cons]
      constructor
      · exact Nat.add_le_add hfirst.size hsize
      · show (Box.encode _ ++ encodeList _).length
          ≤ (Box.encode _ ++ encodeList _).length
        rw [List.length_append, List.length_append]
        exact Nat.add_le_add hfirst' hlength

end

end Box

-- =================================================================== offsets

namespace ChunkTable

/-- Whether the offsets need 64 bits once the chunks are moved. -/
def IsWideAt (table : ChunkTable) (distance : Nat) : Prop :=
  ∃ chunk, table.newest? = some chunk
    ∧ maxWord32 < chunk.offset + distance

theorem IsWideAt.mono {table : ChunkTable} {distance distance' : Nat}
    (h : table.IsWideAt distance) (hle : distance ≤ distance') :
    table.IsWideAt distance' := by
  obtain ⟨chunk, hnewest, hwide⟩ := h
  exact ⟨chunk, hnewest, by omega⟩

theorem offsets_wide {table : ChunkTable} {distance : Nat}
    (h : table.IsWideAt distance) :
    table.offsets distance = .wide
      (table.toList.map fun chunk =>
        UInt64.ofNat (chunk.offset + distance)) := by
  obtain ⟨chunk, hnewest, hwide⟩ := h
  unfold newest? at hnewest
  unfold offsets
  cases hchunks : table.newestFirst with
  | nil =>
      rw [hchunks] at hnewest
      cases hnewest
  | cons first older =>
      rw [hchunks] at hnewest
      cases hnewest
      dsimp only
      rw [if_pos hwide, List.map_map]
      rfl

theorem offsets_narrow {table : ChunkTable} {distance : Nat}
    (h : ¬ table.IsWideAt distance) :
    table.offsets distance = .narrow
      (table.toList.map fun chunk =>
        UInt32.ofNat (chunk.offset + distance)) := by
  unfold offsets
  cases hchunks : table.newestFirst with
  | nil =>
      have hnil : table.toList = [] := by
        unfold toList
        rw [hchunks]
        rfl
      rw [hnil]
      rfl
  | cons first older =>
      have hnarrow : ¬ maxWord32 < first.offset + distance := by
        intro hwide
        refine h ⟨first, ?_, hwide⟩
        unfold newest?
        rw [hchunks]
        rfl
      dsimp only
      rw [if_neg hnarrow, List.map_map]
      rfl

/-- Offsets are no longer at a distance at which they are no wider. -/
theorem noLonger_offsets {table : ChunkTable} {distance distance' : Nat}
    (h : table.IsWideAt distance → table.IsWideAt distance') :
    NoLonger (table.offsets distance) (table.offsets distance') := by
  have hwide : ∀ offsets : List UInt64,
      (content (ChunkOffsets.wide offsets)).length
        = 8 + 8 * offsets.length := by
    intro offsets
    simp [content, Format.full?, Format.body,
      length_countedList Bytes.length_word64]
    omega
  have hnarrow : ∀ offsets : List UInt32,
      (content (ChunkOffsets.narrow offsets)).length
        = 8 + 4 * offsets.length := by
    intro offsets
    simp [content, Format.full?, Format.body,
      length_countedList Bytes.length_word32]
    omega
  by_cases hfar : table.IsWideAt distance'
  · rw [offsets_wide hfar]
    by_cases hnear : table.IsWideAt distance
    · rw [offsets_wide hnear]
      constructor
      · simp [Format.size]
      · refine Nat.le_of_eq ?_
        rw [hwide, hwide, List.length_map, List.length_map]
    · rw [offsets_narrow hnear]
      constructor
      · simp only [Format.size, List.length_map]
        omega
      · rw [hwide, hnarrow, List.length_map, List.length_map]
        omega
  · rw [offsets_narrow hfar, offsets_narrow fun hnear => hfar (h hnear)]
    constructor
    · simp [Format.size]
    · refine Nat.le_of_eq ?_
      rw [hnarrow, hnarrow, List.length_map, List.length_map]

theorem isWideAt_shift {table : ChunkTable} {gap distance : Nat} :
    (table.shift gap).IsWideAt distance
      ↔ table.IsWideAt (gap + distance) := by
  unfold IsWideAt newest? shift
  rw [List.head?_map]
  constructor
  · rintro ⟨moved, hmoved, hwide⟩
    obtain ⟨chunk, hchunk, rfl⟩ := Option.map_eq_some_iff.mp hmoved
    exact ⟨chunk, hchunk, by rw [← Nat.add_assoc]; exact hwide⟩
  · rintro ⟨chunk, hchunk, hwide⟩
    refine ⟨_, Option.map_eq_some_iff.mpr ⟨chunk, hchunk, rfl⟩, ?_⟩
    rw [← Nat.add_assoc] at hwide
    exact hwide

/-- Moving the chunks and asking at a distance from there comes to the
same as asking at both distances together. -/
theorem offsets_shift (table : ChunkTable) (gap distance : Nat) :
    (table.shift gap).offsets distance = table.offsets (gap + distance) := by
  have hmoved : ∀ {β : Type} (f : Nat → β),
      (table.shift gap).toList.map (fun chunk => f (chunk.offset + distance))
        = table.toList.map
          (fun chunk => f (chunk.offset + (gap + distance))) := by
    intro β f
    unfold toList shift
    rw [← List.map_reverse, List.map_map]
    refine List.map_congr_left fun chunk _ => congrArg f ?_
    exact Nat.add_assoc _ _ _
  by_cases h : table.IsWideAt (gap + distance)
  · rw [offsets_wide h, offsets_wide (isWideAt_shift.mpr h), hmoved]
  · rw [offsets_narrow h,
      offsets_narrow fun hshift => h (isWideAt_shift.mp hshift), hmoved]

/-- How many samples the chunks hold does not depend on where they
are. -/
theorem sampleRuns_map {move : Chunk → Chunk}
    (h : ∀ chunk, (move chunk).samples = chunk.samples)
    (chunks : List Chunk) (number : Nat) (previous? : Option Nat) :
    sampleRuns number previous? (chunks.map move)
      = sampleRuns number previous? chunks := by
  induction chunks generalizing number previous? with
  | nil => rfl
  | cons chunk rest ih =>
      rw [List.map_cons]
      unfold sampleRuns
      rw [ih, h]

theorem sampleToChunk_shift (table : ChunkTable) (gap : Nat) :
    (table.shift gap).sampleToChunk = table.sampleToChunk := by
  unfold sampleToChunk toList shift
  rw [← List.map_reverse]
  refine congrArg Box.SampleToChunk.mk (sampleRuns_map ?_ _ _ _)
  exact fun _ => rfl

end ChunkTable

-- ==================================================================== levels

namespace Track

/-- Whether the track's offsets need 64 bits at a distance. -/
def IsWideAt (track : Track) (distance : Nat) : Prop :=
  track.chunks.IsWideAt distance

theorem noLonger_sampleTables {track : Track} {distance distance' : Nat}
    (h : track.IsWideAt distance → track.IsWideAt distance')
    (signaled : Bool) :
    NoLonger (track.sampleTables signaled distance)
      (track.sampleTables signaled distance') := by
  have hoffsets := ChunkTable.noLonger_offsets h
  have hencode := hoffsets.encode
  constructor
  · exact Nat.add_le_add_left hoffsets.size _
  · simp only [content, Format.full?, Format.body, Option.elim,
      List.nil_append, List.length_append]
    exact Nat.add_le_add_left hencode _

end Track

namespace Muxer

variable {σ : Type} (muxer : Muxer σ)

theorem noLonger_trackBox {track : Track} {distance distance' : Nat}
    (h : track.IsWideAt distance → track.IsWideAt distance')
    (index : Nat) :
    NoLonger (muxer.trackBox distance index track)
      (muxer.trackBox distance' index track) := by
  have htables := Track.noLonger_sampleTables h
    (muxer.signalsPriming track)
  have hinformation : NoLonger
      (muxer.trackBox distance index track).media.information
      (muxer.trackBox distance' index track).media.information := by
    constructor
    · exact Nat.add_le_add_left htables.size _
    · simp only [content, Format.full?, Format.body, Option.elim,
        List.nil_append, List.length_append]
      exact Nat.add_le_add_left htables.encode _
  have hmedia : NoLonger (muxer.trackBox distance index track).media
      (muxer.trackBox distance' index track).media := by
    constructor
    · exact Nat.add_le_add_left hinformation.size _
    · simp only [content, Format.full?, Format.body, Option.elim,
        List.nil_append, List.length_append]
      exact Nat.add_le_add_left hinformation.encode _
  constructor
  · exact Nat.add_le_add_left hmedia.size _
  · simp only [content, Format.full?, Format.body, Option.elim,
      List.nil_append, List.length_append]
    exact Nat.add_le_add_left hmedia.encode _

/-- The header of the movie does not depend on the distance. -/
theorem header_movie (distance : Nat) :
    (muxer.movie distance).header = (muxer.movie 0).header := by
  have hlongest : ∀ (l : List Track) (f f' : Nat → Track → TrackBox)
      (longest : UInt64),
      (∀ i track, (f i track).header = (f' i track).header) →
      (l.mapIdx f).foldl
          (fun longest track => max longest track.header.duration) longest
        = (l.mapIdx f').foldl
          (fun longest track => max longest track.header.duration)
          longest := by
    intro l
    induction l with
    | nil => intro f f' longest _; rfl
    | cons track l ih =>
        intro f f' longest hheader
        rw [List.mapIdx_cons, List.mapIdx_cons, List.foldl_cons,
          List.foldl_cons, hheader 0 track]
        exact ih _ _ _ fun i => hheader (i + 1)
  unfold movie trackBoxes
  dsimp only
  rw [hlongest muxer.tracks (muxer.trackBox distance) (muxer.trackBox 0) 0
    fun _ _ => rfl]

/-- A movie box is no longer at a distance at which no track is wider. -/
theorem noLonger_movie {distance distance' : Nat}
    (h : ∀ track ∈ muxer.tracks,
      track.IsWideAt distance → track.IsWideAt distance') :
    NoLonger (muxer.movie distance) (muxer.movie distance') := by
  have hboxes : ∀ index, ∀ track ∈ muxer.tracks,
      NoLonger (muxer.trackBox distance index track)
        (muxer.trackBox distance' index track) :=
    fun index track htrack => muxer.noLonger_trackBox (h track htrack) index
  obtain ⟨hsize, hlength⟩ := noLonger_mapIdx hboxes
  have hheader : (muxer.movie distance).header
      = (muxer.movie distance').header := by
    rw [header_movie, header_movie muxer distance']
  constructor
  · show 8 + Format.size (muxer.movie distance).header +
        sizeList (muxer.trackBoxes distance) + _
      ≤ 8 + Format.size (muxer.movie distance').header +
        sizeList (muxer.trackBoxes distance') + _
    rw [hheader]
    exact Nat.add_le_add_right (Nat.add_le_add_left hsize _) _
  · simp only [content, Format.full?, Format.body, Option.elim,
      List.nil_append, List.length_append]
    rw [hheader]
    exact Nat.add_le_add_right (Nat.add_le_add_left hlength _) _

/-- The movie box grows with the distance. -/
theorem length_movie_le {distance distance' : Nat}
    (h : distance ≤ distance') :
    (encode (muxer.movie distance)).length
      ≤ (encode (muxer.movie distance')).length :=
  (muxer.noLonger_movie fun _ _ hwide => hwide.mono h).encode

-- =================================================================== probing

omit muxer in
/-- A probe that bytes are written to measures their length. -/
theorem measure_writeAll (bytes : Bytes) :
    Probe.measure (Sink.writeAll bytes) = bytes.length := by
  unfold Sink.writeAll
  by_cases h : bytes.isEmpty = true
  · rw [if_pos h, List.isEmpty_iff.mp h]
    rfl
  · rw [if_neg h]
    show max 0 (0 + bytes.length) = bytes.length
    omega

/-- The probe measures the length of the box. -/
theorem movieSize_eq (distance : Nat) :
    muxer.movieSize distance = (encode (muxer.movie distance)).length :=
  measure_writeAll (encode (muxer.movie distance))

-- ================================================================== shifting

/-- The muxer with its chunks moved. -/
def shift (gap : Nat) : Muxer σ :=
  { muxer with
    tracks := muxer.tracks.map fun track =>
      { track with chunks := track.chunks.shift gap }
    mediaStart := muxer.mediaStart + gap }

theorem trackBox_shift (gap index : Nat) (track : Track) :
    (muxer.shift gap).trackBox 0 index
        { track with chunks := track.chunks.shift gap }
      = muxer.trackBox gap index track := by
  have htables : Track.sampleTables
        { track with chunks := track.chunks.shift gap }
        (muxer.signalsPriming track) 0
      = track.sampleTables (muxer.signalsPriming track) gap := by
    unfold Track.sampleTables
    rw [ChunkTable.offsets_shift, ChunkTable.sampleToChunk_shift]
    rfl
  exact congrArg (fun tables : SampleTables =>
    (⟨muxer.trackHeader index track,
      if muxer.signalsPriming track then some (muxer.primingEdits track)
        else none,
      ⟨muxer.mediaHeader track, .ofKind track.handlerKind,
        ⟨if track.handlerKind = .audio then some ⟨0⟩ else none,
          .selfContained, tables⟩⟩⟩ : TrackBox)) htables

/-- Moving the chunks and measuring from there comes to the same. -/
theorem movie_shift (gap : Nat) :
    (muxer.shift gap).movie 0 = muxer.movie gap := by
  have hboxes : (muxer.shift gap).trackBoxes 0 = muxer.trackBoxes gap := by
    unfold trackBoxes shift
    dsimp only
    refine List.ext_getElem? fun index => ?_
    rw [List.getElem?_mapIdx, List.getElem?_mapIdx, List.getElem?_map]
    cases muxer.tracks[index]? with
    | none => rfl
    | some track => exact congrArg some (muxer.trackBox_shift gap index track)
  have hcount : (muxer.shift gap).tracks.length = muxer.tracks.length :=
    List.length_map _
  unfold movie
  rw [hboxes, hcount]
  rfl

end Muxer

end AudioMux

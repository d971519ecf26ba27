/-
Whether the box of chunk offsets says where the chunks are.

The newest chunk decides how wide the offsets are. That is enough as long
as no chunk lies further than the newest one, and a track whose samples go
into chunks one after the other keeps it so (`Rising`): each chunk that is
written starts where the cursor stands, behind all that was written before.
But a chunk without any bytes is never written, and its offset stays zero.
If the newest chunk is one of these it says nothing about the others, and
offsets past 32 bits are cut off (`offsets_cut_off`).

So the box can be relied on exactly if the newest chunk was written, or all
offsets are small anyway, or so large that even an offset of zero is moved
past 32 bits (`ChunkTable.DecidedAt`, `offsets_exact_iff`).
-/
import AudioMux.Proofs.Box.Read
import AudioMux.Proofs.Muxer.Distance
import AudioMux.Proofs.Muxer.Mirror
import AudioMux.Proofs.Muxer.Region

namespace AudioMux

open Box (maxWord32)
open AccessUnit (payload)
open AudioMux.Action (after)

-- ================================================================== widths

namespace ChunkTable

/-- All chunks lie below 32 bits once they are moved. -/
def FitsAt (table : ChunkTable) (distance : Nat) : Prop :=
  ∀ chunk ∈ table.toList, chunk.offset + distance ≤ maxWord32

/-- The newest chunk is right about how wide the offsets have to be: it was
written, or the distance alone is past 32 bits, or all offsets are small. -/
def DecidedAt (table : ChunkTable) (distance : Nat) : Prop :=
  (∃ newest, table.newest? = some newest ∧ newest.size ≠ 0)
    ∨ maxWord32 < distance
    ∨ table.FitsAt distance

/-- The offsets are told as they are if they are wide, or small. -/
theorem toList_offsets_iff {table : ChunkTable} {distance : Nat}
    (hrange : ∀ chunk ∈ table.toList, chunk.offset + distance < 2 ^ 64) :
    (table.offsets distance).toList
        = table.toList.map (fun chunk => chunk.offset + distance)
      ↔ table.IsWideAt distance ∨ table.FitsAt distance := by
  by_cases hwide : table.IsWideAt distance
  · refine ⟨fun _ => Or.inl hwide, fun _ => ?_⟩
    rw [offsets_wide hwide]
    show (table.toList.map _).map UInt64.toNat = _
    rw [List.map_map]
    apply List.map_congr_left
    intro chunk hchunk
    exact UInt64.toNat_ofNat_of_lt' (hrange chunk hchunk)
  · rw [offsets_narrow hwide]
    show (table.toList.map _).map UInt32.toNat = _ ↔ _
    rw [List.map_map, List.map_inj_left]
    constructor
    · intro hsame
      refine Or.inr fun chunk hchunk => ?_
      have hkept := hsame chunk hchunk
      have hlt := (UInt32.ofNat (chunk.offset + distance)).toNat_lt
      simp only [Function.comp_apply] at hkept
      rw [hkept] at hlt
      unfold maxWord32
      omega
    · rintro (hwide' | hfits) chunk hchunk
      · exact absurd hwide' hwide
      · exact UInt32.toNat_ofNat_of_lt'
          (Nat.lt_of_le_of_lt (hfits chunk hchunk) (by decide))

/-- Narrow offsets are used for small ones only, if they are wide or
small. -/
theorem fitsAt_of_narrow_iff {table : ChunkTable} {distance : Nat} :
    ((table.offsets distance).isWide = false → table.FitsAt distance)
      ↔ table.IsWideAt distance ∨ table.FitsAt distance := by
  by_cases hwide : table.IsWideAt distance
  · rw [offsets_wide hwide]
    exact ⟨fun _ => Or.inl hwide, fun _ hnarrow => nomatch hnarrow⟩
  · rw [offsets_narrow hwide]
    constructor
    · intro hfits
      exact Or.inr (hfits rfl)
    · rintro (hwide' | hfits) _
      · exact absurd hwide' hwide
      · exact hfits

end ChunkTable

-- =================================================================== growth

namespace Entry

/-- Once all is written the newest chunk is the newest block in the file, if
there is anything in it. -/
theorem Sound.stored_of_newest {entry : Entry} (h : entry.Sound)
    (hpending : entry.track.chunks.pending = []) {newest : Chunk}
    (hnewest : entry.track.chunks.newest? = some newest)
    (hsize : newest.size ≠ 0) :
    ∃ older units rest, entry.track.chunks.newestFirst = newest :: older
      ∧ List.Forall₂ Chunk.SumsUp older rest
      ∧ entry.stored = ⟨newest.offset, payload units⟩
          :: (Chunk.blocks older rest).filter Block.isFilled := by
  obtain ⟨older, hchunks⟩ := List.head?_eq_some_iff.mp hnewest
  obtain ⟨first, older', units, rest, hchunks', hparts, hsums, hrest⟩ :=
    h.exists_newest (by rw [hchunks]; exact List.cons_ne_nil _ _)
  cases hchunks.symm.trans hchunks'
  have hfilled : Block.isFilled ⟨newest.offset, payload units⟩ = true := by
    rw [hsums.size] at hsize
    simpa [Block.isFilled] using hsize
  refine ⟨older, units, rest, hchunks, hrest, ?_⟩
  unfold Entry.stored Entry.closed
  rw [hpending, hchunks, hparts]
  exact List.filter_cons_of_pos hfilled

/-- The chunks of a track lie in the file in order, behind one another and
in front of the cursor. -/
structure Rising (entry : Entry) (cursor : Nat) : Prop where
  sound : entry.Sound
  behind : ∀ block ∈ entry.stored, block.endOf ≤ cursor
  ordered : entry.stored.Pairwise fun newer older =>
    older.endOf ≤ newer.offset

namespace Rising

variable {entry : Entry} {cursor : Nat}

/-- What is written at the cursor lies behind all the rest. -/
theorem store (h : entry.Rising cursor) {entry' : Entry}
    (hsound : entry'.Sound) {data : Bytes}
    (hstored : entry'.stored = Block.place cursor data ++ entry.stored) :
    entry'.Rising (cursor + data.length) := by
  by_cases hdata : data = []
  · subst hdata
    have hsame : entry'.stored = entry.stored := hstored
    exact ⟨hsound, hsame ▸ h.behind, hsame ▸ h.ordered⟩
  rw [Block.place_of_ne_nil hdata, List.singleton_append] at hstored
  refine ⟨hsound, ?_, ?_⟩
  · intro block hblock
    rw [hstored] at hblock
    rcases List.mem_cons.mp hblock with rfl | hold
    · exact Nat.le_refl _
    · exact Nat.le_trans (h.behind block hold) (Nat.le_add_right _ _)
  · rw [hstored]
    exact .cons h.behind h.ordered

theorem grow (h : entry.Rising cursor) (hheld : entry.Held) {data : Bytes}
    (hdata : data.length ≤ maxWord32) (duration : UInt32) :
    (entry.grow data duration cursor).Rising
      (cursor + (entry.track.released duration).length) :=
  h.store (h.sound.grow hheld hdata duration cursor)
    (stored_grow h.sound hheld data duration cursor)

theorem finish (h : entry.Rising cursor) (hheld : entry.Held) :
    (entry.finish cursor).Rising
      (cursor + entry.track.chunks.pending.length) :=
  h.store (h.sound.finish (Or.inr hheld) cursor)
    (stored_finish h.sound (Or.inr hheld) cursor)

/-- Once all is written no chunk lies further than the newest, if that one
was written at all. -/
theorem offset_le (h : entry.Rising cursor)
    (hpending : entry.track.chunks.pending = []) {newest : Chunk}
    (hnewest : entry.track.chunks.newest? = some newest)
    (hsize : newest.size ≠ 0) :
    ∀ chunk ∈ entry.track.chunks.toList, chunk.offset ≤ newest.offset := by
  obtain ⟨older, units, rest, hchunks, hrest, hstored⟩ :=
    h.sound.stored_of_newest hpending hnewest hsize
  have hordered := h.ordered
  rw [hstored] at hordered
  intro chunk hchunk
  unfold ChunkTable.toList at hchunk
  rw [List.mem_reverse, hchunks] at hchunk
  rcases List.mem_cons.mp hchunk with rfl | hold
  · exact Nat.le_refl _
  obtain ⟨units', _, hsums', hblock⟩ :=
    Chunk.exists_part (Chunk.forall₂_blocks hrest) hold
  by_cases hempty : payload units' = []
  -- A chunk without bytes was never given an offset.
  · rw [hsums'.unplaced hempty]
    exact Nat.zero_le _
  · have hmem : ⟨chunk.offset, payload units'⟩
        ∈ (Chunk.blocks older rest).filter Block.isFilled :=
      List.mem_filter.mpr ⟨hblock, by simpa [Block.isFilled] using hempty⟩
    have hend := List.rel_of_pairwise_cons hordered hmem
    unfold Block.endOf at hend
    exact Nat.le_trans (Nat.le_add_right _ _) hend

/-- Once all is written the newest chunk has an offset of zero, if it is
one without bytes. -/
theorem offset_eq_zero (h : entry.Rising cursor) {newest : Chunk}
    (hnewest : entry.track.chunks.newest? = some newest)
    (hsize : newest.size = 0) : newest.offset = 0 := by
  obtain ⟨units, _, hsums⟩ :=
    Chunk.exists_part h.sound.chunks (List.mem_of_mem_head? hnewest)
  rw [hsums.size] at hsize
  exact hsums.unplaced (List.length_eq_zero_iff.mp hsize)

/-- Once all is written the offsets are wide or small exactly if the newest
chunk is right about the width. -/
theorem wide_or_fits_iff (h : entry.Rising cursor)
    (hpending : entry.track.chunks.pending = []) (distance : Nat) :
    entry.track.chunks.IsWideAt distance
        ∨ entry.track.chunks.FitsAt distance
      ↔ entry.track.chunks.DecidedAt distance := by
  constructor
  · rintro (⟨newest, hnewest, hwide⟩ | hfits)
    · by_cases hsize : newest.size = 0
      · have hoffset := h.offset_eq_zero hnewest hsize
        exact Or.inr (Or.inl (by omega))
      · exact Or.inl ⟨newest, hnewest, hsize⟩
    · exact Or.inr (Or.inr hfits)
  · rintro (⟨newest, hnewest, hsize⟩ | hfar | hfits)
    · by_cases hwide : maxWord32 < newest.offset + distance
      · exact Or.inl ⟨newest, hnewest, hwide⟩
      · refine Or.inr fun chunk hchunk => ?_
        have hle := h.offset_le hpending hnewest hsize chunk hchunk
        omega
    · cases hnewest : entry.track.chunks.newest? with
      | none =>
          refine Or.inr fun chunk hchunk => ?_
          unfold ChunkTable.toList at hchunk
          rw [List.head?_eq_none_iff.mp hnewest] at hchunk
          cases hchunk
      | some newest => exact Or.inl ⟨newest, hnewest, by omega⟩
    · exact Or.inr hfits

end Rising

/-- A track without samples, and an account of it. -/
def blank (track : Track) : Entry :=
  ⟨track, ⟨track.fixedDuration?, []⟩, []⟩

theorem rising_blank {track : Track} (hsamples : track.samples = .empty)
    (hchunks : track.chunks = .empty) (cursor : Nat) :
    (blank track).Rising cursor ∧ (blank track).Held := by
  have hnone : (blank track).stored = [] := stored_of_blank hchunks
  refine ⟨⟨⟨rfl, ?_, nofun, ?_, rfl⟩, ?_, ?_⟩, ?_⟩
  · show track.samples.newestFirst = []
    rw [hsamples]
    rfl
  · show List.Forall₂ _ track.chunks.newestFirst []
    rw [hchunks]
    exact .nil
  · rw [hnone]
    nofun
  · rw [hnone]
    exact .nil
  · show track.chunks.pending = []
    rw [hchunks]
    rfl

end Entry

-- ===================================================================== runs

namespace Track

section
variable {σ : Type} [Sink σ]

/-- Appends samples to a track, given by their data and duration, whatever
comes of each. -/
def feed (samples : List (Bytes × UInt32)) (state : Track × Output σ) :
    Track × Output σ :=
  samples.foldl
    (fun state sample => after (append sample.1 sample.2 state)) state

variable [FaithfulSink σ]

/-- A track whose chunks lie in order on the sink, the newest one still
held back. -/
def InOrder (state : Track × Output σ) : Prop :=
  ∃ (entry : Entry) (file : FlatFile), entry.track = state.1
    ∧ state.2.image = .ofSink file
    ∧ entry.Rising file.cursor ∧ entry.Held

variable [NeverFails σ]

/-- A chunk that is written on the way lies behind those before, and a
sample that is too large changes nothing. -/
theorem inOrder_append {state : Track × Output σ} (h : InOrder state)
    (data : Bytes) (duration : UInt32) :
    InOrder (after (append data duration state)) := by
  obtain ⟨track, out⟩ := state
  obtain ⟨entry, file, rfl, hout, hrising, hheld⟩ := h
  by_cases hdata : data.length ≤ maxWord32
  · have hflat := append_flat file entry.track duration hdata
    rw [← hout] at hflat
    obtain ⟨_, ⟨track, out'⟩, hok, _, himage⟩ :=
      (mirrors_append data duration).exists_ok
        (s := (entry.track, out)) ‹NeverFails σ› hflat
    obtain ⟨htrack, hout'⟩ := Prod.mk.inj himage
    rw [hok]
    refine ⟨entry.grow data (entry.track.durationInForce duration)
      file.cursor, _, ?_, hout', hrising.grow hheld hdata _,
      hheld.grow hrising.sound data _ _⟩
    rw [Entry.track_grow]
    exact htrack.symm
  · rw [append_too_large entry.track duration (Nat.lt_of_not_le hdata) out]
    exact ⟨entry, file, rfl, hout, hrising, hheld⟩

theorem inOrder_feed (samples : List (Bytes × UInt32))
    {state : Track × Output σ} (h : InOrder state) :
    InOrder (feed samples state) := by
  induction samples generalizing state with
  | nil => exact h
  | cons sample samples ih => exact ih (inOrder_append h sample.1 sample.2)

/-- The last chunk is written like those before. -/
theorem rising_of_finish {state : Track × Output σ} (h : InOrder state) :
    ∃ (flushed : Nat) (entry : Entry) (out : Output σ) (cursor : Nat),
      finish state = .ok flushed (entry.track, out)
        ∧ entry.Rising cursor ∧ entry.track.chunks.pending = [] := by
  obtain ⟨track, out⟩ := state
  obtain ⟨entry, file, rfl, hout, hrising, hheld⟩ := h
  have hflat := finish_flat file entry.track
  rw [← hout] at hflat
  obtain ⟨flushed, ⟨done, out'⟩, hok, _, himage⟩ :=
    mirrors_finish.exists_ok (s := (entry.track, out)) ‹NeverFails σ› hflat
  have hdone : done = (entry.finish file.cursor).track :=
    (Prod.mk.inj himage).1
  subst hdone
  exact ⟨flushed, _, out', _, hok, hrising.finish hheld,
    Entry.pending_finish entry file.cursor⟩

-- ================================================================== results

/-- Whatever samples are appended to a track that has none, on a sink that
never fails and wherever its cursor stands: finishing the track succeeds,
and for each distance that no offset leaves 64 bits at, the box of chunk
offsets lists what the chunks' offsets are once they are moved by it exactly
if the newest chunk is right about the width, and exactly then narrow
offsets are used only if all of them are small. -/
theorem offsets_exact_iff {track : Track} {out : Output σ}
    (hsamples : track.samples = .empty) (hchunks : track.chunks = .empty)
    (hfault : out.fault? = none) (samples : List (Bytes × UInt32)) :
    ∃ flushed done out',
      finish (feed samples (track, out)) = .ok flushed (done, out')
        ∧ ∀ distance,
          (∀ chunk ∈ done.chunks.toList,
            chunk.offset + distance < 2 ^ 64) →
          ((done.chunks.offsets distance).toList
              = done.chunks.toList.map (fun chunk => chunk.offset + distance)
            ↔ done.chunks.DecidedAt distance)
          ∧ (((done.chunks.offsets distance).isWide = false →
                done.chunks.FitsAt distance)
            ↔ done.chunks.DecidedAt distance) := by
  obtain ⟨hblank, hheld⟩ := Entry.rising_blank hsamples hchunks
    (FaithfulSink.view out.sink).cursor
  have hstart : InOrder (track, out) :=
    ⟨.blank track, _, rfl, congrArg (Output.mk _) hfault, hblank, hheld⟩
  obtain ⟨flushed, entry, out', _, hok, hrising, hpending⟩ :=
    rising_of_finish (inOrder_feed samples hstart)
  refine ⟨flushed, entry.track, out', hok, fun distance hrange => ?_⟩
  have hsettles := hrising.wide_or_fits_iff hpending distance
  rw [ChunkTable.toList_offsets_iff hrange, ChunkTable.fitsAt_of_narrow_iff]
  exact ⟨hsettles, hsettles⟩

end

/-- A file whose cursor stands past 32 bits. -/
def farFile : FlatFile := ⟨[], 2 ^ 32⟩

/-- Two chunks past 32 bits, both with bytes. -/
theorem offsets_exact_farFile :
    ∃ flushed done out',
      finish (feed [([1, 2], 1), ([3], 1)]
          (Track.new .aac 2, Output.ofSink farFile))
        = .ok flushed (done, out')
      ∧ (done.chunks.offsets 0).toList = [2 ^ 32, 2 ^ 32 + 2] := by
  obtain ⟨flushed, done, out', hok, hexact⟩ :=
    @offsets_exact_iff FlatFile _ _ _ (Track.new .aac 2)
      (Output.ofSink farFile) rfl rfl rfl [([1, 2], 1), ([3], 1)]
  refine ⟨flushed, done, out', hok, ?_⟩
  have hstate := congrArg (fun result => (after result).1.chunks) hok
  have hchunks : done.chunks
      = ⟨[⟨2 ^ 32 + 2, 1, 1, 1⟩, ⟨2 ^ 32, 2, 1, 1⟩], []⟩ :=
    hstate.symm.trans (by decide +kernel)
  rw [hchunks] at hexact ⊢
  exact (hexact 0 (by decide)).1.mpr (Or.inl ⟨_, rfl, by decide⟩)

/-- The second chunk has no bytes, so its offset stays zero and the box is
narrow, although the first chunk lies past 32 bits. -/
theorem offsets_cut_off :
    ∃ flushed done out',
      finish (feed [([1, 2], 1), ([], 1)]
          (Track.new .aac 2, Output.ofSink farFile))
        = .ok flushed (done, out')
      ∧ done.chunks.toList.map (fun chunk => chunk.offset + 0) = [2 ^ 32, 0]
      ∧ (done.chunks.offsets 0).isWide = false
      ∧ (done.chunks.offsets 0).toList = [0, 0] :=
  ⟨_, _, _, rfl, by decide +kernel, by decide +kernel, by decide +kernel⟩

end Track

end AudioMux

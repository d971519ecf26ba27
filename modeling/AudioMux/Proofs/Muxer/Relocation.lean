/-
Making room in front of the media: the gap, and moving the media by it.

The gap is looked for in passes. Each pass measures the movie box for
the gap found before, and adds room for a free box. A pass fails only if
the movie box has grown since the last one, so at least one track has
turned wide (`wideTracks_lt`), and each track can do so once. With two
tracks the third pass settles (`relocationGap_ok`). The gap that is found
fits (`Fits`).

Moving the media is a move of memory: however large the blocks are, and
whether or not source and target overlap, the bytes end up where they
belong and nothing else changes (`moveBlocks_flat`).
-/
import Mathlib.Data.List.Basic
import AudioMux.Proofs.Muxer.Distance
import AudioMux.Proofs.Muxer.Flat

namespace AudioMux.Muxer

section
variable {σ : Type} (muxer : Muxer σ)

-- =================================================================== the gap

/-- A gap that holds the movie box exactly or leaves room for a free
box, and no more room than was meant to be left. -/
structure Fits (gap : Nat) : Prop where
  room : muxer.movieSize gap = gap ∨ muxer.movieSize gap + 8 ≤ gap
  slack : gap ≤ muxer.movieSize gap + headroom

theorem movieSize_mono {distance distance' : Nat}
    (h : distance ≤ distance') :
    muxer.movieSize distance ≤ muxer.movieSize distance' := by
  rw [movieSize_eq, movieSize_eq]
  exact muxer.length_movie_le h

/-- What the search settles for fits. Before each pass the gap leaves the
usual room for the movie box as it was measured at a smaller one. -/
theorem fits_of_settleGap {passes previous gap : Nat}
    (hprevious : previous ≤ muxer.movieSize previous + headroom)
    (h : muxer.settleGap (muxer.movieSize previous + headroom) passes
      = .ok gap) : muxer.Fits gap := by
  induction passes generalizing previous with
  | zero => cases h
  | succ passes ih =>
      have hgrown := muxer.movieSize_mono hprevious
      unfold settleGap at h
      dsimp only at h
      split at h
      · next hroom =>
        cases h
        exact ⟨hroom, by omega⟩
      · exact ih (by omega) h

theorem fits_of_relocationGap {gap : Nat}
    (h : muxer.relocationGap = .ok gap) : muxer.Fits gap :=
  muxer.fits_of_settleGap (Nat.zero_le _) h

/-- The tracks whose offsets need 64 bits at a distance. -/
def wideTracks (distance : Nat) : List Track :=
  muxer.tracks.filter fun track => (track.chunks.offsets distance).isWide

theorem isWide_offsets {track : Track} {distance : Nat} :
    (track.chunks.offsets distance).isWide = true
      ↔ track.IsWideAt distance := by
  unfold Track.IsWideAt
  by_cases h : track.chunks.IsWideAt distance
  · rw [ChunkTable.offsets_wide h]
    exact ⟨fun _ => h, fun _ => rfl⟩
  · rw [ChunkTable.offsets_narrow h]
    exact ⟨nofun, fun hwide => absurd hwide h⟩

theorem wideTracks_sublist {distance distance' : Nat}
    (h : distance ≤ distance') :
    (muxer.wideTracks distance).Sublist (muxer.wideTracks distance') :=
  List.monotone_filter_right _ fun _ hwide =>
    isWide_offsets.mpr ((isWide_offsets.mp hwide).mono h)

/-- A movie box that has grown with the distance has a track that has
turned wide. -/
theorem wideTracks_lt {distance distance' : Nat}
    (hle : distance ≤ distance')
    (h : muxer.movieSize distance < muxer.movieSize distance') :
    (muxer.wideTracks distance).length
      < (muxer.wideTracks distance').length := by
  have hsub := muxer.wideTracks_sublist hle
  rcases Nat.lt_or_eq_of_le hsub.length_le with hlt | heq
  · exact hlt
  -- With as many wide tracks as before they are the same tracks.
  · have hsame := hsub.eq_of_length heq
    have hback : ∀ track ∈ muxer.tracks,
        track.IsWideAt distance' → track.IsWideAt distance := by
      intro track htrack hwide
      have hmem : track ∈ muxer.wideTracks distance' :=
        List.mem_filter.mpr ⟨htrack, isWide_offsets.mpr hwide⟩
      rw [← hsame] at hmem
      exact isWide_offsets.mp (List.mem_filter.mp hmem).2
    have hshorter := (muxer.noLonger_movie hback).encode
    rw [← movieSize_eq, ← movieSize_eq] at hshorter
    omega

/-- As many passes as there are tracks left to turn wide, and one more,
are enough. -/
theorem settleGap_ok {passes previous : Nat}
    (hprevious : previous ≤ muxer.movieSize previous + headroom)
    (hpasses : muxer.tracks.length
      < passes + (muxer.wideTracks previous).length) :
    ∃ gap, muxer.settleGap (muxer.movieSize previous + headroom) passes
      = .ok gap := by
  induction passes generalizing previous with
  | zero =>
      have hcount : (muxer.wideTracks previous).length
          ≤ muxer.tracks.length := List.length_filter_le _ _
      omega
  | succ passes ih =>
      have hgrown := muxer.movieSize_mono hprevious
      unfold settleGap
      dsimp only
      split
      · exact ⟨_, rfl⟩
      · next hroom =>
        unfold headroom at *
        have hlt : muxer.movieSize previous
            < muxer.movieSize (muxer.movieSize previous + 1024) := by
          omega
        have hwide := muxer.wideTracks_lt hprevious hlt
        exact ih (by omega) (by omega)

/-- With at most two tracks a gap is found. -/
theorem relocationGap_ok (h : muxer.tracks.length ≤ 2) :
    ∃ gap, muxer.relocationGap = .ok gap :=
  muxer.settleGap_ok (Nat.zero_le _) (by unfold maxPasses; omega)

end

-- ================================================================= the move

/-- Moving the media moves its blocks and says that the chunks lie
further. -/
theorem moveMedia_eq_ok {σ : Type} [Sink σ] {muxer after : Muxer σ}
    {gap block : Nat} {u : Unit}
    (h : moveMedia gap block muxer = .ok u after) :
    ∃ out, moveBlocks muxer.mediaStart gap block muxer.mediaSize muxer.out
        = .ok () out
      ∧ after = { muxer.shift gap with out := out } := by
  obtain ⟨_, _, hget, h⟩ := Action.bind_eq_ok h
  cases hget
  obtain ⟨_, _, hrun, h⟩ := Action.bind_eq_ok h
  obtain ⟨out, hmove, rfl⟩ := onOutput_eq_ok hrun
  cases h
  exact ⟨out, hmove, rfl⟩

/-- One round moves the last block and leaves the bytes in front of
it. -/
theorem moveBlocks_round {start gap block remaining : Nat}
    (hblock : 0 < block) (hremaining : remaining ≠ 0) {file : FlatFile}
    (h : start + remaining ≤ file.bytes.length) :
    ∃ left, left < remaining
      ∧ moveBlocks start gap block remaining (.ofSink file)
        = moveBlocks start gap block left (.ofSink
          ((file.moveTo (start + left + gap)).write
            ((file.bytes.drop (start + left)).take
              (remaining - left)))) := by
  have hread : ∀ count,
      start + (remaining - count) + count ≤ file.bytes.length →
      Output.read count
          (.ofSink (file.moveTo (start + (remaining - count))))
        = .ok ((file.bytes.drop (start + (remaining - count))).take count)
          (.ofSink (file.moveTo (start + (remaining - count) + count))) :=
    fun count hcount => Output.read_flat (file.moveTo _) hcount
  refine ⟨remaining - min remaining block, by omega, ?_⟩
  rw [moveBlocks, if_neg (by omega),
    Action.apply_bind_ok (Output.seek_flat file _),
    Action.apply_bind_ok (hread _ (by omega)),
    Action.apply_bind_ok (Output.seek_flat _ _),
    Action.apply_bind_ok (Output.write_flat _ _)]
  have hcount : remaining - (remaining - min remaining block)
      = min remaining block := by omega
  rw [hcount]
  rfl

/-- Moving bytes in blocks, back to front, puts them where they belong
and changes nothing else. -/
theorem moveBlocks_flat {start block : Nat} (gap : Nat)
    (hblock : 0 < block) (remaining : Nat) (file : FlatFile)
    (h : start + remaining ≤ file.bytes.length) :
    ∃ cursor, moveBlocks start gap block remaining (.ofSink file)
      = .ok () (.ofSink ⟨file.bytes.overwrite (start + gap)
          ((file.bytes.drop start).take remaining), cursor⟩) := by
  induction remaining using Nat.strongRecOn generalizing file with
  | ind remaining ih =>
      by_cases hdone : remaining = 0
      · subst hdone
        refine ⟨file.cursor, ?_⟩
        rw [moveBlocks, if_pos (Or.inl rfl), List.take_zero,
          Bytes.overwrite_nil]
        rfl
      obtain ⟨left, hlt, hround⟩ := moveBlocks_round hblock hdone h
      generalize hlast : (file.bytes.drop (start + left)).take
        (remaining - left) = last at hround
      have hlastlen : last.length = remaining - left := by
        rw [← hlast, List.length_take, List.length_drop]
        omega
      have hne : last ≠ [] := by
        intro hnil
        rw [hnil, List.length_nil] at hlastlen
        omega
      -- The bytes in front of the last block are not written over.
      have hfront : ((file.bytes.overwrite (start + left + gap) last).drop
          start).take left = (file.bytes.drop start).take left :=
        Bytes.take_drop_overwrite (by omega) (by omega) last
      have hlength : start + left ≤ (file.bytes.overwrite
          (start + left + gap) last).length := by
        rw [Bytes.length_overwrite hne]
        omega
      obtain ⟨cursor, hrest⟩ := ih left hlt
        ((file.moveTo (start + left + gap)).write last) hlength
      refine ⟨cursor, ?_⟩
      rw [FlatFile.bytes_write] at hrest
      dsimp only [FlatFile.bytes_moveTo, FlatFile.cursor_moveTo] at hrest
      rw [hfront] at hrest
      have hfrontlen : ((file.bytes.drop start).take left).length
          = left := by
        rw [List.length_take, List.length_drop]
        omega
      have hsplit : (file.bytes.drop start).take remaining
          = (file.bytes.drop start).take left ++ last := by
        rw [← hlast, ← List.drop_drop, ← List.take_add]
        congr 1
        omega
      have hposition : start + left + gap
          = start + gap + ((file.bytes.drop start).take left).length := by
        omega
      rw [hround, hrest, hsplit, ← Bytes.overwrite_prepend, hposition]

end AudioMux.Muxer

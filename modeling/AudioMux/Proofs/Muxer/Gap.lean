/-
The search for a gap in front of the media finds one, and soon.

A gap is settled on when the movie box, measured for it, fills it exactly
or leaves room for a free box. A pass that does not settle has found a
movie box larger than the last one, so a track has turned wide since
(`wideTracks_lt`), and a track that is wide stays wide for every larger
gap. So the gaps measured and the tracks that were wide to begin with are
at most one more than there are tracks (`length_measuredGaps_le`): with two
tracks the third pass is the last.

What the search settles for can be relied on. The movie box that is
written once the media has moved is the one that was measured.
-/
import AudioMux.Proofs.Muxer.Relocation
import AudioMux.Proofs.Muxer.Session

namespace AudioMux

namespace Muxer

section
variable {σ : Type} (muxer : Muxer σ)

/-- The gaps that the movie box is measured for, in the order of the
passes. -/
def measuredGaps (gap : Nat) : Nat → List Nat
  | 0 => []
  | passes + 1 =>
    let size := muxer.movieSize gap
    if size = gap ∨ size + 8 ≤ gap then [gap]
    else gap :: measuredGaps (size + headroom) passes

/-- The search settles for the gap it measures last. -/
theorem getLast?_measuredGaps {passes gap found : Nat}
    (h : muxer.settleGap gap passes = .ok found) :
    (muxer.measuredGaps gap passes).getLast? = some found := by
  induction passes generalizing gap with
  | zero => cases h
  | succ passes ih =>
      unfold settleGap at h
      unfold measuredGaps
      dsimp only at h ⊢
      by_cases hroom : muxer.movieSize gap = gap
          ∨ muxer.movieSize gap + 8 ≤ gap
      · rw [if_pos hroom] at h ⊢
        cases h
        rfl
      · rw [if_neg hroom] at h ⊢
        rw [List.getLast?_cons, ih h]
        rfl

/-- Every pass but the last turns a track wide. -/
theorem length_measuredGaps_le {previous : Nat}
    (hprevious : previous ≤ muxer.movieSize previous + headroom)
    (passes : Nat) :
    (muxer.measuredGaps (muxer.movieSize previous + headroom) passes).length
        + (muxer.wideTracks previous).length
      ≤ muxer.tracks.length + 1 := by
  induction passes generalizing previous with
  | zero =>
      have hcount : (muxer.wideTracks previous).length
          ≤ muxer.tracks.length := List.length_filter_le _ _
      show 0 + (muxer.wideTracks previous).length ≤ _
      omega
  | succ passes ih =>
      have hgrown := muxer.movieSize_mono hprevious
      have hcount : (muxer.wideTracks previous).length
          ≤ muxer.tracks.length := List.length_filter_le _ _
      unfold measuredGaps
      dsimp only
      split
      · rw [List.length_singleton]
        omega
      · next hroom =>
        unfold headroom at *
        have hlt : muxer.movieSize previous
            < muxer.movieSize (muxer.movieSize previous + 1024) := by
          omega
        have hwide := muxer.wideTracks_lt hprevious hlt
        have hnext : muxer.movieSize previous + 1024
            ≤ muxer.movieSize (muxer.movieSize previous + 1024) + 1024 := by
          omega
        have hrest := ih hnext
        rw [List.length_cons]
        omega

-- ==================================================================== results

/-- With as many tracks as a file can have, and wherever their chunks lie,
the search for a gap ends well. It measures three movie boxes at most after
the first, and the last of them is for the gap it finds. The movie box
fills this gap or leaves room for a free box, and no more than the usual
room. Once the media has moved the movie box is as large as it was
measured. -/
theorem relocationGap_settles (h : muxer.tracks.length ≤ maxTracks) :
    ∃ gap, muxer.relocationGap = .ok gap
      ∧ (muxer.measuredGaps (muxer.movieSize 0 + headroom)
          maxPasses).getLast? = some gap
      ∧ (muxer.measuredGaps (muxer.movieSize 0 + headroom)
          maxPasses).length ≤ 3
      ∧ (muxer.movieSize gap = gap ∨ muxer.movieSize gap + 8 ≤ gap)
      ∧ gap - muxer.movieSize gap ≤ 1024
      ∧ (Box.encode ((muxer.shift gap).movie 0)).length
          = muxer.movieSize gap := by
  obtain ⟨gap, hgap⟩ := muxer.relocationGap_ok h
  obtain ⟨hroom, hslack⟩ := muxer.fits_of_relocationGap hgap
  have hpasses := muxer.length_measuredGaps_le (Nat.zero_le _) maxPasses
  refine ⟨gap, hgap, muxer.getLast?_measuredGaps hgap, ?_, hroom, ?_, ?_⟩
  · unfold maxTracks at h
    omega
  · unfold headroom at hslack
    omega
  · rw [movie_shift, movieSize_eq]

end

/-- A track of 300 chunks, all at one offset. -/
def farTrack (offset : Nat) : Track :=
  { Track.new .aac 44100 with
    chunks := ⟨List.replicate 300 ⟨offset, 1, 1, 44100⟩, []⟩ }

/-- Two tracks that turn wide one after the other: moving the media by the
first gap makes the first one wide, and only the gap that this asks for
makes the second one wide. -/
def wideningMuxer : Muxer FlatFile :=
  { freshMuxer with
    tracks := [farTrack (0x100000000 - 4000), farTrack (0x100000000 - 5500)] }

/-- Three passes may be needed: here both tracks turn wide in the course of
the search. -/
theorem relocationGap_settles_wideningMuxer :
    wideningMuxer.tracks.length ≤ maxTracks
      ∧ wideningMuxer.measuredGaps (wideningMuxer.movieSize 0 + headroom)
          maxPasses = [4384, 5584, 6784]
      ∧ wideningMuxer.relocationGap = .ok 6784
      ∧ (Box.encode ((wideningMuxer.shift 6784).movie 0)).length
          = wideningMuxer.movieSize 6784 := by
  have hfew : wideningMuxer.tracks.length ≤ maxTracks := by decide
  have hmeasured : wideningMuxer.measuredGaps
      (wideningMuxer.movieSize 0 + headroom) maxPasses
        = [4384, 5584, 6784] := by decide +kernel
  obtain ⟨gap, hgap, hlast, _, _, _, hlength⟩ :=
    wideningMuxer.relocationGap_settles hfew
  rw [hmeasured] at hlast
  cases hlast
  exact ⟨hfew, hmeasured, hgap, hlength⟩

end Muxer

end AudioMux

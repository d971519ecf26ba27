/-
Declared sizes are the real ones, and the two ways to write a movie box
come to the same.

When a file is closed its movie box is opened with a size of zero, and
the size is written once the rest is there. A probe that the whole box is
written to measures it beforehand, and the room in front of moved media
depends on that. All of this rests on the size the box declares
(`declared_sizes_hold`).
-/
import AudioMux.Proofs.Box.Decode.Movie
import AudioMux.Proofs.Box.Nesting
import AudioMux.Proofs.Muxer.Layout

namespace AudioMux

open Box

namespace Muxer

/-- On a sink that never fails, a movie box written with its size put in
last is the box as its encoding has it, wherever the cursor is. -/
theorem writeMovie_of_reliable {σ : Type} [Sink σ] [FaithfulSink σ]
    (hrel : NeverFails σ) (sink : σ) {movie : Movie}
    (h : Format.size movie ≤ maxWord32) :
    ∃ after, writeMovie movie (.ofSink sink)
        = .ok (Format.size movie) (.ofSink after)
      ∧ FaithfulSink.view after
        = (FaithfulSink.view sink).write (encode movie) := by
  have hcontent : 8 + (content movie).length ≤ maxWord32 := by
    rw [(Measured.fair movie).2 h]
    exact h
  obtain ⟨size, out, hout, hsize, himage⟩ :=
    (mirrors_writeMovie movie).exists_ok hrel
      (s := Output.ofSink sink) (writeMovie_flat movie hcontent)
  obtain ⟨after, fault?⟩ := out
  have hview : FaithfulSink.view after
      = (FaithfulSink.view sink).write (encode movie) :=
    congrArg Output.sink himage
  have hfault : fault? = none := congrArg Output.fault? himage
  refine ⟨after, ?_, hview⟩
  rw [hout, hfault]
  exact congrArg (EStateM.Result.ok · _) (hsize.trans (length_encode h))

end Muxer

/-- A box that declares at most what 32 bits hold is as long as it
declares, and every box in it, at any depth, states in its header how far
it reaches and is made up of its fields and its own boxes. The
descriptors are as long as they declare as well. On a sink that never
fails a movie box whose size is put in last comes out the same as if it
was written at once, and a probe measures its declared size. -/
theorem declared_sizes_hold :
    (∀ box : Any, Format.size box ≤ maxWord32 →
      (encode box).length = Format.size box
        ∧ ∀ start inner, box.Lies start inner →
          (encode inner).length = Format.size inner
            ∧ inner.Stated (encode box) start)
      ∧ (∀ config : Descriptor.DecoderConfig,
        config.encode.length = config.size)
      ∧ (∀ stream : Descriptor.Stream, stream.encode.length = stream.size)
      ∧ ∀ movie : Movie, Format.size movie ≤ maxWord32 →
        (∀ (σ : Type) [Sink σ] [FaithfulSink σ] [NeverFails σ] (sink : σ),
          ∃ after, Muxer.writeMovie movie (.ofSink sink)
              = .ok (Format.size movie) (.ofSink after)
            ∧ FaithfulSink.view after
              = (FaithfulSink.view sink).write (encode movie))
          ∧ Probe.measure (Sink.writeAll (encode movie))
            = Format.size movie := by
  refine ⟨fun box h => ⟨length_encode h, fun start inner hlies => ?_⟩,
    length_decoderConfig, length_stream, fun movie h => ⟨?_, ?_⟩⟩
  · have hinner := (holdsAt_of_lies h hlies).1
    exact ⟨length_encode hinner, stated_of_lies h hlies⟩
  · intro σ _ _ hrel sink
    exact Muxer.writeMovie_of_reliable hrel sink h
  · rw [Muxer.measure_writeAll, length_encode h]

/-- The media of the track, two boxes deep, and the movie box as it is
written past the end of a file. -/
theorem declared_sizes_hold_shortMovie :
    Format.size shortMovie ≤ maxWord32
      ∧ (encode (Any.movie shortMovie)).length = Format.size shortMovie
      ∧ (∀ track ∈ shortMovie.tracks,
        (Any.media track.media).Stated (encode (Any.movie shortMovie)) 264)
      ∧ (∃ after, Muxer.writeMovie shortMovie (.ofSink ⟨[1, 2, 3], 5⟩)
          = .ok (Format.size shortMovie) (.ofSink after)
        ∧ after = FlatFile.write (encode shortMovie) ⟨[1, 2, 3], 5⟩)
      ∧ Probe.measure (Sink.writeAll (encode shortMovie))
        = Format.size shortMovie := by
  have hfits : Format.size shortMovie ≤ maxWord32 := by decide +kernel
  obtain ⟨hboxes, _, _, hmovies⟩ := declared_sizes_hold
  obtain ⟨hlength, hinside⟩ := hboxes (.movie shortMovie) hfits
  obtain ⟨hwritten, hprobe⟩ := hmovies shortMovie hfits
  refine ⟨hfits, hlength, fun track htrack => ?_, ?_, hprobe⟩
  · cases List.mem_singleton.mp htrack
    -- The movie header is in front of the track, and in the track the
    -- track header and the edits are in front of the media.
    have htrackLies := @Any.Lies.child (.movie shortMovie) 0 _ _ [_] [_]
      .self rfl
    have hmediaLies := @Any.Lies.child _ _ _ _ [_, _] [] htrackLies rfl
    exact (hinside 264 _ hmediaLies).2
  · exact hwritten FlatFile ⟨[1, 2, 3], 5⟩

end AudioMux

/-
The two bit rates that a track states.

With every sample the peak is raised to the rate of the last second, so it
is the largest rate of all windows there were (`Made.highest`). The average
is worked out from the chunks when the track is finished. They are together
as large as the samples, so it is the rate of all that was accepted
(`Agrees.averageBitrate_finished`), and no larger than the peak if the first
sample has a duration (`average_le_peak`).
-/
import AudioMux.Proofs.Muxer.TrackRun
import AudioMux.Proofs.Muxer.Windows

namespace AudioMux.TrackRun

open AudioMux.Action (after)
open AccessUnit (IsWindow rate windowRates)

variable {σ : Type} [Sink σ] {timescale : UInt32} {run : TrackRun σ}

-- ==================================================================== peak

/-- The peak is the largest rate of the last second so far. -/
structure Highest (timescale : UInt32) (run : TrackRun σ) : Prop where
  agrees : run.Agrees timescale
  peak : IsGreatest (windowRates timescale run.intake.units)
    run.track.maxBitrate.toNat

omit [Sink σ] in
theorem highest_start (codec : Codec) (timescale : UInt32)
    (out : Output σ) : (start codec timescale out).Highest timescale :=
  ⟨agrees_start codec timescale out,
    AccessUnit.isGreatest_windowRates_nil timescale⟩

theorem Highest.proceed (h : run.Highest timescale) (call : TrackCall) :
    (run.proceed call).Highest timescale := by
  have hagrees := h.agrees.proceed call
  refine ⟨hagrees, ?_⟩
  cases call with
  | fix duration => exact h.peak
  | append data duration =>
      unfold TrackRun.proceed at hagrees ⊢
      dsimp only at hagrees ⊢
      rcases Track.append_cases data duration run.track run.out with
        ⟨flushed, room, out', hok, _⟩ | ⟨failure, chunks, out', herror, _⟩
      · rw [hok] at hagrees ⊢
        have hwindows : ∀ window,
            IsWindow timescale.toNat
              (run.intake.accept data duration).units window →
            rate timescale window
              = (SampleTable.trailingBitrate
                  ⟨((run.intake.accept data duration).units.map
                    AccessUnit.sample).reverse⟩ timescale).toNat :=
          fun window hwindow => (AccessUnit.toNat_trailingBitrate hwindow
            hagrees.small).symm
        have hpeak :=
          AccessUnit.isGreatest_windowRates_concat h.peak hwindows
        rw [← hagrees.samples, ← UInt32.toNat_max] at hpeak
        have htimescale := h.agrees.timescale
        subst htimescale
        exact hpeak
      · rw [herror]
        exact h.peak

theorem Made.highest (h : run.Made timescale) : run.Highest timescale := by
  obtain ⟨codec, out, calls, rfl⟩ := h
  exact make_induction (highest_start codec timescale out)
    (fun _ call h => h.proceed call) calls

-- ================================================================= average

/-- The track once it is finished, whether or not its last chunk could be
written. -/
def finished (run : TrackRun σ) : Track :=
  (after (Track.finish (run.track, run.out))).1

theorem exists_chunks_finished (run : TrackRun σ) :
    ∃ chunks, run.finished
      = { run.track with
          averageBitrate := bitrate run.track.chunks.totalSize
            run.track.duration run.track.timescale
          chunks := chunks } := by
  unfold finished Track.finish
  rw [Action.apply_bind_ok (Action.apply_modify _ _)]
  unfold Track.onChunks
  dsimp only
  cases ChunkTable.flush (run.track.chunks, run.out) with
  | ok flushed state => exact ⟨state.1, rfl⟩
  | error failure state => exact ⟨state.1, rfl⟩

/-- The average is the rate of all that was accepted. -/
theorem Agrees.averageBitrate_finished (h : run.Agrees timescale) :
    run.finished.averageBitrate.toNat
      = rate timescale run.intake.units := by
  obtain ⟨chunks, hfinished⟩ := exists_chunks_finished run
  rw [hfinished, h.totalSize, h.duration, h.timescale]
  exact toNat_bitrate _ _ _

-- ================================================================= results

/-- Whatever samples are handed to a new track, on any sink and with a fixed
duration or without one: once it is finished, its average bit rate is that
of all that was accepted, and its peak is the largest bit rate of the last
second that there was at any moment. If the first sample has a duration, the
average is no larger than the peak. -/
theorem average_le_peak (h : run.Made timescale) :
    run.finished.averageBitrate.toNat = rate timescale run.intake.units
      ∧ IsGreatest (windowRates timescale run.intake.units)
          run.finished.maxBitrate.toNat
      ∧ ((∀ first ∈ run.intake.units.head?, first.duration ≠ 0) →
          run.finished.averageBitrate ≤ run.finished.maxBitrate) := by
  have haverage := h.highest.agrees.averageBitrate_finished
  obtain ⟨chunks, hfinished⟩ := exists_chunks_finished run
  have hpeak : IsGreatest (windowRates timescale run.intake.units)
      run.finished.maxBitrate.toNat := by
    rw [hfinished]
    exact h.highest.peak
  refine ⟨haverage, hpeak, fun hfirst => ?_⟩
  rw [UInt32.le_iff_toNat_le, haverage]
  apply AccessUnit.rate_le_of_windowRates ?_ hfirst
  intro windowRate hrate
  exact hpeak.2 hrate

/-- Three samples of two seconds and a half, of which the first one comes in
while a fixed duration is set. -/
def threeSamples : TrackRun FlatFile :=
  (start .aac 2 (.ofSink .empty)).make
    [.fix 2, .append [1, 2, 3] 7, .fix 0, .append [4] 2, .append [5, 6] 1]

/-- The first second has 24 bits, and the second one 8. The last half second
is looked at together with the second before it. -/
theorem average_le_peak_threeSamples :
    threeSamples.Made 2
      ∧ (∀ first ∈ threeSamples.intake.units.head?, first.duration ≠ 0)
      ∧ threeSamples.finished.averageBitrate = 19
      ∧ threeSamples.finished.maxBitrate = 24
      ∧ threeSamples.finished.averageBitrate
        ≤ threeSamples.finished.maxBitrate := by
  have hmade : threeSamples.Made 2 := ⟨.aac, .ofSink .empty, _, rfl⟩
  have hunits : threeSamples.intake.units.head? = some ⟨[1, 2, 3], 2⟩ := by
    decide +kernel
  have hfirst : ∀ first ∈ threeSamples.intake.units.head?,
      first.duration ≠ 0 := by
    rw [hunits]
    rintro _ ⟨⟩
    decide
  obtain ⟨_, _, hle⟩ := average_le_peak hmade
  exact ⟨hmade, hfirst, by decide +kernel, by decide +kernel, hle hfirst⟩

end AudioMux.TrackRun

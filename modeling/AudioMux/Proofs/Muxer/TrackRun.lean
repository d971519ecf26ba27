/-
A track on its own: samples are appended to it on any sink, one after the
other, and a fixed duration may come and go between them.

What was accepted is noted beside the track, in an account that never looks
at its tables. The tables agree with it at any time, however appends fail on
the way (`Agrees.proceed`): a failed append may have given a chunk a place,
but has neither entered its sample nor started a chunk.
-/
import AudioMux.Proofs.Muxer.FailedAppend
import AudioMux.Proofs.Muxer.Places

namespace AudioMux

open AudioMux.Action (Keeps)
open AccessUnit (payload totalDuration)
open Box (maxWord32)

-- ================================================================== chunks

namespace ChunkTable

/-- How large the chunks are together has nothing to do with where they
lie. -/
theorem totalSize_eq_sum (table : ChunkTable) :
    table.totalSize = (table.unplaced.newestFirst.map Chunk.size).sum := by
  obtain ⟨chunks, pending⟩ := table
  unfold totalSize unplaced
  induction chunks with
  | nil => rfl
  | cons chunk chunks ih =>
      simp only [List.foldr_cons, List.map_cons, List.sum_cons] at ih ⊢
      rw [ih]
      rfl

theorem totalSize_extend {table : ChunkTable} (h : table.newestFirst ≠ [])
    (data : Bytes) (duration : UInt32) :
    (table.extend data duration).totalSize
      = table.totalSize + data.length := by
  unfold extend totalSize
  cases hchunks : table.newestFirst with
  | nil => exact absurd hchunks h
  | cons chunk older =>
      show chunk.size + data.length + _ = chunk.size + _ + data.length
      omega

variable {σ : Type} [Sink σ]

/-- Writing what is held back gives the newest chunk a place at most. -/
theorem keeps_unplaced_flush :
    Keeps (fun state => state.1.unplaced.newestFirst)
      (flush (σ := σ)) := by
  rintro ⟨table, out⟩
  unfold flush
  dsimp only
  by_cases hempty : table.pending.isEmpty = true
  · rw [if_pos hempty]
    rfl
  rw [if_neg hempty]
  have hplace : ∀ offset, (table.place offset).unplaced.newestFirst
      = table.unplaced.newestFirst :=
    fun offset => congrArg newestFirst (table.unplaced_place offset)
  cases Output.position out with
  | error failure later => rfl
  | ok offset between =>
      dsimp only
      cases Output.write (table.place offset).pending between with
      | error failure later => exact hplace offset
      | ok _ later => exact hplace offset

/-- The chunks, newest first and without their places, once there is room
for a sample of a duration. -/
def roomFor (duration timescale : UInt32) (table : ChunkTable) :
    List Chunk :=
  if table.needsNewChunk duration timescale then
    .empty :: table.unplaced.newestFirst
  else table.unplaced.newestFirst

theorem sum_size_roomFor (duration timescale : UInt32)
    (table : ChunkTable) :
    ((table.roomFor duration timescale).map Chunk.size).sum
      = table.totalSize := by
  rw [totalSize_eq_sum]
  unfold roomFor
  split
  · exact Nat.zero_add _
  · rfl

end ChunkTable

-- ================================================================== tracks

namespace Track

variable {σ : Type} [Sink σ]

/-- Making room starts a chunk if one is needed, and gives the one before a
place at most. -/
theorem unplaced_makeRoom (duration : UInt32) (track : Track)
    (out : Output σ) :
    (∃ flushed room out', makeRoom duration (track, out)
        = .ok flushed ({ track with chunks := room }, out')
      ∧ room.newestFirst ≠ []
      ∧ room.unplaced.newestFirst
        = track.chunks.roomFor duration track.timescale)
    ∨ ∃ failure chunks out', makeRoom duration (track, out)
        = .error failure ({ track with chunks := chunks }, out')
      ∧ chunks.unplaced.newestFirst = track.chunks.unplaced.newestFirst := by
  unfold ChunkTable.roomFor
  by_cases hfull :
      track.chunks.needsNewChunk duration track.timescale = true
  · have hkept := ChunkTable.keeps_unplaced_flush (track.chunks, out)
    cases hflush : ChunkTable.flush (track.chunks, out) with
    | ok flushed next =>
        obtain ⟨chunks, out'⟩ := next
        rw [hflush] at hkept
        rw [if_pos hfull]
        exact Or.inl ⟨flushed, chunks.openChunk, out',
          makeRoom_of_flush_ok hfull hflush, List.cons_ne_nil _ _,
          congrArg (Chunk.empty :: ·) hkept⟩
    | error failure next =>
        obtain ⟨chunks, out'⟩ := next
        rw [hflush] at hkept
        exact Or.inr ⟨failure, chunks, out',
          makeRoom_of_flush_error hfull hflush, hkept⟩
  · rw [if_neg hfull]
    exact Or.inl ⟨0, track.chunks, out, makeRoom_of_fits hfull out,
      ChunkTable.newestFirst_of_fits hfull, rfl⟩

/-- The track with another fixed duration. Zero takes it back. -/
def fix (duration : UInt32) (track : Track) : Track :=
  { track with
    fixedDuration? := if duration = 0 then none else some duration }

omit [Sink σ] in
example (index : Nat) (duration : UInt32) :
    Muxer.setFixedDuration (σ := σ) index duration
      = Muxer.configureTrack index (fix duration) := rfl

/-- What an append does to a track: it makes room, and if that succeeds
enters the sample. If it fails, nothing but the chunks has changed, and of
these at most a place. -/
theorem append_cases (data : Bytes) (duration : UInt32) (track : Track)
    (out : Output σ) :
    (∃ (flushed : Nat) (room : ChunkTable) (out' : Output σ),
      append data duration (track, out)
          = .ok flushed (record (UInt32.ofNat data.length)
              (track.durationInForce duration)
              { track with
                chunks :=
                  room.extend data (track.durationInForce duration) }, out')
        ∧ data.length ≤ maxWord32 ∧ room.newestFirst ≠ []
        ∧ room.unplaced.newestFirst = track.chunks.roomFor
            (track.durationInForce duration) track.timescale)
    ∨ ∃ (failure : Failure) (chunks : ChunkTable) (out' : Output σ),
      append data duration (track, out)
          = .error failure ({ track with chunks := chunks }, out')
        ∧ chunks.unplaced.newestFirst
          = track.chunks.unplaced.newestFirst := by
  by_cases hlarge : maxWord32 < data.length
  · exact Or.inr
      ⟨_, track.chunks, out, append_too_large track duration hlarge out, rfl⟩
  have hsmall := Nat.le_of_not_lt hlarge
  rw [append_of_le track duration hsmall]
  rcases unplaced_makeRoom (track.durationInForce duration) track out with
    ⟨flushed, room, out', hroom, hopen, hchunks⟩
    | ⟨failure, chunks, out', hroom, hchunks⟩
  · refine Or.inl ⟨flushed, room, out', ?_, hsmall, hopen, hchunks⟩
    rw [Action.apply_bind_ok hroom, Action.apply_bind_ok (add_ok hopen)]
    rfl
  · exact Or.inr
      ⟨failure, chunks, out', Action.apply_bind_error hroom, hchunks⟩

end Track

-- ==================================================================== runs

/-- What is done with a track while it is written. -/
inductive TrackCall where
  | append (data : Bytes) (duration : UInt32)
  | fix (duration : UInt32)
  deriving DecidableEq, Repr

/-- A track, the output its chunks go to, and the account of what was
accepted. -/
structure TrackRun (σ : Type) where
  track : Track
  out : Output σ
  intake : Intake

namespace TrackRun

variable {σ : Type}

/-- A new track. -/
def start (codec : Codec) (timescale : UInt32) (out : Output σ) :
    TrackRun σ :=
  ⟨.new codec timescale, out, .empty⟩

variable [Sink σ]

/-- Makes a call. A sample that cannot be appended leaves the account as it
is. -/
def proceed (run : TrackRun σ) : TrackCall → TrackRun σ
  | .append data duration =>
    match Track.append data duration (run.track, run.out) with
    | .ok _ (track, out) => ⟨track, out, run.intake.accept data duration⟩
    | .error _ (track, out) => ⟨track, out, run.intake⟩
  | .fix duration =>
    ⟨run.track.fix duration, run.out, run.intake.fix duration⟩

/-- Makes calls, one after the other, whatever comes of each. -/
def make (run : TrackRun σ) (calls : List TrackCall) : TrackRun σ :=
  calls.foldl proceed run

/-- A track that some calls were made on since it was new. -/
def Made (timescale : UInt32) (run : TrackRun σ) : Prop :=
  ∃ codec out calls, run = (start codec timescale out).make calls

/-- What every call keeps, a run keeps. -/
theorem make_induction {P : TrackRun σ → Prop} {run : TrackRun σ}
    (hstart : P run) (hstep : ∀ run call, P run → P (run.proceed call))
    (calls : List TrackCall) : P (run.make calls) := by
  apply List.foldlRecOn calls proceed hstart
  intro run hrun call _
  exact hstep run call hrun

/-- The tables of a track say what was accepted. -/
structure Agrees (timescale : UInt32) (run : TrackRun σ) : Prop where
  timescale : run.track.timescale = timescale
  fixed : run.track.fixedDuration? = run.intake.fixedDuration?
  samples : run.track.samples
    = ⟨(run.intake.units.map AccessUnit.sample).reverse⟩
  small : ∀ unit ∈ run.intake.units, unit.data.length ≤ maxWord32
  totalSize : run.track.chunks.totalSize
    = (payload run.intake.units).length

variable {timescale : UInt32} {run : TrackRun σ}

omit [Sink σ] in
theorem agrees_start (codec : Codec) (timescale : UInt32)
    (out : Output σ) : (start codec timescale out).Agrees timescale :=
  ⟨rfl, rfl, rfl, nofun, rfl⟩

omit [Sink σ] in
/-- The duration of the track is that of all that was accepted. -/
theorem Agrees.duration (h : run.Agrees timescale) :
    run.track.duration = totalDuration run.intake.units := by
  unfold Track.duration
  rw [h.samples]
  exact SampleTable.duration_units _

theorem Agrees.proceed (h : run.Agrees timescale) (call : TrackCall) :
    (run.proceed call).Agrees timescale := by
  cases call with
  | fix duration =>
      exact ⟨h.timescale, rfl, h.samples, h.small, h.totalSize⟩
  | append data duration =>
      unfold TrackRun.proceed
      dsimp only
      rcases Track.append_cases data duration run.track run.out with
        ⟨flushed, room, out', hok, hsmall, hopen, hroom⟩
        | ⟨failure, chunks, out', herror, hchunks⟩
      · rw [hok]
        have hforce : run.track.durationInForce duration
            = run.intake.fixedDuration?.getD duration := by
          unfold Track.durationInForce
          rw [h.fixed]
        refine ⟨h.timescale, h.fixed, ?_, ?_, ?_⟩
        · show run.track.samples.push ⟨UInt32.ofNat data.length, _⟩ = _
          rw [h.samples, hforce]
          unfold Intake.accept
          rw [List.map_append, List.reverse_append]
          rfl
        · intro unit hunit
          rcases List.mem_append.mp hunit with hold | hnew
          · exact h.small unit hold
          · obtain rfl := List.mem_singleton.mp hnew
            exact hsmall
        · show (room.extend data _).totalSize = _
          rw [ChunkTable.totalSize_extend hopen, room.totalSize_eq_sum,
            hroom, ChunkTable.sum_size_roomFor, h.totalSize]
          unfold Intake.accept
          rw [AccessUnit.payload_concat, List.length_append]
      · rw [herror]
        refine ⟨h.timescale, h.fixed, h.samples, h.small, ?_⟩
        show chunks.totalSize = _
        rw [chunks.totalSize_eq_sum, hchunks,
          ← run.track.chunks.totalSize_eq_sum, h.totalSize]

end TrackRun

end AudioMux

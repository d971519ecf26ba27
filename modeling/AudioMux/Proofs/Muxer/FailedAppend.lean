/-
What an append leaves behind if it fails.

An append enters the sample into the tables at its very end, when nothing
can go wrong any more. But a sample that does not fit into the open chunk
has that chunk written first, and another one started. What this did to the
chunks stays if the append fails later (`Track.halted`), and there are two
ways to come to that:

* the chunk is given its place before it is written, and keeps it if the
  write fails (`ChunkTable.Misplaces`);
* the memory to hold the sample back is asked for when the chunk is already
  written and the next one started.

In all other cases a failed append leaves the tables as they were
(`failed_append_keeps_iff`).
-/
import AudioMux.Proofs.Muxer.Fault
import AudioMux.Proofs.Muxer.Flat
import AudioMux.Proofs.Muxer.Mirror

namespace AudioMux

open Box (maxWord32)
open AudioMux.Action (after)

-- ================================================================== chunks

namespace ChunkTable

section
variable {σ : Type} [Sink σ] {table table' : ChunkTable}
  {out out' : Output σ}

/-- The bytes held back cannot be written, and where they were to go is not
where the newest chunk lay so far. -/
def Misplaces (table : ChunkTable) (out : Output σ) : Prop :=
  table.pending ≠ [] ∧ ∃ offset between failure later,
    Output.position out = .ok offset between
      ∧ Output.write table.pending between = .error failure later
      ∧ table.place offset ≠ table

/-- A flush that fails has changed the table only if the write failed. -/
theorem flush_error_ne_iff {failure : Failure}
    (h : flush (table, out) = .error failure (table', out')) :
    table' ≠ table ↔ table.Misplaces out := by
  unfold flush at h
  dsimp only at h
  by_cases hempty : table.pending.isEmpty = true
  · rw [if_pos hempty] at h
    cases h
  rw [if_neg hempty] at h
  have hpending : table.pending ≠ [] := by simpa using hempty
  cases hpos : Output.position out with
  | error failure₁ later =>
      simp only [hpos] at h
      cases h
      constructor
      · intro hne
        exact absurd rfl hne
      · rintro ⟨_, offset, between, _, _, hok, _⟩
        cases hpos.symm.trans hok
  | ok offset between =>
      simp only [hpos, place_pending] at h
      cases hwrite : Output.write table.pending between with
      | ok _ later =>
          simp only [hwrite] at h
          cases h
      | error failure₁ later =>
          simp only [hwrite] at h
          cases h
          constructor
          · intro hne
            exact ⟨hpending, offset, between, _, _, hpos, hwrite, hne⟩
          · rintro ⟨_, offset', between', _, _, hpos', _, hne⟩
            cases hpos.symm.trans hpos'
            exact hne

omit [Sink σ] in
theorem length_place (position : Nat) (table : ChunkTable) :
    (table.place position).length = table.length := by
  unfold place length
  cases hchunks : table.newestFirst with
  | nil => rw [hchunks]
  | cons chunk older => rfl

/-- Flushing starts no chunk. -/
theorem length_of_flush_ok {flushed : Nat}
    (h : flush (table, out) = .ok flushed (table', out')) :
    table'.length = table.length := by
  unfold flush at h
  dsimp only at h
  by_cases hempty : table.pending.isEmpty = true
  · rw [if_pos hempty] at h
    cases h
    rfl
  rw [if_neg hempty] at h
  cases hpos : Output.position out with
  | error failure later =>
      simp only [hpos] at h
      cases h
  | ok offset between =>
      cases hwrite : Output.write (table.place offset).pending between with
      | error failure later =>
          simp only [hpos, hwrite] at h
          cases h
      | ok _ later =>
          simp only [hpos, hwrite] at h
          cases h
          exact length_place offset table

end

end ChunkTable

-- ================================================================== tracks

namespace Track

section
variable {σ : Type} [Sink σ] {track : Track} {out : Output σ}
  {data : Bytes} {duration : UInt32}

/-- Making room concerns the chunks only. -/
theorem exists_chunks_makeRoom (duration : UInt32) (track : Track)
    (out : Output σ) :
    ∃ chunks, (after (makeRoom duration (track, out))).1
      = { track with chunks := chunks } := by
  by_cases hfull :
      track.chunks.needsNewChunk duration track.timescale = true
  · cases hflush : ChunkTable.flush (track.chunks, out) with
    | ok flushed next =>
        rw [makeRoom_of_flush_ok hfull hflush]
        exact ⟨_, rfl⟩
    | error failure next =>
        rw [makeRoom_of_flush_error hfull hflush]
        exact ⟨_, rfl⟩
  · rw [makeRoom_of_fits hfull]
    exact ⟨track.chunks, rfl⟩

/-- Making room changes a track if its open chunk is full and is written,
or loses its place. -/
theorem makeRoom_ne_iff (duration : UInt32) (track : Track)
    (out : Output σ) :
    (after (makeRoom duration (track, out))).1 ≠ track
      ↔ track.chunks.needsNewChunk duration track.timescale = true
        ∧ (track.chunks.Misplaces out
          ∨ ∃ flushed next, ChunkTable.flush (track.chunks, out)
              = .ok flushed next) := by
  by_cases hfull :
      track.chunks.needsNewChunk duration track.timescale = true
  · cases hflush : ChunkTable.flush (track.chunks, out) with
    | ok flushed next =>
        obtain ⟨chunks, out'⟩ := next
        rw [makeRoom_of_flush_ok hfull hflush]
        constructor
        · intro _
          exact ⟨hfull, Or.inr ⟨flushed, _, rfl⟩⟩
        · intro _ hsame
          have hlength := ChunkTable.length_of_flush_ok hflush
          have hchunks : chunks.openChunk = track.chunks :=
            congrArg Track.chunks hsame
          have hmore : chunks.openChunk.length = chunks.length + 1 := rfl
          rw [hchunks] at hmore
          omega
    | error failure next =>
        obtain ⟨chunks, out'⟩ := next
        rw [makeRoom_of_flush_error hfull hflush]
        have hmisplaces := ChunkTable.flush_error_ne_iff hflush
        constructor
        · intro hne
          refine ⟨hfull, Or.inl (hmisplaces.mp ?_)⟩
          rintro rfl
          exact hne rfl
        · rintro ⟨_, hlost | ⟨_, _, hok⟩⟩ hsame
          · exact hmisplaces.mpr hlost (congrArg Track.chunks hsame)
          · cases hok
  · rw [makeRoom_of_fits hfull]
    constructor
    · intro hne
      exact absurd rfl hne
    · rintro ⟨hfull', _⟩
      exact absurd hfull' hfull

/-- When there is room there is an open chunk. -/
theorem newestFirst_of_makeRoom_ok {flushed : Nat} {track' : Track}
    {out' : Output σ}
    (h : makeRoom duration (track, out) = .ok flushed (track', out')) :
    track'.chunks.newestFirst ≠ [] := by
  by_cases hfull :
      track.chunks.needsNewChunk duration track.timescale = true
  · cases hflush : ChunkTable.flush (track.chunks, out) with
    | ok flushed next =>
        rw [makeRoom_of_flush_ok hfull hflush] at h
        cases h
        exact List.cons_ne_nil _ _
    | error failure next =>
        rw [makeRoom_of_flush_error hfull hflush] at h
        cases h
  · rw [makeRoom_of_fits hfull] at h
    cases h
    exact ChunkTable.newestFirst_of_fits hfull

/-- What it takes for a failed append to change the chunks of a track, where
`refused?` is the request for memory that is refused: the sample needs a new
chunk, and either the open one cannot be written and loses its place, or it
is written and there is no memory to hold the sample back. -/
def Spoils (refused? : Option Nat) (data : Bytes) (duration : UInt32)
    (track : Track) (out : Output σ) : Prop :=
  data.length ≤ maxWord32
    ∧ track.chunks.needsNewChunk (track.durationInForce duration)
        track.timescale = true
    ∧ (refused? ≠ some 0 ∧ track.chunks.Misplaces out
      ∨ refused? = some 1 ∧ ∃ flushed next,
          ChunkTable.flush (track.chunks, out) = .ok flushed next)

/-- The track as an append leaves it that fails after it has accepted the
sample's size. -/
def halted (data : Bytes) (duration : UInt32) (track : Track)
    (out : Output σ) : Track :=
  if maxWord32 < data.length then track
  else (after (makeRoom (track.durationInForce duration) (track, out))).1

theorem exists_chunks_halted (data : Bytes) (duration : UInt32)
    (track : Track) (out : Output σ) :
    ∃ chunks, track.halted data duration out
      = { track with chunks := chunks } := by
  unfold halted
  split
  · exact ⟨track.chunks, rfl⟩
  · exact exists_chunks_makeRoom _ track out

theorem halted_ne_iff (data : Bytes) (duration : UInt32) (track : Track)
    (out : Output σ) :
    track.halted data duration out ≠ track
      ↔ track.Spoils (some 1) data duration out := by
  unfold halted Spoils
  split
  · next hlarge =>
    constructor
    · intro hne
      exact absurd rfl hne
    · rintro ⟨hsmall, _⟩
      omega
  · next hsmall =>
    rw [makeRoom_ne_iff]
    simp [Nat.le_of_not_lt hsmall]

/-- An append that fails with all the memory it asks for does so before it
enters the sample: it is too large, or no room is made for it. -/
theorem halted_of_append_error {failure : Failure}
    {state : Track × Output σ}
    (h : append data duration (track, out) = .error failure state) :
    state.1 = track.halted data duration out
      ∧ (data.length ≤ maxWord32 → ∀ flushed next,
          makeRoom (track.durationInForce duration) (track, out)
            ≠ .ok flushed next) := by
  unfold halted
  by_cases hlarge : maxWord32 < data.length
  · rw [append_too_large track duration hlarge out] at h
    cases h
    refine ⟨(if_pos hlarge).symm, fun hsmall => ?_⟩
    omega
  rw [append_of_le track duration (Nat.le_of_not_lt hlarge)] at h
  rw [if_neg hlarge]
  cases hroom : makeRoom (track.durationInForce duration) (track, out) with
  | error failure₁ next =>
      rw [Action.apply_bind_error hroom] at h
      cases h
      exact ⟨rfl, nofun⟩
  | ok flushed next =>
      obtain ⟨track', out'⟩ := next
      rw [Action.apply_bind_ok hroom, Action.apply_bind_ok
        (add_ok (newestFirst_of_makeRoom_ok hroom))] at h
      cases h

/-- With all the memory it asks for an append spoils the chunks only by a
write that fails. -/
theorem append_error_ne_iff {failure : Failure} {state : Track × Output σ}
    (h : append data duration (track, out) = .error failure state) :
    state.1 ≠ track ↔ track.Spoils none data duration out := by
  obtain ⟨hstate, hnoRoom⟩ := halted_of_append_error h
  rw [hstate, halted_ne_iff]
  constructor
  · rintro ⟨hsmall, hfull, ⟨_, hlost⟩ | ⟨_, flushed, next, hflush⟩⟩
    · exact ⟨hsmall, hfull, Or.inl ⟨nofun, hlost⟩⟩
    · exact absurd (makeRoom_of_flush_ok hfull hflush)
        (hnoRoom hsmall flushed _)
  · rintro ⟨hsmall, hfull, ⟨_, hlost⟩ | ⟨hrequest, _⟩⟩
    · exact ⟨hsmall, hfull, Or.inl ⟨by decide, hlost⟩⟩
    · cases hrequest

theorem after_makeRoomFor (data : Bytes) (duration : UInt32)
    (track : Track) (out : Output σ) :
    (after (makeRoomFor data duration (track, out))).1
      = track.halted data duration out := by
  unfold halted makeRoomFor acceptSize
  by_cases hlarge : maxWord32 < data.length
  · rw [if_pos hlarge, if_pos hlarge]
    rfl
  rw [if_neg hlarge, if_neg hlarge,
    Action.apply_bind_ok (Action.apply_pure _ _),
    Action.apply_bind_ok (Action.apply_get _)]
  show (after (discard (makeRoom (track.durationInForce duration))
    (track, out))).1 = _
  cases hroom : makeRoom (track.durationInForce duration) (track, out) with
  | ok flushed next =>
      rw [Action.apply_discard_ok hroom]
      rfl
  | error failure next =>
      rw [Action.apply_discard_error hroom]
      rfl

omit [Sink σ] in
theorem after_acceptSize (data : Bytes) (state : Track × Output σ) :
    after (acceptSize data state) = state := by
  unfold acceptSize
  split <;> rfl

end

end Track

-- =================================================================== muxers

namespace Muxer

section
variable {σ α β : Type} {muxer later : Muxer σ} {failure : Failure}
  {index : Nat} {track : Track}

/-- A muxer takes samples for a track. -/
structure Takes (muxer : Muxer σ) (index : Nat) (track : Track) : Prop where
  faultless : muxer.out.fault? = none
  writing : muxer.phase = .writing
  track : muxer.tracks[index]? = some track

/-- Goes on only while samples can be appended. -/
def whileWriting (next : Muxing σ α) : Muxing σ α := do
  checkFault
  if (← get).phase ≠ .writing then
    throw (.unsupported .notWriting)
  next

theorem whileWriting_ok (hfault : muxer.out.fault? = none)
    (hphase : muxer.phase = .writing) (next : Muxing σ α) :
    whileWriting next muxer = next muxer := by
  unfold whileWriting
  rw [Action.apply_bind_ok (Call.checkFault_of_no_fault hfault),
    Action.apply_bind_ok (Action.apply_get _),
    if_neg (by rw [hphase]; decide)]

theorem whileWriting_error (next : Muxing σ α)
    (h : ¬ (muxer.out.fault? = none ∧ muxer.phase = .writing)) :
    ∃ failure, whileWriting next muxer = .error failure muxer := by
  by_cases hfault : muxer.out.fault?.isSome
  · exact ⟨.faulted,
      Action.apply_bind_error (Call.checkFault_of_fault hfault)⟩
  have hnone : muxer.out.fault? = none := by simpa using hfault
  have hphase : muxer.phase ≠ .writing := fun hphase => h ⟨hnone, hphase⟩
  refine ⟨.unsupported .notWriting, ?_⟩
  unfold whileWriting
  rw [Action.apply_bind_ok (Call.checkFault_of_no_fault hnone),
    Action.apply_bind_ok (Action.apply_get _), if_pos hphase]
  rfl

/-- What a failed action on a track leaves behind, if what comes after it
leaves all but the output alone when it fails. -/
theorem whileWriting_onTrack_eq_error {action : Tracking σ α}
    {next : α → Muxing σ β}
    (hnext : ∀ {a between failure later},
      next a between = .error failure later →
      later = { between with out := later.out })
    (h : (whileWriting (onTrack index action) >>= next) muxer
      = .error failure later) :
    (∀ track, ¬ muxer.Takes index track) ∧ later = muxer
      ∨ ∃ track, muxer.Takes index track
        ∧ later = { muxer with
            out := later.out
            tracks := muxer.tracks.set index
              (after (action (track, muxer.out))).1 }
        ∧ ((∃ failure' state,
            action (track, muxer.out) = .error failure' state)
          ∨ ∃ a between, next a between = .error failure later) := by
  by_cases hopen : muxer.out.fault? = none ∧ muxer.phase = .writing
  · obtain ⟨hfault, hphase⟩ := hopen
    have hwhile := whileWriting_ok hfault hphase (onTrack index action)
    cases htrack : muxer.tracks[index]? with
    | none =>
        rw [onTrack_none htrack] at hwhile
        rw [Action.apply_bind_error hwhile] at h
        cases h
        refine Or.inl ⟨fun track htakes => ?_, rfl⟩
        cases htrack.symm.trans htakes.track
    | some track =>
        refine Or.inr ⟨track, ⟨hfault, hphase, htrack⟩, ?_⟩
        cases hrun : action (track, muxer.out) with
        | ok a state =>
            rw [onTrack_ok htrack hrun] at hwhile
            rw [Action.apply_bind_ok hwhile] at h
            exact ⟨hnext h, Or.inr ⟨a, _, h⟩⟩
        | error failure₁ state =>
            rw [onTrack_error htrack hrun] at hwhile
            rw [Action.apply_bind_error hwhile] at h
            cases h
            exact ⟨rfl, Or.inl ⟨_, state, rfl⟩⟩
  · obtain ⟨failure₁, hwhile⟩ :=
      whileWriting_error (onTrack index action) hopen
    rw [Action.apply_bind_error hwhile] at h
    cases h
    refine Or.inl ⟨fun track htakes => ?_, rfl⟩
    exact hopen ⟨htakes.faultless, htakes.writing⟩

/-- What follows an action that goes on only while samples can be appended
goes on only then, too. -/
theorem whileWriting_bind (first : Muxing σ α) (next : α → Muxing σ β) :
    whileWriting (first >>= next) = whileWriting first >>= next := by
  unfold whileWriting
  rw [bind_assoc]
  congr 1
  funext _
  rw [bind_assoc]
  congr 1
  funext muxer
  split <;> rfl

end

section
variable {σ : Type} [Sink σ] {muxer later : Muxer σ} {failure : Failure}
  {index : Nat} {data : Bytes} {duration : UInt32} {refused? : Option Nat}

omit [Sink σ] in
theorem out_of_runOut_eq_error {between : Muxer σ}
    (h : runOut between = .error failure later) :
    later = { between with out := later.out } := by
  cases h
  rfl

/-- A failed append changes the chunks of its track at most, and only if
they are spoiled. -/
theorem append_attempt_eq_error
    (h : Attempt.perform ⟨.appendSample index data duration, refused?⟩ muxer
      = .error failure later) :
    (∀ track, ¬ muxer.Takes index track) ∧ later = muxer
      ∨ ∃ track track', muxer.Takes index track
        ∧ later = { muxer with
            out := later.out
            tracks := muxer.tracks.set index track' }
        ∧ (∃ chunks, track' = { track with chunks := chunks })
        ∧ (track' ≠ track
          ↔ track.Spoils refused? data duration muxer.out) := by
  by_cases hsize : refused? = some 0
  -- Memory is refused before anything is done about the chunks.
  · subst hsize
    have hrun : (whileWriting (onTrack index (Track.acceptSize data))
        >>= fun _ => runOut) muxer = .error failure later := h
    refine (whileWriting_onTrack_eq_error out_of_runOut_eq_error
      hrun).imp_right ?_
    rintro ⟨track, htakes, hlater, _⟩
    rw [Track.after_acceptSize] at hlater
    refine ⟨track, track, htakes, hlater, ⟨track.chunks, rfl⟩, ?_⟩
    constructor
    · intro hne
      exact absurd rfl hne
    · rintro ⟨_, _, ⟨hrequest, _⟩ | ⟨hrequest, _⟩⟩
      · exact absurd rfl hrequest
      · cases hrequest
  by_cases hroom : refused? = some 1
  -- It is refused when there is room, whether it had to be made or not.
  · subst hroom
    have hrun : (whileWriting (onTrack index
        (Track.makeRoomFor data duration)) >>= fun _ => runOut) muxer
          = .error failure later := h
    refine (whileWriting_onTrack_eq_error out_of_runOut_eq_error
      hrun).imp_right ?_
    rintro ⟨track, htakes, hlater, _⟩
    rw [Track.after_makeRoomFor] at hlater
    exact ⟨track, _, htakes, hlater, Track.exists_chunks_halted _ _ _ _,
      Track.halted_ne_iff data duration track muxer.out⟩
  -- No memory is refused, so it is the append itself that fails.
  · have hrun : (whileWriting (onTrack index (Track.append data duration))
        >>= countMedia) muxer = .error failure later := by
      rw [← whileWriting_bind]
      rcases refused? with _ | _ | _ | request
      · exact h
      · exact absurd rfl hsize
      · exact absurd rfl hroom
      · exact h
    refine (whileWriting_onTrack_eq_error (fun hcount => by cases hcount)
      hrun).imp_right ?_
    rintro ⟨track, htakes, hlater, ⟨_, state, happend⟩ | ⟨_, _, hcount⟩⟩
    · rw [happend] at hlater
      refine ⟨track, state.1, htakes, hlater, ?_, ?_⟩
      · rw [(Track.halted_of_append_error happend).1]
        exact Track.exists_chunks_halted _ _ _ _
      · rw [Track.append_error_ne_iff happend]
        simp [Track.Spoils, hsize, hroom]
    · cases hcount

-- ================================================================== results

/-- An append may be refused by the muxer or for want of memory, and the sink
may fail to tell its position or to take bytes. However an append fails, it
changes nothing about the muxer but the output and the chunks of its track:
the count of what was written, all other tracks, and the track's samples and
bit rates stay. The chunks stay as well, unless the append has come so far as
to write the open one, and then either that write failed, and the chunk was
to go elsewhere than it lay before, or it did not, and memory was refused
after it. -/
theorem failed_append_keeps_iff
    (h : Attempt.perform ⟨.appendSample index data duration, refused?⟩ muxer
      = .error failure later) :
    (∃ change : ChunkTable → ChunkTable,
      later = { muxer with
        out := later.out
        tracks := muxer.tracks.modify index fun track =>
          { track with chunks := change track.chunks } })
    ∧ (later.tracks = muxer.tracks
      ↔ ¬ ∃ track, muxer.Takes index track
          ∧ track.Spoils refused? data duration muxer.out) := by
  rcases append_attempt_eq_error h with ⟨hnone, rfl⟩
    | ⟨track, track', htakes, hlater, ⟨chunks, hchunks⟩, hspoils⟩
  · refine ⟨⟨id, ?_⟩, ?_⟩
    · rw [show (fun track : Track => { track with chunks := id track.chunks })
        = id from rfl, List.modify_id]
    · refine iff_of_true rfl ?_
      rintro ⟨track, htakes, _⟩
      exact hnone track htakes
  · have hset : later.tracks = muxer.tracks.set index track' :=
      congrArg Muxer.tracks hlater
    refine ⟨⟨fun _ => chunks, ?_⟩, ?_⟩
    · rw [modify_eq_set_of_getElem? htakes.track]
      rw [hchunks] at hlater
      exact hlater
    · constructor
      · rintro hkept ⟨track₁, htakes₁, hspoiled⟩
        cases htakes.track.symm.trans htakes₁.track
        apply hspoils.mpr hspoiled
        have hindex : index < muxer.tracks.length :=
          (List.getElem?_eq_some_iff.mp htakes.track).1
        have hback : (muxer.tracks.set index track')[index]?
            = muxer.tracks[index]? := by rw [← hset, hkept]
        rw [List.getElem?_set_self hindex, htakes.track] at hback
        exact Option.some_inj.mp hback
      · intro hclean
        have hsame : track' = track := by
          by_contra hne
          exact hclean ⟨track, htakes, hspoils.mp hne⟩
        rw [hset, hsame, set_of_getElem? htakes.track]

end

end Muxer

/-- A muxer on a disk with room for all headers and two bytes more, whose
open chunk is full. -/
def tightMuxer : Muxer SparseFile :=
  Muxer.make
    { freshMuxer with
      out := .ofSink { SparseFile.empty with capacity := 50 } }
    [⟨.beginWriting, none⟩, ⟨.appendSample 0 [1, 2, 3, 4] 22050, none⟩]

/-- Without memory to enter a sample nothing is done about the open chunk. -/
theorem failed_append_keeps_tightMuxer :
    ∃ later, Attempt.perform ⟨.appendSample 0 [5] 1024, some 0⟩ tightMuxer
        = .error .outOfMemory later
      ∧ later.tracks = tightMuxer.tracks := by
  have hrun : ∃ later, Attempt.perform
      ⟨.appendSample 0 [5] 1024, some 0⟩ tightMuxer
        = .error .outOfMemory later := ⟨_, rfl⟩
  obtain ⟨later, hrun⟩ := hrun
  refine ⟨later, hrun, (Muxer.failed_append_keeps_iff hrun).2.mpr ?_⟩
  rintro ⟨track, _, _, _, ⟨hrequest, _⟩ | ⟨hrequest, _⟩⟩
  · exact hrequest rfl
  · cases hrequest

/-- The disk is full before the open chunk is written, and yet the chunk has
been given a place. -/
theorem failed_append_misplaces_chunk :
    ∃ failure later,
      Attempt.perform ⟨.appendSample 0 [5] 1024, none⟩ tightMuxer
        = .error failure later
      ∧ tightMuxer.tracks.map (fun track => track.chunks.toList)
        = [[⟨0, 4, 1, 22050⟩]]
      ∧ later.tracks.map (fun track => track.chunks.toList)
        = [[⟨48, 4, 1, 22050⟩]]
      ∧ later.tracks.map (fun track => track.chunks.pending)
        = [[1, 2, 3, 4]] :=
  ⟨_, _, rfl, by decide +kernel, by decide +kernel, by decide +kernel⟩

end AudioMux

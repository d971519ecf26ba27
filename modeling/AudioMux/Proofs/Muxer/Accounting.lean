/-
The accounting of the media region.

While a muxer is writing, its tables, the media region of the file and
the caller's account agree: the chunks of a track cut the units that
were handed in for it, in order, and every chunk that is in the file
lies where its offset says, in one piece and apart from all others, so
that the chunks of all tracks together make up the region
(`Session.accounts`). While bytes are held back they are those of the
track's newest chunk, which is why that chunk is left out.

Finishing the tracks writes what was held back, one track after the
other. After it the same holds with all chunks (`finishTracks_accounts`).
-/
import Mathlib.Data.List.Perm.Basic
import AudioMux.Proofs.Muxer.Books

namespace AudioMux

open AccessUnit (payload)

-- ============================================================ the statement

namespace Entry

/-- The filled chunks of the track, oldest first, as stretches of the
file. -/
def filled (entry : Entry) : List Block :=
  (Chunk.blocks entry.track.chunks.newestFirst
    entry.parts).reverse.filter Block.isFilled

/-- The filled chunks except for the newest chunk. -/
def filledButNewest (entry : Entry) : List Block :=
  (Chunk.blocks entry.track.chunks.newestFirst
    entry.parts).tail.reverse.filter Block.isFilled

/-- The chunks of the track cut up what was handed in for it, in order,
and the tables say the sizes and durations of the pieces. -/
structure Cut (entry : Entry) : Prop where
  samples : entry.track.samples.toList
    = entry.intake.units.map AccessUnit.sample
  sizes : ∀ unit ∈ entry.intake.units,
    unit.data.length ≤ Box.maxWord32
  units : entry.parts.reverse.flatten = entry.intake.units
  chunks : List.Forall₂ Chunk.SumsUp entry.track.chunks.toList
    entry.parts.reverse

theorem Sound.cut {entry : Entry} (h : entry.Sound) : entry.Cut where
  samples := by
    unfold SampleTable.toList
    rw [h.samples, List.reverse_reverse]
  sizes := h.small
  units := h.units
  chunks := List.forall₂_reverse_iff.mpr h.chunks

end Entry

/-- The media region of a file consists of blocks, which come as one
list for each track: each block is in the file, those of a track lie one
further than the other, no two have a position in common, and together
they are all of the region. -/
structure Tiles (file : FlatFile) (mediaStart mediaSize : Nat)
    (filed : List (List Block)) : Prop where
  holds : ∀ blocks ∈ filed, ∀ block ∈ blocks,
    file.bytes.HoldsAt block.offset block.data
  increasing : ∀ blocks ∈ filed,
    blocks.Pairwise fun earlier later => earlier.offset < later.offset
  apart : filed.flatten.Pairwise Block.Apart
  covers : ∀ position,
    (∃ block ∈ filed.flatten, block.Covers position)
      ↔ mediaStart ≤ position ∧ position < mediaStart + mediaSize

/-- The books of a muxer around the given file: every track is cut, the
file ends where the media does, and the chunks that count as filed tile
the media region. -/
structure Books {σ : Type} (muxer : Muxer σ) (file : FlatFile)
    (intakes : List Intake) (ledger : List Entry)
    (filed : Entry → List Block) : Prop where
  tracks : muxer.tracks = ledger.map Entry.track
  intakes : intakes = ledger.map Entry.intake
  cut : ∀ entry ∈ ledger, entry.Cut
  cursor : file.cursor = muxer.mediaStart + muxer.mediaSize
  tiles : Tiles file muxer.mediaStart muxer.mediaSize (ledger.map filed)

-- ==================================================================== tiles

/-- Blocks that are apart stay so in any order. -/
theorem pairwise_apart_of_perm {first second : List Block}
    (h : first.Perm second) (hfirst : first.Pairwise Block.Apart) :
    second.Pairwise Block.Apart :=
  h.pairwise hfirst Block.Apart.symm

/-- A shelved region is tiled by what the tracks own, however each
track's blocks are listed as long as they lie one further than the
other. -/
theorem Shelved.tiles {file : FlatFile} {mediaSize : Nat}
    {ledger : List Entry} {blocks : List Block}
    (h : Shelved file mediaSize ledger blocks)
    {filed : Entry → List Block}
    (hfiled : ∀ entry ∈ ledger, filed entry = entry.stored.reverse) :
    Tiles file mediaOrigin mediaSize (ledger.map filed) := by
  have hperm : blocks.Perm (ledger.map filed).flatten := by
    refine h.owned.trans ?_
    unfold Entry.storedBy
    rw [← List.flatMap_def]
    refine List.Perm.flatMap_left ledger fun entry hentry => ?_
    rw [hfiled entry hentry]
    exact (List.reverse_perm _).symm
  have hholds : ∀ block ∈ blocks,
      file.bytes.HoldsAt block.offset block.data := by
    intro block hblock
    rw [h.bytes, ← List.append_nil (Muxer.preamble ++ _)]
    exact h.contiguous.holdsAt 0 Muxer.length_preamble [] block hblock
  refine ⟨?_, ?_, ?_, ?_⟩
  · intro list hlist block hblock
    refine hholds block (hperm.mem_iff.mpr ?_)
    exact List.mem_flatten.mpr ⟨list, hlist, hblock⟩
  · intro list hlist
    obtain ⟨entry, hentry, rfl⟩ := List.mem_map.mp hlist
    rw [hfiled entry hentry, List.pairwise_reverse]
    exact h.ordered entry hentry
  · exact pairwise_apart_of_perm hperm h.contiguous.pairwise_apart
  · intro position
    constructor
    · rintro ⟨block, hblock, hlo, hhi⟩
      have hmem := hperm.mem_iff.mpr hblock
      have hfirst := h.contiguous.le_offset block hmem
      have hlast := h.contiguous.endOf_le block hmem
      rw [← h.size] at hlast
      omega
    · rintro ⟨hlo, hhi⟩
      rw [h.size] at hhi
      obtain ⟨block, hmem, hcovers⟩ := h.contiguous.exists_covers hlo hhi
      exact ⟨block, hperm.mem_iff.mp hmem, hcovers⟩

namespace Entry

theorem filledButNewest_of_held {entry : Entry} (h : entry.Held) :
    entry.filledButNewest = entry.stored.reverse := by
  unfold filledButNewest
  rw [stored_of_held h, List.filter_reverse]

theorem filled_of_pending_nil {entry : Entry}
    (h : entry.track.chunks.pending = []) :
    entry.filled = entry.stored.reverse := by
  unfold filled stored closed
  rw [h, List.filter_reverse]
  rfl

end Entry

-- ====================================================== finishing the tracks

/-- The muxer closes its tracks: bytes are held back for newest chunks
only. -/
structure Closing (muxer : Muxer FlatFile) (intakes : List Intake)
    (ledger : List Entry) (blocks : List Block) : Prop where
  fault : muxer.out.fault? = none
  headerEnd : muxer.headerEnd = 32
  mediaStart : muxer.mediaStart = mediaOrigin
  tracks : muxer.tracks = ledger.map Entry.track
  intakes : intakes = ledger.map Entry.intake
  few : ledger.length ≤ maxTracks
  sound : ∀ entry ∈ ledger, entry.Sound
  tidy : ∀ entry ∈ ledger, entry.Tidy
  shelved : Shelved muxer.out.sink muxer.mediaSize ledger blocks

/-- The entry at an index holds nothing back. -/
def SettledAt (ledger : List Entry) (index : Nat) : Prop :=
  ∀ entry, ledger[index]? = some entry → entry.track.chunks.pending = []

namespace Closing

variable {muxer : Muxer FlatFile} {intakes : List Intake}
  {ledger : List Entry} {blocks : List Block}

theorem out (h : Closing muxer intakes ledger blocks) :
    muxer.out = .ofSink muxer.out.sink := by
  show (⟨_, muxer.out.fault?⟩ : Output FlatFile) = _
  rw [h.fault]
  rfl

/-- One track is finished. -/
theorem finishTrack (h : Closing muxer intakes ledger blocks) {index : Nat}
    (hindex : index < ledger.length) :
    ∃ muxer' ledger' blocks',
      (Muxer.onTrack index Track.finish >>= Muxer.countMedia) muxer
          = .ok () muxer'
        ∧ Closing muxer' intakes ledger' blocks'
        ∧ ledger'.length = ledger.length
        ∧ SettledAt ledger' index
        ∧ ∀ i, SettledAt ledger i → SettledAt ledger' i := by
  have hentry : ledger[index]? = some ledger[index] :=
    List.getElem?_eq_getElem hindex
  generalize ledger[index] = entry at hentry
  have hmem := List.mem_of_getElem? hentry
  have htrack : muxer.tracks[index]? = some entry.track := by
    rw [h.tracks, List.getElem?_map, hentry]
    rfl
  have hsettled := Entry.pending_finish entry muxer.out.sink.cursor
  have hintakes : intakes
      = (ledger.set index (entry.finish muxer.out.sink.cursor)).map
          Entry.intake := by
    have hsame : (ledger.map Entry.intake)[index]? = some entry.intake := by
      rw [List.getElem?_map, hentry]
      rfl
    rw [List.map_set, h.intakes]
    exact (set_of_getElem? hsame).symm
  refine ⟨_, ledger.set index (entry.finish muxer.out.sink.cursor), _,
    Muxer.finishTrack_flat h.out htrack,
    ⟨rfl, h.headerEnd, h.mediaStart, ?_, hintakes, ?_, ?_, ?_,
      h.shelved.store hentry (Entry.stored_finish (h.sound entry hmem)
        (h.tidy entry hmem) muxer.out.sink.cursor)⟩,
    List.length_set, ?_, ?_⟩
  · show muxer.tracks.set index _ = _
    rw [List.map_set, h.tracks]
    rfl
  · rw [List.length_set]
    exact h.few
  · intro other hother
    rcases List.mem_or_eq_of_mem_set hother with hold | rfl
    · exact h.sound other hold
    · exact (h.sound entry hmem).finish (h.tidy entry hmem) _
  · intro other hother
    rcases List.mem_or_eq_of_mem_set hother with hold | rfl
    · exact h.tidy other hold
    · exact Or.inl hsettled
  · intro other hother
    rw [List.getElem?_set_self hindex] at hother
    cases hother
    exact hsettled
  · intro i hi other hother
    by_cases hsame : index = i
    · subst hsame
      rw [List.getElem?_set_self hindex] at hother
      cases hother
      exact hsettled
    · rw [List.getElem?_set_ne hsame] at hother
      exact hi other hother

/-- All tracks are finished, and nothing is held back any more. -/
theorem finishTracks (h : Closing muxer intakes ledger blocks) :
    ∃ muxer' ledger' blocks', Muxer.finishTracks muxer = .ok () muxer'
      ∧ Closing muxer' intakes ledger' blocks'
      ∧ ∀ entry ∈ ledger', entry.track.chunks.pending = [] := by
  have hcount : muxer.tracks.length = ledger.length := by
    rw [h.tracks, List.length_map]
  -- Before round `n` the first `n` tracks are settled.
  let P : Nat → Muxer FlatFile → Prop := fun n s =>
    ∃ ledger' blocks', Closing s intakes ledger' blocks'
      ∧ ledger'.length = ledger.length
      ∧ ∀ i, i < n → SettledAt ledger' i
  have hstart : P 0 muxer := ⟨ledger, blocks, h, rfl, nofun⟩
  have hround : ∀ n, n < ledger.length → ∀ s, P n s →
      ∃ s', (Muxer.onTrack n Track.finish >>= Muxer.countMedia) s
          = .ok ⟨⟩ s'
        ∧ P (n + 1) s' := by
    rintro n hn s ⟨ledger₁, blocks₁, h₁, hlength₁, hsettled₁⟩
    obtain ⟨s', ledger₂, blocks₂, hrun, h₂, hlength₂, hnew, hold⟩ :=
      h₁.finishTrack (by omega : n < ledger₁.length)
    refine ⟨s', hrun, ledger₂, blocks₂, h₂, by omega, fun i hi => ?_⟩
    rcases Nat.lt_succ_iff_lt_or_eq.mp hi with hlt | rfl
    · exact hold i (hsettled₁ i hlt)
    · exact hnew
  obtain ⟨muxer', hrun, ledger', blocks', hclosing, hlength, hsettled⟩ :=
    Action.forM_range_ok hstart hround
  refine ⟨muxer', ledger', blocks', ?_, hclosing, fun entry hentry => ?_⟩
  · unfold Muxer.finishTracks
    rw [Action.apply_bind_ok (Action.apply_get _), hcount]
    exact hrun
  · obtain ⟨i, hi, rfl⟩ := List.mem_iff_getElem.mp hentry
    exact hsettled i (by omega) _ (List.getElem?_eq_getElem hi)

end Closing

namespace Session

variable {session : Session FlatFile} {ledger : List Entry}
  {blocks : List Block}

/-- A muxer that is writing can close its tracks. -/
theorem Recording.closing (h : session.Recording ledger blocks) :
    Closing { session.muxer with phase := .finalized } session.intakes
      ledger blocks where
  fault := h.fault
  headerEnd := h.headerEnd
  mediaStart := h.mediaStart
  tracks := h.kept.tracks
  intakes := h.kept.intakes
  few := h.kept.few
  sound := h.kept.sound
  tidy := fun entry hentry => Or.inr (h.kept.held entry hentry)
  shelved := h.shelved

theorem Recording.books (h : session.Recording ledger blocks) :
    Books session.muxer session.muxer.out.sink session.intakes ledger
      Entry.filledButNewest where
  tracks := h.kept.tracks
  intakes := h.kept.intakes
  cut := fun entry hentry => (h.kept.sound entry hentry).cut
  cursor := by rw [h.shelved.cursor_eq, h.mediaStart]
  tiles := by
    rw [h.mediaStart]
    exact h.shelved.tiles fun entry hentry =>
      Entry.filledButNewest_of_held (h.kept.held entry hentry)

end Session

theorem Closing.books {muxer : Muxer FlatFile} {intakes : List Intake}
    {ledger : List Entry} {blocks : List Block}
    (h : Closing muxer intakes ledger blocks)
    (hsettled : ∀ entry ∈ ledger, entry.track.chunks.pending = []) :
    Books muxer muxer.out.sink intakes ledger Entry.filled where
  tracks := h.tracks
  intakes := h.intakes
  cut := fun entry hentry => (h.sound entry hentry).cut
  cursor := by rw [h.shelved.cursor_eq, h.mediaStart]
  tiles := by
    rw [h.mediaStart]
    exact h.shelved.tiles fun entry hentry =>
      Entry.filled_of_pending_nil (hsettled entry hentry)

-- =================================================================== results

/-- Whatever was called, on whatever sink that is faithful and was empty:
while the muxer is writing without a fault, its books are right with
each newest chunk held back. Once the tracks are finished they are right
with all chunks filed. -/
theorem Session.accounts {σ : Type} [Sink σ] [FaithfulSink σ]
    {config : MuxerConfig} {now : UInt64} {sink : σ} {muxer : Muxer σ}
    {calls : List Call} {session : Session σ}
    (hfresh : FaithfulSink.view sink = .empty)
    (hcreate : Muxer.create config now sink = .ok muxer)
    (hrun : (opened muxer).run calls = session)
    (hphase : session.muxer.phase = .writing)
    (hfault : ¬ session.Faulted) :
    ∃ ledger,
      Books session.muxer (FaithfulSink.view session.muxer.out.sink)
          session.intakes ledger Entry.filledButNewest
        ∧ (∀ entry ∈ ledger, entry.track.chunks.pending
          = payload (entry.parts.headD []))
        ∧ ∀ finished : Muxer σ,
          Muxer.finishTracks { session.muxer with phase := .finalized }
              = .ok () finished →
          ∃ ledger',
            Books finished (FaithfulSink.view finished.out.sink)
                session.intakes ledger' Entry.filled
              ∧ ∀ entry ∈ ledger', entry.track.chunks.pending = [] := by
  subst hrun
  obtain ⟨ledger, blocks, h⟩ :=
    exists_recording hfresh hcreate hphase hfault
  refine ⟨ledger, ?_, h.kept.held, fun finished hfinish => ?_⟩
  · obtain ⟨htracks, hintakes, hcut, hcursor, htiles⟩ := h.books
    exact ⟨htracks, hintakes, hcut, hcursor, htiles⟩
  · obtain ⟨muxer', ledger', blocks', hrun, hclosing, hsettled⟩ :=
      h.closing.finishTracks
    have hmirror := (Muxer.mirrors_finishTracks _).1 _ _ hfinish
    have hsame : muxer' = finished.image := by
      have heq := hrun.symm.trans hmirror
      cases heq
      rfl
    subst hsame
    obtain ⟨htracks, hintakes, hcut, hcursor, htiles⟩ :=
      hclosing.books hsettled
    exact ⟨ledger', ⟨htracks, hintakes, hcut, hcursor, htiles⟩, hsettled⟩

/-- The short session is one of those meant, and its tracks can be
finished. -/
theorem accounts_shortSession :
    ∃ (session : Session FlatFile) (finished : Muxer FlatFile)
      (ledger ledger' : List Entry),
      (Session.opened freshMuxer).run shortSession = session
        ∧ Books session.muxer session.muxer.out.sink session.intakes ledger
          Entry.filledButNewest
        ∧ Muxer.finishTracks { session.muxer with phase := .finalized }
          = .ok () finished
        ∧ Books finished finished.out.sink session.intakes ledger'
          Entry.filled := by
  obtain ⟨ledger, hbooks, _, hfinish⟩ :=
    Session.accounts (σ := FlatFile) rfl create_default rfl
      writing_shortSession not_faulted_shortSession
  obtain ⟨_, _, hrecording⟩ :=
    Session.exists_recording (σ := FlatFile) rfl create_default
      writing_shortSession not_faulted_shortSession
  obtain ⟨finished, _, _, hrun, _, _⟩ := hrecording.closing.finishTracks
  obtain ⟨ledger', hbooks', _⟩ := hfinish finished hrun
  exact ⟨_, finished, ledger, ledger', rfl, hbooks, hrun, hbooks'⟩

end AudioMux

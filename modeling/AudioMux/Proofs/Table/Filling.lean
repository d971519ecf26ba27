/-
Where a table of chunks says that its chunks are, however it is used.

A table of chunks can be used in any order: chunks may be started while
bytes are held back, and the newest chunk may be written several times while
it grows. A log beside the table notes what was appended to each chunk; it
goes by the calls alone and never looks at the table. Nothing is lost or
reordered on the way: all that was appended lies in the file in one piece,
from where the cursor stood at the beginning (`Kept`). So the log says where
a chunk is: behind all that was appended to the chunks before it.

The table says it only if the chunk was written in one piece. A flush gives
the newest chunk the place where it writes, and that is where the chunk
begins exactly if what is written is all that the chunk has so far, and
nothing else (`Stands.write`). Later flushes of the same chunk move it to
where its last piece lies (`fill_moves_chunk`), and bytes that are held back
while the next chunk is started are written as if they were the next one's.
-/
import AudioMux.Proofs.Muxer.Flat
import AudioMux.Proofs.Muxer.Mirror

namespace AudioMux

open AudioMux.Action (after)

-- ====================================================================== calls

/-- What is done with a table of chunks. -/
inductive ChunkCall where
  | openChunk
  | append (data : Bytes) (duration : UInt32)
  | flush
  deriving DecidableEq, Repr

/-- What became of a chunk. -/
structure ChunkNote where
  /-- What was appended to it. -/
  payload : Bytes
  /-- Whether the last flush that wrote something while this was the newest
  chunk wrote all that it had, and nothing else. -/
  whole? : Option Bool
  deriving DecidableEq, Repr

/-- The notes of all chunks, and what no flush has written yet. -/
structure ChunkLog where
  newestFirst : List ChunkNote
  unwritten : Bytes
  deriving DecidableEq, Repr

namespace ChunkLog

/-- A log of no chunks. -/
def empty : ChunkLog := ⟨[], []⟩

/-- The notes in the order of the chunks. -/
def toList (log : ChunkLog) : List ChunkNote := log.newestFirst.reverse

/-- Notes a call. Without a chunk nothing can be appended. -/
def record (log : ChunkLog) : ChunkCall → ChunkLog
  | .openChunk => { log with newestFirst := ⟨[], none⟩ :: log.newestFirst }
  | .append data _ =>
    match log.newestFirst with
    | [] => log
    | note :: older =>
      ⟨{ note with payload := note.payload ++ data } :: older,
        log.unwritten ++ data⟩
  | .flush =>
    match log.newestFirst with
    | [] => log
    | note :: older =>
      if log.unwritten = [] then log
      else ⟨{ note with whole? := some (log.unwritten = note.payload) }
        :: older, []⟩

/-- The log of calls made one after the other. -/
def ofCalls (calls : List ChunkCall) : ChunkLog := calls.foldl record empty

/-- All that was appended to chunks, given newest first. -/
def payloads (newestFirst : List ChunkNote) : Bytes :=
  newestFirst.reverse.flatMap ChunkNote.payload

/-- All that was appended to the chunks before the one at an index. -/
def before (index : Nat) (log : ChunkLog) : Bytes :=
  (log.toList.take index).flatMap ChunkNote.payload

theorem payloads_cons (note : ChunkNote) (older : List ChunkNote) :
    payloads (note :: older) = payloads older ++ note.payload := by
  unfold payloads
  rw [List.reverse_cons, List.flatMap_append, List.flatMap_singleton]

/-- All that was appended, cut at a chunk: what was appended to those before
it, to itself, and to those behind it. -/
theorem payloads_eq_before {log : ChunkLog} {index : Nat} {note : ChunkNote}
    (h : log.toList[index]? = some note) :
    payloads log.newestFirst = log.before index ++ note.payload ++
      (log.toList.drop (index + 1)).flatMap ChunkNote.payload := by
  obtain ⟨hindex, hget⟩ := List.getElem?_eq_some_iff.mp h
  have hsplit : log.toList = log.toList.take index ++ note ::
      log.toList.drop (index + 1) := by
    rw [← hget, List.getElem_cons_drop, List.take_append_drop]
  calc payloads log.newestFirst
      = log.toList.flatMap ChunkNote.payload := rfl
    _ = (log.toList.take index ++ note ::
          log.toList.drop (index + 1)).flatMap ChunkNote.payload := by
        rw [← hsplit]
    _ = _ := by
        rw [List.flatMap_append, List.flatMap_cons, List.append_assoc]
        rfl

/-- A flush that has nothing to write is not noted. -/
theorem record_flush_of_nil {log : ChunkLog} (h : log.unwritten = []) :
    log.record .flush = log := by
  unfold record
  cases hnotes : log.newestFirst with
  | nil => rfl
  | cons note older => exact if_pos h

theorem record_flush_of_ne_nil (note : ChunkNote) (older : List ChunkNote)
    {unwritten : Bytes} (h : unwritten ≠ []) :
    record ⟨note :: older, unwritten⟩ .flush
      = ⟨{ note with whole? := some (unwritten = note.payload) } :: older,
          []⟩ :=
  if_neg h

end ChunkLog

open ChunkLog (payloads payloads_cons)

namespace ChunkTable

section
variable {σ : Type} [Sink σ]

/-- Makes a call, whatever comes of it. -/
def proceed (state : ChunkTable × Output σ) :
    ChunkCall → ChunkTable × Output σ
  | .openChunk => (state.1.openChunk, state.2)
  | .append data duration =>
    match state.1.append data duration with
    | .ok table => (table, state.2)
    | .error _ => state
  | .flush => after (flush state)

/-- Makes calls, one after the other. -/
def fill (calls : List ChunkCall) (state : ChunkTable × Output σ) :
    ChunkTable × Output σ :=
  calls.foldl proceed state

end

-- ==================================================================== entries

/-- What the entry of a chunk says that begins at `start`: its size, and the
place it was given last. -/
structure Stands (start : Nat) (chunk : Chunk) (note : ChunkNote) : Prop where
  size : chunk.size = note.payload.length
  unwritten : note.whole? = none → chunk.offset = 0
  written : ∀ whole, note.whole? = some whole →
    (chunk.offset = start ↔ whole = true)

/-- Chunks and their notes, both newest first, the oldest chunk beginning at
`origin` and each one behind those that are older. -/
inductive Tallies (origin : Nat) : List Chunk → List ChunkNote → Prop
  | nil : Tallies origin [] []
  | cons {chunk : Chunk} {note : ChunkNote} {chunks : List Chunk}
      {notes : List ChunkNote} :
      Stands (origin + (payloads notes).length) chunk note →
      Tallies origin chunks notes →
      Tallies origin (chunk :: chunks) (note :: notes)

section
variable {start origin : Nat} {chunk : Chunk} {note : ChunkNote}
  {chunks : List Chunk} {notes : List ChunkNote}

theorem Stands.append (h : Stands start chunk note) (data : Bytes)
    (duration : UInt32) :
    Stands start (chunk.add data.length duration)
      { note with payload := note.payload ++ data } where
  size := by
    show chunk.size + data.length = (note.payload ++ data).length
    rw [h.size, List.length_append]
  unwritten := h.unwritten
  written := h.written

/-- Two ways to cut the same bytes are one if the front is as long. -/
theorem length_eq_iff_of_append_eq {front back front' back' : Bytes}
    (h : front ++ back = front' ++ back') :
    front'.length = front.length ↔ back' = back := by
  constructor
  · intro hlength
    exact (List.append_inj h hlength.symm).2.symm
  · rintro rfl
    rw [List.append_cancel_right h]

/-- Where a flush writes is where the chunk begins exactly if it writes the
chunk. -/
theorem Stands.write (h : Stands start chunk note) {cursor : Nat}
    {data : Bytes} (hplace : cursor = start ↔ data = note.payload) :
    Stands start { chunk with offset := cursor }
      { note with whole? := some (data = note.payload) } where
  size := h.size
  unwritten := nofun
  written := by
    rintro whole hwhole
    obtain rfl := Option.some_inj.mp hwhole
    rw [decide_eq_true_iff]
    exact hplace

/-- The entry is right about where the chunk begins if it was written whole,
or if it was not written at all and begins where the file does. -/
theorem Stands.offset_iff (h : Stands start chunk note) :
    chunk.offset = start
      ↔ note.whole? = some true ∨ note.whole? = none ∧ start = 0 := by
  cases hwhole : note.whole? with
  | none =>
      rw [h.unwritten hwhole]
      simp [eq_comm]
  | some whole =>
      rw [h.written whole hwhole]
      simp

theorem Tallies.length_eq (h : Tallies origin chunks notes) :
    chunks.length = notes.length := by
  induction h with
  | nil => rfl
  | cons _ _ ih => rw [List.length_cons, List.length_cons, ih]

/-- The chunk at an index stands to its note as the newest one does. -/
theorem Tallies.stands (h : Tallies origin chunks notes) {index : Nat}
    (hchunk : chunks.reverse[index]? = some chunk)
    (hnote : notes.reverse[index]? = some note) :
    Stands (origin + ((notes.reverse.take index).flatMap
      ChunkNote.payload).length) chunk note := by
  induction h with
  | nil => cases hchunk
  | @cons newest record chunks notes hnewest hrest ih =>
      have hlength : chunks.reverse.length = notes.reverse.length := by
        rw [List.length_reverse, List.length_reverse, hrest.length_eq]
      rw [List.reverse_cons] at hchunk hnote ⊢
      by_cases hold : index < notes.reverse.length
      · rw [List.getElem?_append_left (by omega)] at hchunk hnote
        rw [List.take_append_of_le_length (by omega)]
        exact ih hchunk hnote
      · have hindex : index < (notes.reverse ++ [record]).length :=
          (List.getElem?_eq_some_iff.mp hnote).1
        rw [List.length_append, List.length_singleton] at hindex
        obtain rfl : index = notes.reverse.length := by omega
        rw [List.getElem?_concat_length] at hnote
        rw [← hlength, List.getElem?_concat_length] at hchunk
        cases hchunk
        cases hnote
        rw [List.take_left]
        exact hnewest

end

-- ====================================================================== steps

section
variable {σ : Type} [Sink σ]

/-- Without bytes held back there is nothing to write. -/
theorem flush_of_pending_nil {table : ChunkTable} (h : table.pending = [])
    (out : Output σ) : flush (table, out) = .ok 0 (table, out) := by
  unfold flush
  dsimp only
  rw [h]
  rfl

variable [FaithfulSink σ]

/-- The table tallies with the log, and all that was appended and is not
held back lies in the file in one piece. -/
structure Kept (file : FlatFile) (state : ChunkTable × Output σ)
    (log : ChunkLog) : Prop where
  pending : state.1.pending = log.unwritten
  tallies : Tallies file.cursor state.1.newestFirst log.newestFirst
  written : ∃ stored, payloads log.newestFirst = stored ++ log.unwritten
    ∧ state.2.image = .ofSink (file.write stored)

variable {file : FlatFile} {state : ChunkTable × Output σ} {log : ChunkLog}

theorem Kept.openChunk (h : Kept file state log) :
    Kept file (proceed state .openChunk) (log.record .openChunk) where
  pending := h.pending
  tallies := .cons ⟨rfl, fun _ => rfl, nofun⟩ h.tallies
  written := by
    obtain ⟨stored, hpayloads, himage⟩ := h.written
    refine ⟨stored, ?_, himage⟩
    show payloads (⟨[], none⟩ :: log.newestFirst) = _
    rw [payloads_cons, List.append_nil, hpayloads]
    rfl

theorem Kept.append (h : Kept file state log) (data : Bytes)
    (duration : UInt32) :
    Kept file (proceed state (.append data duration))
      (log.record (.append data duration)) := by
  obtain ⟨⟨chunks, pending⟩, out⟩ := state
  obtain ⟨notes, unwritten⟩ := log
  obtain ⟨hpending, htallies, stored, hpayloads, himage⟩ := h
  cases htallies with
  | nil => exact ⟨hpending, .nil, stored, hpayloads, himage⟩
  | cons hnewest hrest =>
      refine ⟨congrArg (· ++ data) hpending,
        .cons (hnewest.append data duration) hrest, stored, ?_, himage⟩
      dsimp only [ChunkLog.record] at hpayloads ⊢
      rw [payloads_cons] at hpayloads ⊢
      rw [← List.append_assoc, hpayloads, List.append_assoc]

variable [NeverFails σ]

/-- On a sink that never fails what is held back is written. -/
theorem flush_ok {out : Output σ} (h : out.image = .ofSink file)
    (table : ChunkTable) :
    ∃ out', flush (table, out)
        = .ok table.pending.length (table.settle file.cursor, out')
      ∧ out'.image = .ofSink (file.write table.pending) := by
  have hflat := flush_flat table file
  rw [← h] at hflat
  obtain ⟨flushed, ⟨table', out'⟩, hok, rfl, hsame⟩ :=
    mirrors_flush.exists_ok (s := (table, out)) ‹NeverFails σ› hflat
  obtain ⟨rfl, himage⟩ := Prod.mk.inj hsame
  exact ⟨out', hok, himage⟩

/-- A flush of bytes held back gives the newest chunk the place where it
writes them. -/
theorem proceed_flush {out : Output σ} (h : out.image = .ofSink file)
    (chunk : Chunk) (older : List Chunk) {pending : Bytes}
    (hpending : pending ≠ []) :
    ∃ out', proceed (⟨chunk :: older, pending⟩, out) .flush
        = (⟨{ chunk with offset := file.cursor } :: older, []⟩, out')
      ∧ out'.image = .ofSink (file.write pending) := by
  obtain ⟨out', hflush, himage⟩ := flush_ok h ⟨chunk :: older, pending⟩
  refine ⟨out', (congrArg after hflush).trans ?_, himage⟩
  refine congrArg (·, out') ?_
  unfold settle
  rw [if_neg (by simpa using hpending)]
  rfl

theorem Kept.flush (h : Kept file state log) :
    Kept file (proceed state .flush) (log.record .flush) := by
  by_cases hnone : state.1.pending = []
  · have hstate : proceed state .flush = state :=
      congrArg after (flush_of_pending_nil hnone state.2)
    rw [hstate, ChunkLog.record_flush_of_nil (h.pending ▸ hnone)]
    exact h
  obtain ⟨⟨chunks, pending⟩, out⟩ := state
  obtain ⟨notes, unwritten⟩ := log
  obtain ⟨hpending, htallies, stored, hpayloads, himage⟩ := h
  obtain rfl : pending = unwritten := hpending
  have hpending : pending ≠ [] := hnone
  cases htallies with
  | nil => exact absurd (List.append_eq_nil_iff.mp hpayloads.symm).2 hpending
  | @cons chunk note chunks notes hnewest hrest =>
      obtain ⟨out', hstate, himage'⟩ :=
        proceed_flush himage chunk chunks hpending
      rw [hstate, ChunkLog.record_flush_of_ne_nil note notes hpending]
      dsimp only at hpayloads
      rw [payloads_cons] at hpayloads
      refine ⟨rfl, .cons (hnewest.write ?_) hrest, stored ++ pending, ?_, ?_⟩
      · rw [← length_eq_iff_of_append_eq hpayloads, FlatFile.cursor_write]
        omega
      · rw [← hpayloads, List.append_nil]
        exact payloads_cons _ _
      · rw [himage', FlatFile.write_write]

theorem Kept.fill (h : Kept file state log) (calls : List ChunkCall) :
    Kept file (fill calls state) (calls.foldl ChunkLog.record log) := by
  induction calls generalizing state log with
  | nil => exact h
  | cons call calls ih =>
      cases call with
      | openChunk => exact ih h.openChunk
      | append data duration => exact ih (h.append data duration)
      | flush => exact ih h.flush

-- ==================================================================== results

/-- All that was appended to a chunk lies in the file from `start` on, and
the entry of the chunk says how much it is. The entry also says where it is,
if the chunk was written whole. Otherwise it does not, unless the chunk was
never written as the newest one and happens to lie where the file begins. -/
structure Located (file : FlatFile) (start : Nat) (chunk : Chunk)
    (note : ChunkNote) : Prop where
  size : chunk.size = note.payload.length
  holds : file.bytes.HoldsAt start note.payload
  offset : chunk.offset = start
    ↔ note.whole? = some true ∨ note.whole? = none ∧ start = 0

omit [NeverFails σ] in
theorem Kept.located (h : Kept file state log)
    (hpending : state.1.pending = []) {index : Nat} {chunk : Chunk}
    {note : ChunkNote} (hchunk : state.1.toList[index]? = some chunk)
    (hnote : log.toList[index]? = some note) :
    Located (FaithfulSink.view state.2.sink)
      (file.cursor + (log.before index).length) chunk note := by
  have hstands := h.tallies.stands hchunk hnote
  refine ⟨hstands.size, ?_, hstands.offset_iff⟩
  obtain ⟨stored, hpayloads, himage⟩ := h.written
  rw [← h.pending, hpending, List.append_nil] at hpayloads
  have hview : FaithfulSink.view state.2.sink = file.write stored :=
    congrArg Output.sink himage
  have hall := Bytes.holdsAt_overwrite file.bytes file.cursor stored
  -- The notes before the chunk's and those behind it.
  rw [← hpayloads, ChunkLog.payloads_eq_before hnote] at hall
  rw [hview, ← hpayloads, ChunkLog.payloads_eq_before hnote]
  exact (Bytes.holdsAt_append.mp (Bytes.holdsAt_append.mp hall).1).2

/-- Whatever calls are made of a table without chunks, in whatever order, on
a sink that never fails and wherever its cursor stands: whenever nothing is
held back another flush does nothing, and all that was appended to a chunk
lies behind all that was appended to those before it, from where the cursor
stood. The entry of a chunk says so exactly if the last flush that wrote
something while it was the newest one wrote all of it, and nothing else. -/
theorem fill_places_iff {out : Output σ} (hfault : out.fault? = none)
    (calls : List ChunkCall) {table : ChunkTable} {out' : Output σ}
    (hfill : fill calls (.empty, out) = (table, out'))
    (hpending : table.pending = []) :
    flush (table, out') = .ok 0 (table, out')
      ∧ table.length = (ChunkLog.ofCalls calls).newestFirst.length
      ∧ ∀ (index : Nat) (chunk : Chunk) (note : ChunkNote),
        table.toList[index]? = some chunk →
        (ChunkLog.ofCalls calls).toList[index]? = some note →
        Located (FaithfulSink.view out'.sink)
          ((FaithfulSink.view out.sink).cursor
            + ((ChunkLog.ofCalls calls).before index).length) chunk note := by
  have hstart : Kept (FaithfulSink.view out.sink) (ChunkTable.empty, out)
      .empty :=
    ⟨rfl, .nil, [], rfl, Output.image_of_no_fault hfault⟩
  have hkept := hstart.fill calls
  rw [hfill] at hkept
  exact ⟨flush_of_pending_nil hpending out', hkept.tallies.length_eq,
    fun index chunk note hchunk hnote => hkept.located hpending hchunk hnote⟩

end

/-- Three chunks, each written in one piece before the next is started. The
one in the middle has no bytes. -/
def tidyCalls : List ChunkCall :=
  [.openChunk, .append [1, 2] 1, .append [3] 1, .flush,
    .openChunk, .append [] 1, .flush,
    .openChunk, .append [4] 1, .flush]

/-- In the middle of a file. -/
theorem fill_places_tidyCalls :
    ∃ (table : ChunkTable) (out : Output FlatFile),
      fill tidyCalls (.empty, .ofSink ⟨[9, 9, 9], 1⟩) = (table, out)
        ∧ table.pending = []
        ∧ out.sink = ⟨[9, 1, 2, 3, 4], 5⟩
        ∧ flush (table, out) = .ok 0 (table, out)
        ∧ Located out.sink 1 ⟨1, 3, 2, 2⟩ ⟨[1, 2, 3], some true⟩
        ∧ Located out.sink 4 ⟨4, 1, 1, 1⟩ ⟨[4], some true⟩ := by
  obtain ⟨hflush, -, hlocated⟩ := fill_places_iff
    (show (Output.ofSink (⟨[9, 9, 9], 1⟩ : FlatFile)).fault? = none from rfl)
    tidyCalls rfl rfl
  exact ⟨_, _, rfl, rfl, rfl, hflush, hlocated 0 _ _ rfl rfl,
    hlocated 2 _ _ rfl rfl⟩

/-- A chunk of three bytes is written in two pieces. The file ends right
behind it, and yet its entry says that it begins with the last byte. -/
theorem fill_moves_chunk :
    ∃ (table : ChunkTable) (out : Output FlatFile),
      fill [.openChunk, .append [1, 2] 1, .flush, .append [3] 1, .flush]
          (.empty, .ofSink .empty) = (table, out)
        ∧ table.pending = []
        ∧ table.toList = [⟨2, 3, 2, 2⟩]
        ∧ out.sink.bytes = [1, 2, 3]
        ∧ ¬ out.sink.bytes.HoldsAt 2 [1, 2, 3] := by
  refine ⟨_, _, rfl, rfl, rfl, rfl, ?_⟩
  unfold Bytes.HoldsAt
  decide

end ChunkTable

end AudioMux

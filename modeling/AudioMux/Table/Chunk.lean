/-
The chunks of a track.

A chunk is a run of samples that lie back to back in the file. The
newest chunk is still being filled: its bytes are held back until it is
flushed, and only then does it get its offset. As with samples, the
table keeps the newest chunk first.
-/
import AudioMux.Box.SampleTable
import AudioMux.Output

namespace AudioMux

/-- A run of samples in the file. The offset is zero until the chunk is
written. -/
structure Chunk where
  offset : Nat
  size : Nat
  samples : Nat
  duration : Nat
  deriving DecidableEq, Repr

/-- A chunk without samples. -/
def Chunk.empty : Chunk := ⟨0, 0, 0, 0⟩

/-- A chunk with one more sample. -/
def Chunk.add (chunk : Chunk) (size : Nat) (duration : UInt32) : Chunk :=
  { chunk with
    size := chunk.size + size
    samples := chunk.samples + 1
    duration := chunk.duration + duration.toNat }

/-- All chunks so far, and the bytes of the newest that are not yet
written. -/
structure ChunkTable where
  newestFirst : List Chunk
  pending : Bytes
  deriving DecidableEq, Repr

namespace ChunkTable

/-- A table without chunks. -/
def empty : ChunkTable := ⟨[], []⟩

/-- The chunks in the order they were opened. -/
def toList (table : ChunkTable) : List Chunk :=
  table.newestFirst.reverse

/-- The number of chunks. -/
def length (table : ChunkTable) : Nat := table.newestFirst.length

/-- The newest chunk. -/
def newest? (table : ChunkTable) : Option Chunk :=
  table.newestFirst.head?

/-- The size of all chunks, of the newest as well. -/
def totalSize (table : ChunkTable) : Nat :=
  table.newestFirst.foldr (fun chunk size => chunk.size + size) 0

/-- Whether a sample of this duration has to start a new chunk: the
chunks hold at most half a second. -/
def needsNewChunk (table : ChunkTable) (duration timescale : UInt32) :
    Bool :=
  match table.newestFirst with
  | [] => true
  | chunk :: _ =>
    timescale.toNat / 2 < chunk.duration + duration.toNat

/-- Starts a chunk. -/
def openChunk (table : ChunkTable) : ChunkTable :=
  { table with newestFirst := .empty :: table.newestFirst }

/-- Adds a sample to the newest chunk. -/
def append (data : Bytes) (duration : UInt32) (table : ChunkTable) :
    Except Failure ChunkTable :=
  match table.newestFirst with
  | [] => .error (.unsupported .noOpenChunk)
  | chunk :: older =>
    .ok ⟨chunk.add data.length duration :: older, table.pending ++ data⟩

/-- Gives the newest chunk its place in the file. -/
def place (offset : Nat) (table : ChunkTable) : ChunkTable :=
  match table.newestFirst with
  | [] => table
  | chunk :: older =>
    { table with newestFirst := { chunk with offset := offset } :: older }

/-- Writes the bytes held back at the cursor, which is where the newest
chunk then lies, and gives their number. Without such bytes nothing is
done. -/
def flush {σ : Type} [Sink σ] :
    EStateM Failure (ChunkTable × Output σ) Nat :=
  fun (table, out) =>
    if table.pending.isEmpty then
      .ok 0 (table, out)
    else
      match Output.position out with
      | .error failure out => .error failure (table, out)
      | .ok offset out =>
        let table := table.place offset
        match Output.write table.pending out with
        | .error failure out => .error failure (table, out)
        | .ok () out =>
          .ok table.pending.length ({ table with pending := [] }, out)

/-- Moves every chunk further into the file. -/
def shift (distance : Nat) (table : ChunkTable) : ChunkTable :=
  { table with
    newestFirst := table.newestFirst.map fun chunk =>
      { chunk with offset := chunk.offset + distance } }

/-- The numbers of samples in runs of equal ones. Chunks are counted
from `number`, and the chunk before held `previous` samples. -/
def sampleRuns (number : Nat) (previous? : Option Nat) :
    List Chunk → List Box.ChunkRun
  | [] => []
  | chunk :: rest =>
    let later := sampleRuns (number + 1) (some chunk.samples) rest
    if previous? = some chunk.samples then later
    else
      ⟨UInt32.ofNat number, UInt32.ofNat chunk.samples, 1⟩ :: later

/-- The number of samples of each chunk. -/
def sampleToChunk (table : ChunkTable) : Box.SampleToChunk :=
  ⟨sampleRuns 1 none table.toList⟩

/-- Where the chunks lie once they are moved by `distance`. The newest
one lies furthest, so it decides the width. -/
def offsets (distance : Nat) (table : ChunkTable) : Box.ChunkOffsets :=
  let moved := table.toList.map fun chunk => chunk.offset + distance
  match table.newestFirst with
  | chunk :: _ =>
    if Box.maxWord32 < chunk.offset + distance then
      .wide (moved.map UInt64.ofNat)
    else
      .narrow (moved.map UInt32.ofNat)
  | [] => .narrow []

end ChunkTable

end AudioMux

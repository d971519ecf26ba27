/-
A file in memory.

The file may have holes: positions reach as far as 64 bits, and only
what was written takes room. It remembers its writes, the latest first,
and a byte is what the latest write over its position says. That is
the view `byteAt?`; `slice` reads a stretch at once and `runs` lists
the stretches ever written.

A file can be made to fail: it may be full from some position on,
refuse positions past a limit, or refuse to be read or flushed.
-/
import AudioMux.Sink.Basic

namespace AudioMux

/-- Bytes written at a position. -/
structure Segment where
  start : Nat
  data : ByteArray

namespace Segment

/-- The position after the last byte. -/
def stop (segment : Segment) : Nat := segment.start + segment.data.size

/-- The byte at a position of the file. -/
def byteAt? (segment : Segment) (position : Nat) : Option UInt8 :=
  if segment.start ≤ position then
    segment.data.data[position - segment.start]?
  else
    none

/-- Copies the part of a segment that lies in a stretch of the file onto
the bytes of the stretch. -/
def overlay (start : Nat) (segment : Segment) (bytes : ByteArray) :
    ByteArray :=
  let first := max start segment.start
  let last := min (start + bytes.size) segment.stop
  if first < last then
    segment.data.copySlice (first - segment.start) bytes (first - start)
      (last - first)
  else
    bytes

end Segment

/-- A file in memory, its cursor, and the ways it is made to fail. -/
structure SparseFile where
  /-- What was written, the latest first. -/
  writes : List Segment
  cursor : Nat
  /-- Only positions below are stored. -/
  capacity : Nat
  /-- The cursor cannot be moved to a position above. -/
  seekLimit : Nat
  failRead : Bool
  failFlush : Bool

namespace SparseFile

/-- An empty file that does not fail. -/
def empty : SparseFile where
  writes := []
  cursor := 0
  capacity := 0xffffffffffffffff
  seekLimit := 0xffffffffffffffff
  failRead := false
  failFlush := false

instance : Inhabited SparseFile := ⟨empty⟩

/-- The byte at a position, if one was ever written there. -/
def byteAt? (file : SparseFile) (position : Nat) : Option UInt8 :=
  file.writes.findSome? fun segment => segment.byteAt? position

/-- The position after the last byte. -/
def length (file : SparseFile) : Nat :=
  file.writes.foldr (fun segment n => max segment.stop n) 0

/-- The bytes of a stretch of the file, with zeros in the holes. -/
def slice (file : SparseFile) (start count : Nat) : ByteArray :=
  file.writes.foldr (Segment.overlay start) (Bytes.zeros count).toByteArray

/-- All bytes from the start on, with zeros in the holes. -/
def contents (file : SparseFile) : ByteArray :=
  file.slice 0 file.length

/-- Joins stretches that overlap or touch. They come sorted by their
start, and the one in progress is given by its start and end. -/
def joinRuns (start stop : Nat) : List (Nat × Nat) → List (Nat × Nat)
  | [] => [(start, stop)]
  | (nextStart, nextStop) :: rest =>
    if nextStart ≤ stop then joinRuns start (max stop nextStop) rest
    else (start, stop) :: joinRuns nextStart nextStop rest

/-- The longest stretches without a hole, in order, as positions and
their bytes. -/
def runs (file : SparseFile) : List Segment :=
  let written := file.writes.filterMap fun segment =>
    if segment.data.size = 0 then none else some (segment.start, segment.stop)
  match written.mergeSort fun a b => a.1 ≤ b.1 with
  | [] => []
  | (start, stop) :: rest =>
    (joinRuns start stop rest).map fun (start, stop) =>
      ⟨start, file.slice start (stop - start)⟩

/-- Stores bytes at the cursor and moves it past them. A full file takes
the bytes that fit. -/
def write (bytes : Bytes) : EStateM IoFailure SparseFile Unit := do
  let room := (← get).capacity - (← get).cursor
  let stored := bytes.take room
  modify fun file => { file with
    writes := ⟨file.cursor, stored.toByteArray⟩ :: file.writes
    cursor := file.cursor + min bytes.length room }
  unless bytes.length ≤ room do
    throw ⟨.writeZero, "disk full"⟩

/-- Reads bytes at the cursor. If the file ends too early the cursor is
left at its end. -/
def read (count : Nat) : EStateM IoFailure SparseFile Bytes := do
  let file ← get
  if file.failRead then
    throw ⟨.permissionDenied, "read denied"⟩
  if file.cursor + count ≤ file.length then
    set { file with cursor := file.cursor + count }
    pure (file.slice file.cursor count).data.toList
  else
    set { file with cursor := max file.cursor file.length }
    throw ⟨.unexpectedEnd, "failed to fill whole buffer"⟩

/-- Moves the cursor, up to the limit. -/
def seek (target : Nat) : EStateM IoFailure SparseFile Unit := do
  if (← get).seekLimit < target then
    throw ⟨.invalidInput, "seek denied"⟩
  modify fun file => { file with cursor := target }

/-- Nothing is held back, but the file may refuse. -/
def flush : EStateM IoFailure SparseFile Unit := do
  if (← get).failFlush then
    throw ⟨.brokenPipe, "flush failed"⟩

instance : Sink SparseFile where
  write := write
  read := read
  position := do pure (← get).cursor
  seek := seek
  flush := flush

end SparseFile

end AudioMux

/-
A probe: a sink that throws all bytes away and keeps only its cursor
and how far it came. It measures what a writer would write.
-/
import AudioMux.Sink.Basic

namespace AudioMux

/-- A cursor, and the furthest end of anything written. -/
structure Probe where
  cursor : Nat
  extent : Nat
  deriving DecidableEq, Repr

namespace Probe

/-- A probe that nothing was written to. -/
def empty : Probe := ⟨0, 0⟩

/-- Whether nothing was written. -/
def isEmpty (probe : Probe) : Bool := probe.extent == 0

/-- Where a move is counted from. -/
inductive Origin where
  | start
  | cursor
  | extent
  deriving DecidableEq, Repr

/-- The position an origin stands for. -/
def originPosition (probe : Probe) : Origin → Nat
  | .start => 0
  | .cursor => probe.cursor
  | .extent => probe.extent

/-- Moves the cursor to a distance from an origin and tells where it is.
A place before the start, or past the last 64-bit position, is
refused. -/
def move (origin : Origin) (distance : Int) :
    EStateM IoFailure Probe Nat := do
  let target := (← get).originPosition origin + distance
  if 0 ≤ target ∧ target < 0x10000000000000000 then
    modify fun probe => { probe with cursor := target.toNat }
    pure target.toNat
  else
    throw ⟨.invalidInput, "seek before start of probe"⟩

/-- Passes over bytes and counts them. -/
def write (bytes : Bytes) : EStateM IoFailure Probe Nat := do
  modify fun probe =>
    let cursor := probe.cursor + bytes.length
    ⟨cursor, max probe.extent cursor⟩
  pure bytes.length

/-- There is nothing to read. -/
def read : EStateM IoFailure Probe Bytes :=
  throw ⟨.unsupported, "probe sink holds no data"⟩

instance : Sink Probe where
  write bytes := discard (write bytes)
  read _ := read
  position := do pure (← get).cursor
  seek target := discard (move .start target)
  flush := pure ()

/-- How many bytes an action writes. -/
def measure {α : Type} (action : EStateM IoFailure Probe α) : Nat :=
  match action empty with
  | .ok _ probe => probe.extent
  | .error _ probe => probe.extent

end Probe

end AudioMux

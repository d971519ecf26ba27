/-
The output: a sink with a memory for faults.

The first failure of the sink is kept, and from then on every action
fails with `Failure.faulted` without touching the sink. On top of that
come the actions that write boxes piece by piece: a box is opened with
a size of zero, and closed by going back and writing the size it has
reached.
-/
import AudioMux.Box.File
import AudioMux.Sink.Basic

namespace AudioMux

/-- A sink and the first fault, if there was one. -/
structure Output (σ : Type) where
  sink : σ
  fault? : Option Fault

/-- What is done on an output: a failure leaves the output as far as the
action got. -/
abbrev Writing (σ : Type) := EStateM Failure (Output σ)

namespace Output

variable {σ : Type}

/-- An output without faults. -/
def ofSink (sink : σ) : Output σ := ⟨sink, none⟩

/-- Remembers a failure that is a fault, unless there already is
one. -/
def latch (failure : Failure) (out : Output σ) : Output σ :=
  { out with fault? := out.fault?.or failure.fault? }

/-- Fails if there is a fault. -/
def check : Writing σ Unit := do
  if (← get).fault?.isSome then
    throw .faulted

/-- Does something with the sink, unless there is a fault, and remembers
its failure. -/
def perform {α : Type} (action : EStateM IoFailure σ α) : Writing σ α :=
  fun out =>
    match out.fault? with
    | some _ => .error .faulted out
    | none =>
      match action out.sink with
      | .ok a sink => .ok a ⟨sink, none⟩
      | .error failure sink =>
        .error (.io failure) (latch (.io failure) ⟨sink, none⟩)

variable [Sink σ]

/-- The position of the cursor. -/
def position : Writing σ Nat := perform Sink.position

/-- Moves the cursor to a position. -/
def seek (target : Nat) : Writing σ Unit := perform (Sink.seek target)

/-- Writes bytes. -/
def write (bytes : Bytes) : Writing σ Unit := perform (Sink.writeAll bytes)

/-- Reads exactly so many bytes. -/
def read (count : Nat) : Writing σ Bytes := perform (Sink.readExact count)

/-- Hands on whatever the sink holds back. -/
def flush : Writing σ Unit := perform Sink.flush

/-- Writes the low bits of a number as a word of `width` bytes. -/
def writeWord (width n : Nat) : Writing σ Unit :=
  write (Bytes.bigEndian width n)

/-- Writes a 32-bit word at a position and comes back. -/
def writeWord32At (target n : Nat) : Writing σ Unit := do
  let here ← position
  seek target
  writeWord 4 n
  seek here

/-- Writes a whole box. -/
def put {α : Type} [Box.Format α] (box : α) : Writing σ Unit :=
  write (Box.encode box)

/-- Writes the header of a box with a size of zero, and gives the
position where the box starts. -/
def openBox (kind : FourCC) : Writing σ Nat := do
  let start ← position
  writeWord 4 0
  write kind.bytes
  pure start

/-- Writes the size of the box that starts at a position and ends at the
cursor, and gives that size. A box that needs a 64-bit size is left as
it is. -/
def closeBox (start : Nat) : Writing σ Nat := do
  let size := (← position) - start
  if Box.maxWord32 < size then
    throw (.unsupported (.boxTooLarge size))
  writeWord32At start size
  pure size

end Output

end AudioMux

/-
Sinks: what a file is written into.

A sink has a cursor. Its operations may fail, and a failed operation
may still have done part of its work, so each is a state action that
gives the sink back in either case. The muxer is written against this
class alone.

An empty write and a read of nothing never reach the sink; `writeAll`
and `readExact` see to that.
-/
import AudioMux.Failure

namespace AudioMux

/-- Something that can be written, read back and moved about in. -/
class Sink (σ : Type) where
  /-- Writes all the bytes at the cursor and moves it past them. -/
  write : Bytes → EStateM IoFailure σ Unit
  /-- Reads exactly so many bytes at the cursor and moves it past
  them. -/
  read : Nat → EStateM IoFailure σ Bytes
  /-- The position of the cursor. -/
  position : EStateM IoFailure σ Nat
  /-- Moves the cursor to a position. -/
  seek : Nat → EStateM IoFailure σ Unit
  /-- Hands on whatever the sink holds back. -/
  flush : EStateM IoFailure σ Unit

namespace Sink

variable {σ : Type} [Sink σ]

/-- Writes bytes, unless there are none. -/
def writeAll (bytes : Bytes) : EStateM IoFailure σ Unit :=
  if bytes.isEmpty then pure () else write bytes

/-- Reads so many bytes, unless none are asked for. -/
def readExact (count : Nat) : EStateM IoFailure σ Bytes :=
  if count = 0 then pure [] else read count

end Sink

end AudioMux

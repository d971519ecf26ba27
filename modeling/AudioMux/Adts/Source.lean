/-
Sources of bytes.

A source hands its bytes out in pieces, and a single read may give less
than was asked for, be interrupted, or fail. A `Source` lists what its
reads run into, one after the other, so every way of cutting up and
disturbing a stream is a value of this type. `readFull` gathers as many
bytes as it was asked for, retrying interrupted reads, and stops early
only where a read gives nothing.
-/
import AudioMux.Failure

namespace AudioMux.Adts

/-- What a read can run into. -/
inductive ReadEvent where
  /-- Bytes are there. A read takes what it needs of them; a read that
  finds none has come to the end, for now. -/
  | data (bytes : Bytes)
  /-- The read was interrupted and can be tried again. -/
  | interrupted
  | failed (failure : IoFailure)
  deriving DecidableEq, Repr

/-- A source of bytes. -/
structure Source where
  events : List ReadEvent
  /-- How reads fail once all events are over. Without it they give
  nothing, which is the end of the stream. -/
  failure? : Option IoFailure
  deriving DecidableEq, Repr

namespace Source

/-- A source that gives all its bytes at once. -/
def ofBytes (bytes : Bytes) : Source := ⟨[.data bytes], none⟩

/-- Bytes cut into pieces of `size`, where the last may be shorter. -/
def pieces (size : Nat) (bytes : Bytes) : List Bytes :=
  if bytes.isEmpty ∨ size = 0 then []
  else bytes.take size :: pieces size (bytes.drop size)
termination_by bytes.length
decreasing_by
  cases bytes with
  | nil => simp_all
  | cons byte rest => simp [List.length_drop]; omega

/-- The number of bytes in the events. -/
def eventBytes : List ReadEvent → Nat
  | [] => 0
  | .data bytes :: rest => bytes.length + eventBytes rest
  | _ :: rest => eventBytes rest

/-- The number of bytes the source still has. -/
def remaining (source : Source) : Nat := eventBytes source.events

/-- A piece of data in front of other events. Without bytes there is no
piece. -/
def putBack (bytes : Bytes) (rest : List ReadEvent) : List ReadEvent :=
  if bytes.isEmpty then rest else .data bytes :: rest

/-- Gathers `count` bytes, of which there are some to gather, from the
events, after the bytes `gathered`, which come latest first. Gives what
was gathered, in order, and the events that are left. -/
def gather (failure? : Option IoFailure) (gathered : Bytes) (count : Nat) :
    List ReadEvent → Except IoFailure Bytes × List ReadEvent
  | [] =>
    match failure? with
    | some failure => (.error failure, [])
    | none => (.ok gathered.reverse, [])
  | .interrupted :: rest => gather failure? gathered count rest
  | .failed failure :: rest => (.error failure, rest)
  | .data bytes :: rest =>
    if bytes.isEmpty then
      (.ok gathered.reverse, rest)
    else if (bytes.take count).length < count then
      gather failure? (bytes.reverse ++ gathered) (count - bytes.length) rest
    else
      (.ok (gathered.reverse ++ bytes.take count),
        putBack (bytes.drop count) rest)

/-- Reads `count` bytes, or fewer if the stream ends before. A failed
read loses what was gathered. -/
def readFull (count : Nat) : EStateM IoFailure Source Bytes := fun source =>
  if count = 0 then
    .ok [] source
  else
    match gather source.failure? [] count source.events with
    | (.ok bytes, events) => .ok bytes { source with events := events }
    | (.error failure, events) =>
      .error failure { source with events := events }

-- ================================================================= laws

theorem eventBytes_putBack (bytes : Bytes) (rest : List ReadEvent) :
    eventBytes (putBack bytes rest) = bytes.length + eventBytes rest := by
  cases bytes <;> simp [putBack, eventBytes]

/-- What was gathered was there before. -/
theorem eventBytes_gather {failure? : Option IoFailure}
    {events : List ReadEvent} {gathered : Bytes} {count : Nat}
    {bytes : Bytes} {rest : List ReadEvent}
    (h : gather failure? gathered count events = (.ok bytes, rest)) :
    bytes.length + eventBytes rest
      = gathered.length + eventBytes events := by
  induction events generalizing gathered count with
  | nil =>
    cases failure? with
    | some failure => simp [gather] at h
    | none =>
      simp only [gather, Prod.mk.injEq, Except.ok.injEq] at h
      obtain ⟨rfl, rfl⟩ := h
      simp
  | cons event events ih =>
    cases event with
    | interrupted => exact ih h
    | failed failure => simp [gather] at h
    | data piece =>
      simp only [gather] at h
      split at h
      · next hempty =>
        simp only [Prod.mk.injEq, Except.ok.injEq] at h
        obtain ⟨rfl, rfl⟩ := h
        simp_all [eventBytes]
      · split at h
        · have := ih h
          simp [eventBytes] at this ⊢
          omega
        · simp only [Prod.mk.injEq, Except.ok.injEq] at h
          obtain ⟨rfl, rfl⟩ := h
          simp [eventBytes, eventBytes_putBack]
          omega

/-- A successful read takes the bytes it gives from the source. -/
theorem remaining_readFull {source rest : Source} {count : Nat}
    {bytes : Bytes} (h : readFull count source = .ok bytes rest) :
    bytes.length + rest.remaining = source.remaining := by
  unfold readFull at h
  split at h
  · cases h
    simp
  · split at h
    · next hgather =>
      cases h
      simpa [remaining] using eventBytes_gather hgather
    · cases h

end Source

end AudioMux.Adts

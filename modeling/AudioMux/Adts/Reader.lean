/-
Reading an ADTS stream frame by frame.

A reader keeps the offset of the frame it expects next, so that frames
and failures can say where they are. The stream ends well only between
two frames. `frames` reads all frames up to the end or to the first
failure; it ends because every frame takes bytes from the source
(`remaining_next`).
-/
import AudioMux.Action
import AudioMux.Adts.Header
import AudioMux.Adts.Source

namespace AudioMux.Adts

/-- Why a frame cannot be used. -/
inductive Unusable where
  /-- There are several raw data blocks in it, given by their number. -/
  | rawBlocks (count : Nat)
  | tooShort (length : Nat)
  deriving DecidableEq, Repr

/-- The reason as text. -/
def Unusable.message : Unusable → String
  | .rawBlocks count => s!"{count} raw data blocks in one frame"
  | .tooShort length => s!"frame length {length} is shorter than its header"

/-- Why no frame could be read, and where. -/
inductive ReadFailure where
  | io (failure : IoFailure)
  | lostSync (offset : Nat)
  | truncated (offset : Nat)
  | unusable (offset : Nat) (reason : Unusable)
  deriving DecidableEq, Repr

namespace ReadFailure

/-- The message of a failure. -/
def message : ReadFailure → String
  | .io failure => failure.message
  | .lostSync offset => s!"No ADTS sync word at byte {offset}"
  | .truncated offset => s!"ADTS frame at byte {offset} is truncated"
  | .unusable offset reason =>
    s!"Unsupported ADTS frame at byte {offset}: {reason.message}"

/-- The messages of a failure and of what caused it, the outermost
first. -/
def chain : ReadFailure → List String
  | .io failure => [failure.message, failure.message]
  | failure => [failure.message]

end ReadFailure

/-- A frame without its header. -/
structure Frame where
  header : Header
  /-- Where the frame starts in the stream. -/
  offset : Nat
  /-- The raw access unit. -/
  payload : Bytes
  deriving DecidableEq, Repr

/-- A stream that is being read. -/
structure Reader where
  source : Source
  /-- Where the next frame should start. -/
  offset : Nat
  deriving DecidableEq, Repr

namespace Reader

/-- A reader at the start of a stream. -/
def ofSource (source : Source) : Reader := ⟨source, 0⟩

/-- Reads up to `count` bytes. -/
def take (count : Nat) : EStateM ReadFailure Reader Bytes := fun reader =>
  match Source.readFull count reader.source with
  | .ok bytes source => .ok bytes { reader with source := source }
  | .error failure source =>
    .error (.io failure) { reader with source := source }

/-- Reads exactly `count` bytes of the frame at an offset. -/
def takeExactly (offset count : Nat) :
    EStateM ReadFailure Reader Bytes := do
  let bytes ← take count
  if bytes.length ≠ count then
    throw (.truncated offset)
  pure bytes

/-- The header in the first bytes of the frame at an offset, if the frame
can be used. -/
def checkHeader (offset : Nat) (bytes : Bytes) :
    Except ReadFailure Header :=
  if bytes.length ≠ Header.fixedLength then
    .error (.truncated offset)
  else match Header.parse? bytes with
    | none => .error (.lostSync offset)
    | some header =>
      if header.rawBlocks ≠ 0 then
        .error (.unusable offset (.rawBlocks (header.rawBlocks + 1)))
      else if header.frameLength < header.length then
        .error (.unusable offset (.tooShort header.frameLength))
      else
        .ok header

/-- Reads the next frame, or nothing at the end of the stream. -/
def next : EStateM ReadFailure Reader (Option Frame) := do
  let offset := (← get).offset
  let fixed ← take Header.fixedLength
  if fixed.isEmpty then
    pure none
  else
    match checkHeader offset fixed with
    | .error failure => throw failure
    | .ok header =>
      let _checksum ← takeExactly offset (header.length - Header.fixedLength)
      let payload ← takeExactly offset (header.frameLength - header.length)
      modify fun reader =>
        { reader with offset := reader.offset + header.frameLength }
      pure (some ⟨header, offset, payload⟩)

-- ================================================================= laws

theorem remaining_take {count : Nat} {bytes : Bytes} {reader rest : Reader}
    (h : take count reader = .ok bytes rest) :
    bytes.length + rest.source.remaining = reader.source.remaining := by
  unfold take at h
  split at h
  · next hread =>
    cases h
    exact Source.remaining_readFull hread
  · cases h

theorem remaining_takeExactly {offset count : Nat} {bytes : Bytes}
    {reader rest : Reader}
    (h : takeExactly offset count reader = .ok bytes rest) :
    rest.source.remaining ≤ reader.source.remaining := by
  unfold takeExactly at h
  cases htake : take count reader with
  | error failure after =>
    rw [Action.apply_bind_error htake] at h
    cases h
  | ok taken after =>
    rw [Action.apply_bind_ok htake] at h
    have htaken := remaining_take htake
    by_cases hcount : taken.length = count
    · rw [if_neg (not_not_intro hcount)] at h
      cases h
      omega
    · rw [if_pos hcount] at h
      cases h

/-- Every frame takes bytes from the source. -/
theorem remaining_next {frame : Frame} {reader rest : Reader}
    (h : next reader = .ok (some frame) rest) :
    rest.source.remaining < reader.source.remaining := by
  unfold next at h
  rw [Action.apply_bind_ok (Action.apply_get reader)] at h
  cases htake : take Header.fixedLength reader with
  | error failure after =>
    rw [Action.apply_bind_error htake] at h
    cases h
  | ok fixed after =>
    rw [Action.apply_bind_ok htake] at h
    have htaken := remaining_take htake
    cases fixed with
    | nil => cases h
    | cons byte more =>
      rw [if_neg (by simp)] at h
      cases hheader : checkHeader reader.offset (byte :: more) with
      | error failure =>
        rw [hheader] at h
        cases h
      | ok header =>
        rw [hheader] at h
        dsimp only at h
        cases hsum : takeExactly reader.offset
            (header.length - Header.fixedLength) after with
        | error failure summed =>
          rw [Action.apply_bind_error hsum] at h
          cases h
        | ok checksum summed =>
          rw [Action.apply_bind_ok hsum] at h
          cases hpay : takeExactly reader.offset
              (header.frameLength - header.length) summed with
          | error failure paid =>
            rw [Action.apply_bind_error hpay] at h
            cases h
          | ok payload paid =>
            rw [Action.apply_bind_ok hpay] at h
            cases h
            have hsummed := remaining_takeExactly hsum
            have hpaid := remaining_takeExactly hpay
            rw [List.length_cons] at htaken
            show paid.source.remaining < reader.source.remaining
            omega

-- =============================================================== streams

/-- All frames up to the end of the stream, or up to the first failure,
and that failure. -/
def frames (reader : Reader) : List Frame × Option ReadFailure :=
  match _h : next reader with
  | .error failure _ => ([], some failure)
  | .ok none _ => ([], none)
  | .ok (some frame) rest =>
    let (later, failure?) := frames rest
    (frame :: later, failure?)
termination_by reader.source.remaining
decreasing_by exact remaining_next _h

end Reader

end AudioMux.Adts

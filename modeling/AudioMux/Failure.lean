/-
What can go wrong, by its cause, and the message for each.

A failure of a file or stream has a kind, by which a program decides,
and a message of its own. A request that makes no sense, or comes at
the wrong time, is unsupported for a stated reason. Only failures of
the first sort (and a lack of memory) are remembered by an output, see
`Fault`: an unsupported request changes nothing.
-/
import AudioMux.Box.FourCC
import AudioMux.Text.Quoted

namespace AudioMux

/-- The kinds of failure of files and streams. -/
inductive IoKind where
  | notFound
  | permissionDenied
  | notDirectory
  | isDirectory
  | invalidName
  | invalidInput
  | invalidData
  | unexpectedEnd
  | writeZero
  | brokenPipe
  | connectionReset
  | timedOut
  | unsupported
  | other
  deriving DecidableEq, Repr

/-- A failure of a file or a stream. -/
structure IoFailure where
  kind : IoKind
  message : String
  deriving DecidableEq, Repr

/-- Why a request is not supported. -/
inductive Unsupported where
  /-- The first track holds text. -/
  | primaryTrackNotAudio
  | zeroTimescale
  /-- A setting changed after the file was closed. -/
  | finalized
  | trackOutOfRange (index count : Nat)
  | trackAfterStart
  | tooManyTracks (limit : Nat)
  | alreadyWriting
  | notWriting
  | neverBegun
  | alreadyFinalized
  | sampleTooLarge (size : Nat)
  | boxTooLarge (size : Nat)
  /-- The movie box kept growing with the gap made for it. -/
  | unsettledMovie (passes : Nat)
  | noOpenChunk
  | unknownGaplessMode (text : String)
  | namelessFreeForm
  | bareTotal
  | unknownImage
  | notANumber (code : FourCC) (text : String)
  | notANumberPair (text : String)
  /-- A reason of the caller's own. -/
  | because (reason : String)
  deriving DecidableEq, Repr

/-- The reason as text. -/
def Unsupported.message : Unsupported → String
  | .primaryTrackNotAudio => "the primary track must be AAC or ALAC"
  | .zeroTimescale => "timescale must be nonzero"
  | .finalized => "the muxer is finalized"
  | .trackOutOfRange index count =>
    s!"track {index} out of range (0..{count})"
  | .trackAfterStart => "tracks must be added before writing starts"
  | .tooManyTracks limit => s!"at most {limit} tracks are supported"
  | .alreadyWriting => "writing already started"
  | .notWriting => "samples can only be added after begin_write"
  | .neverBegun => "begin_write was never called"
  | .alreadyFinalized => "already finalized"
  | .sampleTooLarge size => s!"sample of {size} bytes"
  | .boxTooLarge size => s!"box of {size} bytes needs a 64-bit size"
  | .unsettledMovie passes =>
    s!"moov size did not settle after {passes} passes"
  | .noOpenChunk => "no open chunk"
  | .unknownGaplessMode text =>
    "unknown gapless mode " ++ Text.quoted text ++
      ", expected none, legacy, iso or both"
  | .namelessFreeForm => "free-form items need a name"
  | .bareTotal => "a bare total must be merged into trkn or disk"
  | .unknownImage => "artwork is not a GIF, JPEG or PNG image"
  | .notANumber code text =>
    code.text ++ " expects a number, got " ++ Text.quoted text
  | .notANumberPair text =>
    "expected `n` or `n/total`, got " ++ Text.quoted text
  | .because reason => reason

/-- Why a call failed. -/
inductive Failure where
  /-- A file or stream failed. -/
  | io (failure : IoFailure)
  | outOfMemory
  /-- The request cannot be met, or not now. -/
  | unsupported (reason : Unsupported)
  /-- An earlier failure made the muxer unusable. -/
  | faulted
  deriving DecidableEq, Repr

/-- The message of a failure. -/
def Failure.message : Failure → String
  | .io failure => failure.message
  | .outOfMemory => "Out of memory"
  | .unsupported reason => "Unsupported: " ++ reason.message
  | .faulted => "Muxer is faulted by an earlier error"

/-- The messages of a failure and of what caused it, the outermost
first. A failure of a file repeats the message of its cause. -/
def Failure.chain : Failure → List String
  | .io failure => [failure.message, failure.message]
  | failure => [failure.message]

/-- A failure that is remembered. -/
inductive Fault where
  | io (kind : IoKind)
  | outOfMemory
  deriving DecidableEq, Repr

/-- What is remembered of a failure: an unsupported request is not, and
neither is the report of an earlier fault. -/
def Failure.fault? : Failure → Option Fault
  | .io failure => some (.io failure.kind)
  | .outOfMemory => some .outOfMemory
  | .unsupported _ => none
  | .faulted => none

end AudioMux

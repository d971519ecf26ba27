/-
Tags from text: the code says how a text is to be read. Some codes take
a number of a fixed width, the numbers of a track and of a disc take an
optional total after a slash, and all others take the text as it is. A
number that does not fit is refused.
-/
import AudioMux.Tag.Basic
import AudioMux.Text.Words

namespace AudioMux.Tag

/-- A number of at most `max`, for the item of a code. White space
around it is ignored. -/
def number (code : FourCC) (max : Nat) (text : String) :
    Except Failure Nat :=
  match Text.unsigned? max (Text.trim text) with
  | some n => .ok n
  | none => .error (.unsupported (.notANumber code text))

/-- A number of 16 bits with an optional total after a slash, zero
without one. -/
def numberPair? (text : String) : Option (UInt16 × UInt16) := do
  let (number, total) := (Text.splitFirst '/' text).getD (text, "0")
  let number ← Text.unsigned? 0xffff (Text.trim number)
  let total ← Text.unsigned? 0xffff (Text.trim total)
  pure (UInt16.ofNat number, UInt16.ofNat total)

/-- Codes of items with an 8-bit number. -/
def int8Codes : List FourCC :=
  [Code.compilation, .ofChars 'a' 'k' 'I' 'D', .ofChars 'h' 'd' 'v' 'd',
    .ofChars 'p' 'c' 's' 't', .ofChars 'p' 'g' 'a' 'p',
    .ofChars 'r' 't' 'n' 'g', .ofChars 's' 't' 'i' 'k']

/-- Codes of items with a 32-bit number. -/
def int32Codes : List FourCC :=
  [.ofChars 'a' 't' 'I' 'D', .ofChars 'c' 'm' 'I' 'D',
    .ofChars 'c' 'n' 'I' 'D', .ofChars 'g' 'e' 'I' 'D',
    .ofChars 's' 'f' 'I' 'D', .ofChars 't' 'v' 's' 'n',
    .ofChars 't' 'v' 's' 's']

/-- Codes of items with a 64-bit number. -/
def int64Codes : List FourCC := [.ofChars 'p' 'l' 'I' 'D']

/-- The tag of a text for the item of a code. A bare total gives a tag
without a number. -/
def ofText (code : FourCC) (text : String) : Except Failure Tag :=
  if code = Code.trackTotal then do
    pure (.track 0 (UInt16.ofNat (← number Code.track 0xffff text)))
  else if code = Code.discTotal then do
    pure (.disc 0 (UInt16.ofNat (← number Code.disc 0xffff text)))
  else if code = Code.track ∨ code = Code.disc then
    match numberPair? text with
    | none => .error (.unsupported (.notANumberPair text))
    | some (number, total) =>
      .ok (if code = Code.track then .track number total
        else .disc number total)
  else if code = Code.genreIndex then do
    pure (.genre (UInt16.ofNat (← number code 0xffff text)))
  else if code = Code.tempo then do
    pure (.int16 code (UInt16.ofNat (← number code 0xffff text)))
  else if code ∈ int8Codes then do
    pure (.int8 code (UInt8.ofNat (← number code 0xff text)))
  else if code ∈ int32Codes then do
    pure (.int32 code (UInt32.ofNat (← number code 0xffffffff text)))
  else if code ∈ int64Codes then do
    pure (.int64 code (UInt64.ofNat (← number code 0xffffffffffffffff text)))
  else
    .ok (.text code text)

end AudioMux.Tag

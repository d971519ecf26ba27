/-
The edit list: which stretch of the media is played. A stretch is a
duration in the movie's timescale and a start in the media's. The list
uses one field width for all its entries.
-/
import AudioMux.Box.Format

namespace AudioMux.Box

/-- One stretch of media to play. -/
structure Edit where
  duration : UInt64
  mediaTime : Int64
  deriving DecidableEq, Repr

/-- The stretches to play and the rate to play them at. -/
structure EditList where
  edits : List Edit
  rateInteger : Int16
  rateFraction : Int16
  deriving DecidableEq, Repr

namespace EditList

/-- Whether some edit needs 64-bit fields: its duration is past 32 bits
or its start is no signed 32-bit number. -/
def isWide (box : EditList) : Bool :=
  box.edits.any fun edit =>
    maxWord32 < edit.duration.toNat ||
      edit.mediaTime.toInt < -0x80000000 || 0x7fffffff < edit.mediaTime.toInt

/-- The width of the fields of an edit. -/
def width (box : EditList) : Nat :=
  if box.isWide then 8 else 4

end EditList

/-- An edit's duration and start, each at the given width. -/
def Edit.encode (width : Nat) (edit : Edit) : Bytes :=
  Bytes.bigEndian width edit.duration.toNat ++
    Bytes.bigEndian width edit.mediaTime.toUInt64.toNat

/-- The rate follows the entries, once for the whole list. -/
instance : Format EditList where
  kind _ := .ofChars 'e' 'l' 's' 't'
  full? box := some ⟨widthVersion box.width, 0⟩
  size box := 12 + 4 + box.edits.length * (2 * box.width) + 2 + 2
  body box :=
    countedList (Edit.encode box.width) box.edits ++
    Bytes.word16 box.rateInteger.toUInt16 ++
    Bytes.word16 box.rateFraction.toUInt16

/-- The box around an edit list. -/
structure EditBox where
  editList : EditList
  deriving DecidableEq, Repr

instance : Format EditBox where
  kind _ := .ofChars 'e' 'd' 't' 's'
  full? _ := none
  size box := 8 + Format.size box.editList
  body box := encode box.editList

end AudioMux.Box

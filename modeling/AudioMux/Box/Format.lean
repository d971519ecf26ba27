/-
How a box is laid out: a header with a size and a kind, for a full box
a version and flags, and then the body.

A type of box says its kind, its version and flags, its size and its
body through an instance of `Format`. The size is a formula of its own:
it is known before anything is written, since the header comes first.
`encode` puts the parts together.
-/
import AudioMux.Box.FourCC

namespace AudioMux.Box

/-- The largest number a 32-bit field holds. -/
def maxWord32 : Nat := 0xffffffff

/-- The version and flags of a full box. Only the low 24 bits of the
flags are written. -/
structure VersionFlags where
  version : UInt8
  flags : UInt32
  deriving DecidableEq, Repr

/-- Version 0 without flags. -/
def VersionFlags.plain : VersionFlags := ⟨0, 0⟩

/-- A version byte and three bytes of flags. -/
def VersionFlags.encode (full : VersionFlags) : Bytes :=
  full.version :: Bytes.bigEndian 3 full.flags.toNat

/-- How the values of a type are written as boxes. -/
class Format (α : Type) where
  /-- The four-character code in the header. -/
  kind : α → FourCC
  /-- The version and flags after the header, for a full box. -/
  full? : α → Option VersionFlags
  /-- The declared size, from the start of the header to the end. -/
  size : α → Nat
  /-- The bytes after the header, the version and the flags. -/
  body : α → Bytes

/-- A header for a box of `size` bytes with a 32-bit header included. A
size past 32 bits takes the extended form, which is 8 bytes longer. -/
def header (kind : FourCC) (size : Nat) : Bytes :=
  if size ≤ maxWord32 then
    Bytes.bigEndian 4 size ++ kind.bytes
  else
    Bytes.bigEndian 4 1 ++ kind.bytes ++ Bytes.bigEndian 8 (size + 8)

/-- All bytes of a box after its header. -/
def content {α : Type} [Format α] (box : α) : Bytes :=
  ((Format.full? box).elim [] VersionFlags.encode) ++ Format.body box

/-- A box as bytes. -/
def encode {α : Type} [Format α] (box : α) : Bytes :=
  header (Format.kind box) (Format.size box) ++ content box

/-- The size of a box that may be missing. -/
def sizeOption {α : Type} [Format α] (box? : Option α) : Nat :=
  box?.elim 0 Format.size

/-- The bytes of a box that may be missing. -/
def encodeOption {α : Type} [Format α] (box? : Option α) : Bytes :=
  box?.elim [] encode

/-- The size of boxes that follow each other. -/
def sizeList {α : Type} [Format α] : List α → Nat
  | [] => 0
  | box :: rest => Format.size box + sizeList rest

/-- The bytes of boxes that follow each other. -/
def encodeList {α : Type} [Format α] (boxes : List α) : Bytes :=
  boxes.flatMap encode

/-- The count of a list and its entries, each written by `entry`. -/
def countedList {α : Type} (entry : α → Bytes) (entries : List α) : Bytes :=
  Bytes.bigEndian 4 entries.length ++ entries.flatMap entry

/-- The width of a time or duration field: 64 bits if any of the values
needs it, else 32. -/
def fieldWidth (values : List UInt64) : Nat :=
  if values.any fun value => maxWord32 < value.toNat then 8 else 4

/-- The version that announces a field width. -/
def widthVersion (width : Nat) : UInt8 :=
  if width = 8 then 1 else 0

@[simp] theorem length_versionFlags_encode (full : VersionFlags) :
    full.encode.length = 4 := by
  simp [VersionFlags.encode]

end AudioMux.Box

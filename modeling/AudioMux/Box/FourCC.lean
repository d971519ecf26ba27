/-
Four-character codes: the names of boxes, brands, handlers, codecs and
metadata items. A code is four bytes, not a text: `©nam` starts with
the byte 0xa9, and two private codes start with a zero byte.
-/
import AudioMux.Bytes

namespace AudioMux

/-- A four-character code. -/
structure FourCC where
  first : UInt8
  second : UInt8
  third : UInt8
  fourth : UInt8
  deriving DecidableEq, Repr, Inhabited

namespace FourCC

/-- The code spelled by four characters of Latin-1. -/
def ofChars (a b c d : Char) : FourCC :=
  ⟨a.val.toUInt8, b.val.toUInt8, c.val.toUInt8, d.val.toUInt8⟩

/-- The four bytes, in order. -/
def bytes (code : FourCC) : Bytes :=
  [code.first, code.second, code.third, code.fourth]

/-- The code of four zero bytes. -/
def zero : FourCC := ⟨0, 0, 0, 0⟩

/-- The code as text, one character of Latin-1 a byte. -/
def text (code : FourCC) : String :=
  String.ofList (code.bytes.map fun byte => Char.ofNat byte.toNat)

@[simp] theorem length_bytes (code : FourCC) : code.bytes.length = 4 := rfl

end FourCC

end AudioMux

/-
Byte strings and the numbers they spell.

Everything the library writes is a `Bytes`, a list of bytes: encoders
append lists, and a reader takes them apart again. Numbers are big
endian throughout, as the file format asks, and one function
`bigEndian` writes them at every width, so one law (`toNat_bigEndian`)
covers every field: what is read back is the number reduced to the
width it was written at.
-/

namespace AudioMux

/-- A string of bytes. -/
abbrev Bytes := List UInt8

namespace Bytes

/-- The low `8 * width` bits of `n`, most significant byte first. -/
def bigEndian : Nat → Nat → Bytes
  | 0, _ => []
  | width + 1, n => bigEndian width (n / 256) ++ [UInt8.ofNat n]

/-- The number that big-endian bytes spell. -/
def toNat (bytes : Bytes) : Nat :=
  bytes.foldl (fun n byte => n * 256 + byte.toNat) 0

/-- The UTF-8 bytes of a text. -/
def ofText (text : String) : Bytes :=
  text.toUTF8.data.toList

/-- A 16-bit word. -/
def word16 (n : UInt16) : Bytes := bigEndian 2 n.toNat

/-- A 32-bit word. -/
def word32 (n : UInt32) : Bytes := bigEndian 4 n.toNat

/-- A 64-bit word. -/
def word64 (n : UInt64) : Bytes := bigEndian 8 n.toNat

/-- `n` zero bytes. -/
def zeros (n : Nat) : Bytes := List.replicate n 0

-- ================================================================= laws

@[simp] theorem length_bigEndian (width n : Nat) :
    (bigEndian width n).length = width := by
  induction width generalizing n with
  | zero => rfl
  | succ width ih => simp [bigEndian, ih]

@[simp] theorem length_word16 (n : UInt16) : (word16 n).length = 2 :=
  length_bigEndian 2 n.toNat

@[simp] theorem length_word32 (n : UInt32) : (word32 n).length = 4 :=
  length_bigEndian 4 n.toNat

@[simp] theorem length_word64 (n : UInt64) : (word64 n).length = 8 :=
  length_bigEndian 8 n.toNat

@[simp] theorem length_zeros (n : Nat) : (zeros n).length = n :=
  List.length_replicate

theorem toNat_append_byte (bytes : Bytes) (byte : UInt8) :
    toNat (bytes ++ [byte]) = toNat bytes * 256 + byte.toNat := by
  simp [toNat, List.foldl_append]

/-- A number is read back reduced to the width it was written at. -/
theorem toNat_bigEndian (width n : Nat) :
    toNat (bigEndian width n) = n % Nat.pow 256 width := by
  induction width generalizing n with
  | zero => simp [bigEndian, toNat, Nat.mod_one]
  | succ width ih =>
    have hbyte : (UInt8.ofNat n).toNat = n % 256 := by simp
    have hpow : Nat.pow 256 (width + 1) = 256 * Nat.pow 256 width :=
      Nat.mul_comm (Nat.pow 256 width) 256
    rw [bigEndian, toNat_append_byte, ih, hbyte, hpow, Nat.mod_mul]
    omega

end Bytes

end AudioMux

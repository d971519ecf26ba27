/-
Reading the text of the gapless item back.

The numbers in the text stand behind a space each, in upper-case
hexadecimal with zeros in front, so a reader only has to know how many
digits each of them has. As long as the numbers fit these widths, the text
has the same length whatever they are, and gives all of them back
(`itemNumbers?_gaplessItemText`).
-/
import AudioMux.Gapless
import Mathlib.Algebra.Ring.Nat

namespace AudioMux

-- =================================================================== digits

/-- The value of a hexadecimal digit, of which the letters are capitals. -/
def upperDigit? (c : Char) : Option Nat :=
  ['0', '1', '2', '3', '4', '5', '6', '7', '8', '9', 'A', 'B', 'C', 'D', 'E',
    'F'].idxOf? c

/-- The number that comes of one by another digit behind it. -/
def appendDigit? (n : Nat) (c : Char) : Option Nat :=
  (upperDigit? c).map (n * 16 + ·)

/-- The number that some digits spell, if they are digits. -/
def upperNumber? (digits : List Char) : Option Nat :=
  digits.foldlM appendDigit? 0

/-- The digits that a number has without zeros in front. -/
def upperDigits (n : Nat) : List Char := (Nat.toDigits 16 n).map Char.toUpper

theorem upperDigit?_digitChar {d : Nat} (h : d < 16) :
    upperDigit? d.digitChar.toUpper = some d := by
  revert d
  decide

theorem appendDigit?_digitChar (n : Nat) {d : Nat} (h : d < 16) :
    appendDigit? n d.digitChar.toUpper = some (n * 16 + d) := by
  unfold appendDigit?
  rw [upperDigit?_digitChar h]
  rfl

/-- The digits of a number spell it. -/
theorem upperNumber?_upperDigits (n : Nat) :
    upperNumber? (upperDigits n) = some n := by
  induction n using Nat.strongRecOn with
  | ind n ih =>
      unfold upperNumber? upperDigits
      by_cases hsmall : n < 16
      · rw [Nat.toDigits_of_lt_base hsmall, List.map_singleton,
          List.foldlM_cons, appendDigit?_digitChar 0 hsmall, Nat.zero_mul,
          Nat.zero_add]
        rfl
      · have hfront : (upperDigits (n / 16)).foldlM appendDigit? 0
            = some (n / 16) := ih (n / 16) (by omega)
        have hlast := appendDigit?_digitChar (n / 16)
          (Nat.mod_lt n (by decide : 0 < 16))
        rw [Nat.toDigits_of_base_le (by decide) (by omega), List.map_append,
          List.map_singleton, List.foldlM_append]
        unfold upperDigits at hfront
        rw [hfront, Option.bind_eq_bind, Option.bind_some, List.foldlM_cons,
          hlast, Nat.div_add_mod']
        rfl

/-- Zeros in front do not count. -/
theorem upperNumber?_zeros (count : Nat) (digits : List Char) :
    upperNumber? (List.replicate count '0' ++ digits)
      = upperNumber? digits := by
  induction count with
  | zero => rfl
  | succ count ih =>
      have hzero : appendDigit? 0 '0' = some 0 := by decide
      unfold upperNumber? at ih ⊢
      rw [List.replicate_succ, List.cons_append, List.foldlM_cons, hzero]
      exact ih

theorem toList_upperHexadecimal (width n : Nat) :
    (upperHexadecimal width n).toList
      = List.replicate (width - (upperDigits n).length) '0'
        ++ upperDigits n :=
  String.toList_ofList

/-- A number that fits has exactly the digits it should. -/
theorem length_upperHexadecimal {width n : Nat} (hwidth : 0 < width)
    (h : n < 16 ^ width) :
    (upperHexadecimal width n).toList.length = width := by
  have hdigits : (upperDigits n).length ≤ width := by
    unfold upperDigits
    rw [List.length_map]
    exact (Nat.length_toDigits_le_iff (by decide) hwidth).mpr h
  rw [toList_upperHexadecimal, List.length_append, List.length_replicate]
  omega

theorem upperNumber?_upperHexadecimal (width n : Nat) :
    upperNumber? (upperHexadecimal width n).toList = some n := by
  rw [toList_upperHexadecimal, upperNumber?_zeros, upperNumber?_upperDigits]

-- =================================================================== fields

/-- A number that so many digits can spell. -/
structure HexField where
  width : Nat
  number : Nat
  pos : 0 < width
  fits : number < 16 ^ width

namespace HexField

/-- A number of 32 bits. -/
def word (n : UInt32) : HexField where
  width := 8
  number := n.toNat
  pos := by decide
  fits := n.toNat_lt

/-- The number with a space in front. -/
def written (field : HexField) : List Char :=
  ' ' :: (upperHexadecimal field.width field.number).toList

theorem length_written (field : HexField) :
    field.written.length = field.width + 1 := by
  unfold written
  rw [List.length_cons, length_upperHexadecimal field.pos field.fits]

theorem length_flatMap_written (fields : List HexField) :
    (fields.flatMap written).length
      = (fields.map fun field => field.width + 1).sum := by
  rw [List.length_flatMap]
  simp only [length_written]

end HexField

/-- The numbers in a text that has a space and so many digits for each of
them. -/
def fields? : (widths : List Nat) → List Char → Option (List Nat)
  | [], [] => some []
  | width :: widths, ' ' :: rest =>
    if width ≤ rest.length then do
      let n ← upperNumber? (rest.take width)
      let others ← fields? widths (rest.drop width)
      pure (n :: others)
    else none
  | _, _ => none

/-- One number is read off the front. -/
theorem fields?_cons (field : HexField) (widths : List Nat)
    (rest : List Char) :
    fields? (field.width :: widths) (field.written ++ rest)
      = (fields? widths rest).map (field.number :: ·) := by
  have hlength := length_upperHexadecimal field.pos field.fits
  have hroom : field.width
      ≤ ((upperHexadecimal field.width field.number).toList
        ++ rest).length := by
    rw [List.length_append]
    omega
  unfold HexField.written
  rw [List.cons_append, fields?, if_pos hroom, List.take_left' hlength,
    List.drop_left' hlength, upperNumber?_upperHexadecimal]
  exact Option.map_eq_bind.symm

theorem fields?_written (fields : List HexField) :
    fields? (fields.map HexField.width) (fields.flatMap HexField.written)
      = some (fields.map HexField.number) := by
  induction fields with
  | nil => rfl
  | cons field fields ih =>
      rw [List.map_cons, List.flatMap_cons, fields?_cons, ih]
      rfl

-- ================================================================= the item

/-- The widths of the numbers in the item. -/
def itemWidths : List Nat := [8, 8, 8, 16] ++ List.replicate 8 8

/-- The numbers in the text of the item: the second one is the delay, the
third the padding, and the fourth what is between them. -/
def itemNumbers? (text : String) : Option (List Nat) :=
  fields? itemWidths text.toList

section
variable (delay padding : UInt32) {length : Nat} (h : length < 2 ^ 64)

/-- The numbers that are put into the item. -/
def itemFields : List HexField :=
  [.word 0, .word delay, .word padding, ⟨16, length, by decide, h⟩]
    ++ List.replicate 8 (.word 0)

include h

theorem toList_gaplessItemText :
    (gaplessItemText delay padding length).toList
      = (itemFields delay padding h).flatMap HexField.written := by
  have hfirst : " 00000000 ".toList
      = (HexField.word 0).written ++ [' '] := by decide +kernel
  have hlast : (String.join (List.replicate 8 " 00000000")).toList
      = (List.replicate 8 (HexField.word 0)).flatMap HexField.written := by
    decide +kernel
  unfold gaplessItemText itemFields
  rw [List.flatMap_append, ← hlast]
  simp only [String.toList_append, hfirst, List.flatMap_cons,
    List.flatMap_nil]
  simp [HexField.written, HexField.word]

/-- Whatever the item says, it says it in as many characters. -/
theorem length_gaplessItemText :
    (gaplessItemText delay padding length).length = 116 := by
  rw [← String.length_toList, toList_gaplessItemText delay padding h,
    HexField.length_flatMap_written]
  rfl

/-- The numbers are read back. -/
theorem itemNumbers?_gaplessItemText :
    itemNumbers? (gaplessItemText delay padding length)
      = some ([0, delay.toNat, padding.toNat, length]
        ++ List.replicate 8 0) := by
  have hread := fields?_written (itemFields delay padding h)
  rw [← toList_gaplessItemText] at hread
  exact hread

end

example : itemNumbers? (" 00000000 00000840 00000240 0000000000018580"
      ++ " 00000000 00000000 00000000 00000000"
      ++ " 00000000 00000000 00000000 00000000")
    = some ([0, 2112, 576, 99712] ++ List.replicate 8 0) := by decide +kernel

end AudioMux

/-
Small readings of text: white space trimmed from both ends, a text cut
at its first separator, and a decimal number without a sign.

White space is Unicode's, so a no-break space is trimmed too. A number
is decimal digits of ASCII with a plus sign allowed in front, and no
larger than its reader can take: it is refused, never cut down.
-/
import AudioMux.Bytes

namespace AudioMux.Text

/-- Whether a character is white space. -/
def isBlank (c : Char) : Bool :=
  let n := c.toNat
  (0x9 ≤ n && n ≤ 0xd) || n == 0x20 || n == 0x85 || n == 0xa0 ||
    n == 0x1680 || (0x2000 ≤ n && n ≤ 0x200a) || n == 0x2028 ||
    n == 0x2029 || n == 0x202f || n == 0x205f || n == 0x3000

/-- A text without the white space at its ends. -/
def trim (text : String) : String :=
  String.ofList
    ((text.toList.dropWhile isBlank).reverse.dropWhile isBlank).reverse

/-- The texts before and after the first `separator`, if there is
one. -/
def splitFirst (separator : Char) (text : String) :
    Option (String × String) :=
  let before := text.toList.takeWhile (· ≠ separator)
  match text.toList.dropWhile (· ≠ separator) with
  | [] => none
  | _ :: after => some (String.ofList before, String.ofList after)

/-- The value of a decimal digit. -/
def digit? (c : Char) : Option Nat :=
  if '0' ≤ c ∧ c ≤ '9' then some (c.toNat - '0'.toNat) else none

/-- The number that decimal digits spell, most significant first, after
the number `n`. -/
def digits? (n : Nat) : List Char → Option Nat
  | [] => some n
  | c :: rest => do digits? (n * 10 + (← digit? c)) rest

/-- The number a text spells, if it is at most `max`. -/
def unsigned? (max : Nat) (text : String) : Option Nat := do
  let digits := match text.toList with
    | '+' :: rest => rest
    | all => all
  guard (!digits.isEmpty)
  let n ← digits? 0 digits
  guard (n ≤ max)
  pure n

end AudioMux.Text

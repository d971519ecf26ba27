/-
Numbers, dates and times in TOML.

An integer is decimal, hexadecimal, octal or binary and fits 64 bits
with a sign. Its digits can be grouped by single underscores, and a
decimal number has no needless zero in front. Of numbers with a
fraction or an exponent it is only checked that they are well formed
and not too large, and of dates and times only their punctuation. A
date or time is a table with its text under a name of its own.
-/
import AudioMux.Document.Basic
import AudioMux.Document.Toml.Text

namespace AudioMux.Toml

/-- Digits without the underscores that group them. There is a digit on
either side of each. -/
def ungroup? (chars : List Char) : Option (List Char) :=
  let groups := chars.splitOn '_'
  if groups.any List.isEmpty then none else some groups.flatten

/-- The number that digits spell. -/
def natural? (radix : Nat) (chars : List Char) : Option Nat := do
  (← ungroup? chars).foldlM
    (fun n c => do
      let digit ← hexDigit? c
      if digit < radix then pure (n * radix + digit) else none)
    0

/-- Whether a decimal number has a needless zero in front. -/
def hasLeadingZero (chars : List Char) : Bool :=
  chars.head? == some '0' && 1 < chars.length

/-- A number with its sign, if it fits. -/
def signed? (negative : Bool) (n : Nat) : Option Int :=
  if negative then
    if n ≤ 0x8000000000000000 then some (-n) else none
  else
    if n < 0x8000000000000000 then some n else none

/-- A word without the minus sign in front of it, and whether there was
one. -/
def splitSign (word : List Char) : Bool × List Char :=
  match word with
  | '-' :: rest => (true, rest)
  | _ => (false, word)

/-- The integer that a word spells. -/
def integer? (word : List Char) : Option Int :=
  match word with
  | '0' :: 'x' :: digits => natural? 16 digits >>= signed? false
  | '0' :: 'o' :: digits => natural? 8 digits >>= signed? false
  | '0' :: 'b' :: digits => natural? 2 digits >>= signed? false
  | _ =>
    let (negative, digits) := splitSign word
    if hasLeadingZero digits then none
    else natural? 10 digits >>= signed? negative

/-- Whether a decimal number with an exponent is small enough to have a
nearest double. -/
def isFinite (digits : Nat) (exponent : Int) : Bool :=
  let magnitude := (Nat.toDigits 10 digits).length + exponent
  digits == 0 || magnitude ≤ 308 ||
    (magnitude == 309 &&
      digits * Nat.pow 10 exponent.toNat
        < (Nat.pow 2 1024 - Nat.pow 2 970) * Nat.pow 10 (-exponent).toNat)

/-- Whether digits before a point, digits after it and an exponent are a
number. -/
def isReal (whole fraction : List Char) (exponent : Int) : Option Bool := do
  let (_, whole) := splitSign whole
  let wholeDigits ← ungroup? whole
  let fractionDigits ←
    if fraction.isEmpty then some [] else ungroup? fraction
  let digits ← natural? 10 (wholeDigits ++ fractionDigits)
  pure (!hasLeadingZero whole &&
    isFinite digits (exponent - fractionDigits.length))

/-- The exponent that a word spells. -/
def exponent? (word : List Char) : Option Int :=
  let (negative, digits) := splitSign word
  (natural? 10 digits).map fun n => if negative then -n else n

/-- Reads what follows the letter of an exponent within its word: the
exponent, or else a plus sign and then the exponent. -/
def exponent (rest : List Char) : Scan Int := do
  if rest.isEmpty then
    Scan.expect '+'
    let n ← natural? 10 (← Scan.word)
    pure n
  else
    exponent? rest

/-- Reads the rest of a number with a fraction or an exponent, of which
the word before the point and the word after it, if there is a point,
are given. -/
def real (whole : List Char) (fraction? : Option (List Char)) :
    Scan Document := do
  let isMark := fun c => c == 'e' || c == 'E'
  let last := fraction?.getD whole
  let digits := last.takeWhile (!isMark ·)
  let exponent ← match last.dropWhile (!isMark ·) with
    | [] => pure 0
    | _ :: rest => exponent rest
  let isNumber ← match fraction? with
    | none => isReal digits [] exponent
    | some _ => if digits.isEmpty then none else isReal whole digits exponent
  if isNumber then pure .real else failure

/-- Reads the rest of a number that starts with a word. -/
def number (word : List Char) : Scan Document := do
  let isHexadecimal := word.take 2 == ['0', 'x']
  if !isHexadecimal && (word.contains 'e' || word.contains 'E') then
    real word none
  else if !isHexadecimal && (← Scan.accept '.') then
    real word (some (← Scan.word))
  else if (splitSign word).2 ∈ ["inf".toList, "nan".toList] then
    pure .real
  else
    pure (.integer (← integer? word))

/-- Whether a word has an exponent with a minus sign in it. -/
def hasNegativeExponent (word : List Char) : Bool :=
  (word.zip (word.drop 1)).any fun (c, next) =>
    (c == 'e' || c == 'E') && next == '-'

/-- Whether a word starts a date, or a date and a time. -/
def isDate (word : List Char) : Bool :=
  word.contains 'T' || word.contains 't' ||
    ((word.drop 1).contains '-' && !hasNegativeExponent word)

/-- The name under which the text of a date or time is found. -/
def timeName : String := "$__toml_private_datetime"

/-- A date or time with this text. -/
def timeDocument (text : List Char) : Document :=
  .table [(timeName, .text (String.ofList text))]

/-- Reads a mark and the word after it, if the mark comes next. -/
def markedWord (mark : Char) : Scan (List Char) := do
  if ← Scan.accept mark then
    pure (mark :: (← Scan.word))
  else
    pure []

/-- Reads the rest of a time after its hour and a colon. Gives what was
read. -/
def timeOfDay : Scan (List Char) := do
  let minute ← Scan.word
  Scan.expect ':'
  let second ← Scan.word
  let fraction ← markedWord '.'
  let zone ← markedWord '+'
  let zoneMinute ← markedWord ':'
  pure (minute ++ ':' :: second ++ fraction ++ zone ++ zoneMinute)

/-- Reads one blank and the hour after it, if they come next. -/
def spacedHour : Scan (List Char) := fun text =>
  match text with
  | ' ' :: c :: rest =>
    if isWordChar c then
      some (' ' :: (c :: rest).takeWhile isWordChar,
        (c :: rest).dropWhile isWordChar)
    else
      some ([], text)
  | _ => some ([], text)

/-- Reads the rest of a number, a date or a time that starts with a
word. -/
def numberOrTime (word : List Char) : Scan Document := do
  if isDate word then
    let date := word ++ (← spacedHour)
    if ← Scan.accept ':' then
      pure (timeDocument (date ++ ':' :: (← timeOfDay)))
    else
      pure (timeDocument date)
  else if ← Scan.accept ':' then
    pure (timeDocument (word ++ ':' :: (← timeOfDay)))
  else
    number word

end AudioMux.Toml

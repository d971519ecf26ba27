/-
Texts in TOML.

A text stands between double quotes, with escapes, or between single
quotes, as it is. Between three quotes on either side it can have
several lines, of which a line break at the very start is dropped.
-/
import AudioMux.Document.Toml.Scan

namespace AudioMux.Toml

/-- The value of a hexadecimal digit. -/
def hexDigit? (c : Char) : Option Nat :=
  if '0' ≤ c ∧ c ≤ '9' then some (c.toNat - '0'.toNat)
  else if 'a' ≤ c ∧ c ≤ 'f' then some (c.toNat - 'a'.toNat + 10)
  else if 'A' ≤ c ∧ c ≤ 'F' then some (c.toNat - 'A'.toNat + 10)
  else none

/-- The character whose number is spelled by hexadecimal digits. -/
def codePoint? (digits : List Char) : Option Char := do
  let n ← digits.foldlM (fun n c => do pure (n * 16 + (← hexDigit? c))) 0
  if n.isValidChar then some (Char.ofNat n) else none

/-- The character whose number the first `count` characters spell. -/
def numbered? (count : Nat) (text : List Char) : Option Char :=
  let digits := text.take count
  if digits.length = count then codePoint? digits else none

/-- The character that an escape stands for, and how many characters the
escape has after its backslash. -/
def escape? : List Char → Option (Char × Nat)
  | 'b' :: _ => some ('\x08', 1)
  | 't' :: _ => some ('\t', 1)
  | 'n' :: _ => some ('\n', 1)
  | 'f' :: _ => some ('\x0c', 1)
  | 'r' :: _ => some ('\r', 1)
  | '"' :: _ => some ('"', 1)
  | '\\' :: _ => some ('\\', 1)
  | 'u' :: rest => (numbered? 4 rest).map fun c => (c, 5)
  | 'U' :: rest => (numbered? 8 rest).map fun c => (c, 9)
  | _ => none

/-- The text after a line break that a backslash hides, and after the
blanks and line breaks that follow it, if there is one. Blanks can stand
between the backslash and the line break. -/
def afterHiddenBreak? (text : List Char) : Option (List Char) :=
  match text.dropWhile isSpace with
  | '\n' :: rest => some (rest.dropWhile fun c => isSpace c || c == '\n')
  | _ => none

theorem length_afterHiddenBreak? {text rest : List Char}
    (h : afterHiddenBreak? text = some rest) :
    rest.length < text.length := by
  unfold afterHiddenBreak? at h
  split at h
  · next more hmore =>
    cases h
    have hskipped := (List.dropWhile_sublist isSpace (l := text)).length_le
    have hblank := (List.dropWhile_sublist
      (fun c => isSpace c || c == '\n') (l := more)).length_le
    rw [hmore, List.length_cons] at hskipped
    omega
  · cases h

/-- Whether a character can stand as it is between double quotes. -/
def isPlain (c : Char) : Bool := isVisible c && c != '\x7f'

/-- Whether a text starts with three quotes, so that it may have several
lines. -/
def startsLines (quote : Char) (text : List Char) : Bool :=
  text.take 3 == [quote, quote, quote]

/-- What ends a text of several lines: three quotes, and up to two more
in front of them that belong to the text. Gives these, and what is left
after the last quote. -/
def closeLines (quote : Char) (text : List Char) :
    List Char × List Char :=
  let more := ((text.drop 3).takeWhile (· == quote)).take 2
  (more, text.drop (3 + more.length))

/-- The rest of a text after its first quotes, where the characters `taken`
were read, the last one first, and what is left after its last quotes.
Escapes are only read with `escapes`. -/
def textBody (quote : Char) (escapes lines : Bool)
    (taken text : List Char) : Option (List Char × List Char) :=
  match text with
  | [] => none
  | c :: rest =>
    if c = quote then
      if !lines then some (taken.reverse, rest)
      else if startsLines quote (c :: rest) then
        let (more, left) := closeLines quote (c :: rest)
        some (taken.reverse ++ more, left)
      else textBody quote escapes lines (c :: taken) rest
    else if c = '\n' then
      if lines then textBody quote escapes lines (c :: taken) rest else none
    else if c = '\\' ∧ escapes = true then
      match escape? rest with
      | some (escaped, count) =>
        textBody quote escapes lines (escaped :: taken) (rest.drop count)
      | none =>
        if lines then
          match _h : afterHiddenBreak? rest with
          | some rest' => textBody quote escapes lines taken rest'
          | none => none
        else none
    else if isPlain c then textBody quote escapes lines (c :: taken) rest
    else none
termination_by text.length
decreasing_by
  · exact Nat.lt_succ_self rest.length
  · exact Nat.lt_succ_self rest.length
  · exact Nat.lt_succ_of_le (List.drop_sublist count rest).length_le
  · exact Nat.lt_succ_of_lt (length_afterHiddenBreak? _h)
  · exact Nat.lt_succ_self rest.length

/-- A text, if one comes next, and whether it can have several lines. -/
def text? : Scan (Option (String × Bool)) := fun all =>
  match all with
  | [] => some (none, [])
  | quote :: rest =>
    if quote = '"' ∨ quote = '\'' then
      let lines := startsLines quote all
      let body := if lines then rest.drop 2 else rest
      let body := match lines, body with
        | true, '\n' :: body => body
        | _, body => body
      (textBody quote (quote == '"') lines [] body).map fun (chars, left) =>
        (some (String.ofList chars, lines), left)
    else
      some (none, all)

end AudioMux.Toml

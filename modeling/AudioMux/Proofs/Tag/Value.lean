/-
What a text means for the item of a code.

The code alone says how its texts are read (`reading`): as a bare total, as
a number with a total behind a slash if there is one, as a number up to some
bound, or as they are. The items are given here by the characters of their
codes, and what the program goes by is compared with that. What texts then
mean (`Means`) is said in terms of the digits in them, and it is what they
are read as, in all cases and in no others (`ofText_eq_ok_iff`).
-/
import AudioMux.Proofs.Tag.Numbering
import AudioMux.Proofs.Text.Words
import AudioMux.Tag.Value

namespace AudioMux

open Text (Gives GivesPair gives_iff)

/-- The code of an item that holds a number and a total. -/
def Counted.code : Counted → FourCC
  | .track => .ofChars 't' 'r' 'k' 'n'
  | .disc => .ofChars 'd' 'i' 's' 'k'

namespace Tag

/-- Items with a number of one byte: what kind of thing the file is, how it
is rated, and whether it belongs to a compilation, a podcast or an album
without gaps. -/
def byteItems : List FourCC :=
  [.ofChars 'c' 'p' 'i' 'l', .ofChars 'a' 'k' 'I' 'D',
    .ofChars 'h' 'd' 'v' 'd', .ofChars 'p' 'c' 's' 't',
    .ofChars 'p' 'g' 'a' 'p', .ofChars 'r' 't' 'n' 'g',
    .ofChars 's' 't' 'i' 'k']

/-- Items with a number of four bytes: most numbers of a catalogue, and the
season and the episode of a show. -/
def word32Items : List FourCC :=
  [.ofChars 'a' 't' 'I' 'D', .ofChars 'c' 'm' 'I' 'D',
    .ofChars 'c' 'n' 'I' 'D', .ofChars 'g' 'e' 'I' 'D',
    .ofChars 's' 'f' 'I' 'D', .ofChars 't' 'v' 's' 'n',
    .ofChars 't' 'v' 's' 's']

/-- Items with a number of eight bytes: the one of a playlist. -/
def word64Items : List FourCC := [.ofChars 'p' 'l' 'I' 'D']

/-- How texts for an item are read. -/
inductive Reading where
  /-- As a total that is given on its own. -/
  | total (kind : Counted)
  /-- As a number and a total. -/
  | numbered (kind : Counted)
  /-- As a number of at most `max`, which makes this tag. -/
  | number (max : Nat) (tag : Nat → Tag)
  | text

/-- How texts for the item of a code are read. -/
def reading (code : FourCC) : Reading :=
  if code = .ofChars '\x00' 't' 'r' 't' then .total .track
  else if code = .ofChars '\x00' 'd' 's' 't' then .total .disc
  else if code = .ofChars 't' 'r' 'k' 'n' then .numbered .track
  else if code = .ofChars 'd' 'i' 's' 'k' then .numbered .disc
  else if code = .ofChars 'g' 'n' 'r' 'e' then
    .number 0xffff fun n => .genre (UInt16.ofNat n)
  else if code = .ofChars 't' 'm' 'p' 'o' then
    .number 0xffff fun n => .int16 code (UInt16.ofNat n)
  else if code ∈ byteItems then
    .number 0xff fun n => .int8 code (UInt8.ofNat n)
  else if code ∈ word32Items then
    .number 0xffffffff fun n => .int32 code (UInt32.ofNat n)
  else if code ∈ word64Items then
    .number 0xffffffffffffffff fun n => .int64 code (UInt64.ofNat n)
  else .text

/-- The tag that a text means for an item, if it means any. -/
def Means (code : FourCC) (text : String) (tag : Tag) : Prop :=
  match reading code with
  | .total kind =>
    ∃ total, Gives 0xffff text total ∧ tag = kind.tag 0 (UInt16.ofNat total)
  | .numbered kind => ∃ number total, GivesPair text number total
    ∧ tag = kind.tag (UInt16.ofNat number) (UInt16.ofNat total)
  | .number max ofNumber =>
    ∃ number, Gives max text number ∧ tag = ofNumber number
  | .text => tag = .text code text

-- ================================================================= reading

/-- What is made of a text that is read in a certain way. -/
def Reading.parse (code : FourCC) (text : String) :
    Reading → Except Failure Tag
  | .total kind => do
    pure (kind.tag 0 (UInt16.ofNat (← Tag.number kind.code 0xffff text)))
  | .numbered kind =>
    match numberPair? text with
    | none => .error (.unsupported (.notANumberPair text))
    | some (first, second) => .ok (kind.tag first second)
  | .number max ofNumber => do
    pure (ofNumber (← Tag.number code max text))
  | .text => .ok (.text code text)

/-- A choice between results that is one between readings too. -/
theorem Reading.parse_ite {code : FourCC} {text : String} {c : Prop}
    [Decidable c] {result result' : Except Failure Tag} {how how' : Reading}
    (hpos : c → result = how.parse code text)
    (hneg : ¬ c → result' = how'.parse code text) :
    (if c then result else result')
      = (if c then how else how').parse code text := by
  by_cases h : c
  · rw [if_pos h, if_pos h]
    exact hpos h
  · rw [if_neg h, if_neg h]
    exact hneg h

/-- The program reads the texts of each item as they are to be read. -/
theorem ofText_eq (code : FourCC) (text : String) :
    ofText code text = (reading code).parse code text := by
  unfold ofText
  -- The codes of tracks and discs are looked for at once.
  rw [ite_or]
  refine Reading.parse_ite (fun _ => rfl) fun _ => ?_
  refine Reading.parse_ite (fun _ => rfl) fun _ => ?_
  refine Reading.parse_ite (fun htrack => ?_) fun htrack => ?_
  · unfold Reading.parse
    cases numberPair? text with
    | none => rfl
    | some pair => exact congrArg Except.ok (if_pos htrack)
  refine Reading.parse_ite (fun _ => ?_) fun _ => ?_
  · unfold Reading.parse
    cases numberPair? text with
    | none => rfl
    | some pair => exact congrArg Except.ok (if_neg htrack)
  refine Reading.parse_ite (fun _ => rfl) fun _ => ?_
  refine Reading.parse_ite (fun _ => rfl) fun _ => ?_
  refine Reading.parse_ite (fun _ => rfl) fun _ => ?_
  refine Reading.parse_ite (fun _ => rfl) fun _ => ?_
  exact Reading.parse_ite (fun _ => rfl) fun _ => rfl

theorem number_eq_ok_iff (code : FourCC) {max n : Nat} {text : String} :
    Tag.number code max text = .ok n ↔ Gives max text n := by
  rw [gives_iff]
  unfold Tag.number
  cases Text.unsigned? max (Text.trim text) with
  | none => simp
  | some m => simp

theorem numberPair?_eq_some_iff {text : String} {first second : UInt16} :
    numberPair? text = some (first, second)
      ↔ ∃ number total, GivesPair text number total
        ∧ first = UInt16.ofNat number ∧ second = UInt16.ofNat total := by
  have hzero : Text.unsigned? 0xffff (Text.trim "0") = some 0 := by
    decide +kernel
  unfold numberPair?
  cases hsplit : Text.splitFirst '/' text with
  | none =>
      simp only [Text.givesPair_of_no_slash hsplit, gives_iff,
        Option.getD_none, hzero]
      cases Text.unsigned? 0xffff (Text.trim text) with
      | none => simp
      | some number => simp [eq_comm]
  | some parts =>
      obtain ⟨before, after⟩ := parts
      simp only [Text.givesPair_of_slash hsplit, gives_iff,
        Option.getD_some]
      cases Text.unsigned? 0xffff (Text.trim before) with
      | none => simp
      | some number =>
          cases Text.unsigned? 0xffff (Text.trim after) with
          | none => simp
          | some total => simp [eq_comm]

/-- A text is read as the tag it means, and refused if it means none. -/
theorem ofText_eq_ok_iff {code : FourCC} {text : String} {tag : Tag} :
    ofText code text = .ok tag ↔ Means code text tag := by
  -- A number is read, and something made of it.
  have hnumber : ∀ (own : FourCC) (max : Nat) (f : Nat → Tag),
      (do pure (f (← Tag.number own max text)) : Except Failure Tag)
        = .ok tag ↔ ∃ number, Gives max text number ∧ tag = f number := by
    intro own max f
    simp only [← number_eq_ok_iff own]
    cases Tag.number own max text with
    | error failure => simp
    | ok n => simp [eq_comm]
  rw [ofText_eq]
  unfold Means
  cases reading code with
  | total kind => exact hnumber kind.code 0xffff _
  | number max ofNumber => exact hnumber code max ofNumber
  | numbered kind =>
      have hpair : (Reading.numbered kind).parse code text = .ok tag
          ↔ ∃ first second, numberPair? text = some (first, second)
            ∧ tag = kind.tag first second := by
        unfold Reading.parse
        dsimp only
        cases numberPair? text with
        | none => simp
        | some pair =>
            obtain ⟨first, second⟩ := pair
            simp [eq_comm]
      rw [hpair]
      simp only [numberPair?_eq_some_iff]
      constructor
      · rintro ⟨_, _, ⟨number, total, hgives, rfl, rfl⟩, rfl⟩
        exact ⟨number, total, hgives, rfl⟩
      · rintro ⟨number, total, hgives, rfl⟩
        exact ⟨_, _, ⟨number, total, hgives, rfl, rfl⟩, rfl⟩
  | text =>
      constructor
      · rintro ⟨⟩
        rfl
      · rintro rfl
        rfl

end Tag

end AudioMux

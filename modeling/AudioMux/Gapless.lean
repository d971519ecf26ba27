/-
Gapless playback: how a player learns that the first samples of a
stream (the encoder's delay) and the last ones (its padding) are not to
be heard. There are two ways, a free-form metadata item and an edit
list with a sample group, and a mode says which of them are used.
-/
import AudioMux.Failure

namespace AudioMux

/-- Which of the two signals are written: the item (`legacy`), the edit
list (`iso`), none or both. -/
inductive GaplessMode where
  | none
  | legacy
  | iso
  | both
  deriving DecidableEq, Repr

namespace GaplessMode

/-- Whether the metadata item is written. -/
def hasItem : GaplessMode → Bool
  | .legacy | .both => true
  | .none | .iso => false

/-- Whether the edit list and the sample group are written. -/
def hasEditList : GaplessMode → Bool
  | .iso | .both => true
  | .none | .legacy => false

/-- The mode's name. -/
def name : GaplessMode → String
  | .none => "none"
  | .legacy => "legacy"
  | .iso => "iso"
  | .both => "both"

/-- The mode of a name, in lower case. -/
def ofName? (name : String) : Option GaplessMode :=
  [none, legacy, iso, both].find? fun mode => mode.name == name

/-- The mode that a text names, in any case. Only ASCII letters have a
case here. -/
def parse (text : String) : Except Failure GaplessMode :=
  match ofName? (text.map Char.toLower) with
  | some mode => .ok mode
  | Option.none => .error (.unsupported (.unknownGaplessMode text))

end GaplessMode

/-- A number in upper-case hexadecimal, with at least `width` digits. -/
def upperHexadecimal (width n : Nat) : String :=
  let digits := (Nat.toDigits 16 n).map Char.toUpper
  String.ofList (List.replicate (width - digits.length) '0' ++ digits)

/-- The name of the gapless item. -/
def gaplessItemName : String := "iTunSMPB"

/-- The value of the gapless item: delay, padding and the number of
samples between them, at fixed places among zeros. -/
def gaplessItemText (delay padding : UInt32) (length : Nat) : String :=
  " 00000000 " ++ upperHexadecimal 8 delay.toNat ++
  " " ++ upperHexadecimal 8 padding.toNat ++
  " " ++ upperHexadecimal 16 length ++
  String.join (List.replicate 8 " 00000000")

end AudioMux

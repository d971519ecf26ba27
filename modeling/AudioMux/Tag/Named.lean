/-
Tags by name, as users give them: a name such as `artist` and a text.

The name says which item is meant, and the item how the text is read.
Numbers of tracks and discs that are given apart are merged. Names that
no item goes by are refused; a free-form item takes any name, but has to
be asked for.
-/
import AudioMux.Tag.Name
import AudioMux.Tag.Numbering
import AudioMux.Tag.Value

namespace AudioMux.Tag

/-- What is wrong with a name and a value. -/
inductive NameFailure where
  | unknown (name : String)
  /-- The item takes no such value. -/
  | badValue (name : String) (cause : Failure)
  /-- A text that should be a name and a value has no equals sign. -/
  | noEquals (text : String)
  deriving DecidableEq, Repr

/-- The messages of a failure and of what caused it, the outermost
first. -/
def NameFailure.chain : NameFailure → List String
  | .unknown name => ["Unknown tag " ++ Text.quoted name]
  | .badValue name cause => ("Invalid value for " ++ name) :: cause.chain
  | .noEquals given => ["Expected NAME=VALUE, got " ++ Text.quoted given]

/-- The name and the value on either side of the first equals sign. -/
def splitAssignment (text : String) :
    Except NameFailure (String × String) :=
  match Text.splitFirst '=' text with
  | some parts => .ok parts
  | none => .error (.noEquals text)

/-- The tag of a name and a value. -/
def ofNamed (name value : String) : Except NameFailure Tag :=
  match codeOfName? name with
  | none => .error (.unknown name)
  | some code =>
    match ofText code value with
    | .ok tag => .ok tag
    | .error cause => .error (.badValue name cause)

/-- The tags of names and values, with their numbers merged. The first
pair that is wrong is told. -/
def ofNamedList (pairs : List (String × String)) :
    Except NameFailure (List Tag) := do
  pure (mergeNumbering (← pairs.mapM fun (name, value) => ofNamed name value))

end AudioMux.Tag

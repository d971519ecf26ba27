/-
Documents: values with a structure, as files of settings hold them.

A document is what is left of a settings file once its notation is
read, whatever that notation was. Tables keep the order of their
entries, and a name can occur more than once in them. What that means
is for the reader of the document to say.
-/

namespace AudioMux

/-- A value of a settings file. -/
inductive Document where
  | null
  | boolean (value : Bool)
  | integer (value : Int)
  /-- A number with a fraction or an exponent. No setting takes one, so
  it is not told which. -/
  | real
  | text (value : String)
  | list (items : List Document)
  | table (entries : List (String × Document))
  deriving Inhabited, Repr

namespace Document

/-- The values of all entries of a name. -/
def valuesOf (name : String) (entries : List (String × Document)) :
    List Document :=
  (entries.filter fun entry => entry.1 == name).map Prod.snd

/-- The truth value a document is. -/
def boolean? : Document → Option Bool
  | boolean value => some value
  | _ => none

/-- The text a document is. -/
def text? : Document → Option String
  | text value => some value
  | _ => none

/-- The 32-bit number a document is. -/
def word32? : Document → Option UInt32
  | integer value =>
    if 0 ≤ value ∧ value < 0x100000000 then some (UInt32.ofNat value.toNat)
    else none
  | _ => none

/-- Whether a document is null. -/
def isNull : Document → Bool
  | null => true
  | _ => false

/-- Whether a document has nothing in it: a notation without a null has
the empty table instead. -/
def isNothing : Document → Bool
  | null => true
  | table entries => entries.isEmpty
  | _ => false

/-- The name a document picks from a set of choices. A choice is written
by its name, or as a table with the name alone and a blank for its
value. -/
def choice? (isBlank : Document → Bool) : Document → Option String
  | text name => some name
  | table [(name, value)] => if isBlank value then some name else none
  | _ => none

/-- All entries of a table whose values are texts. -/
def texts? : Document → Option (List (String × String))
  | table entries =>
    entries.mapM fun (name, value) => do pure (name, ← value.text?)
  | _ => none

end Document

end AudioMux

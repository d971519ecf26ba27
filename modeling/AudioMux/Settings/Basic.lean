/-
Settings: what a user can set once for all files.

Settings come from a document with one entry for each of them. An entry
that is missing has its default, and an entry nobody knows is skipped,
but one that is there twice, is of the wrong type or is out of range
spoils the whole document. Of two tags of one name the later counts. The
entries of a muxer's configuration stand beside the others.
-/
import AudioMux.Document.Basic
import AudioMux.Muxer.Basic

namespace AudioMux

/-- Everything that can be set. -/
structure Settings where
  muxer : MuxerConfig
  /-- Samples the encoder put in front. -/
  delay : UInt32
  /-- Samples the encoder put at the end. -/
  padding : UInt32
  /-- Whether the program is named in the file. -/
  toolTag : Bool
  /-- Tags for every file, by name, sorted by their names. -/
  tags : List (String × String)
  deriving DecidableEq, Repr

/-- The settings used where nothing else is said. -/
def Settings.default : Settings where
  muxer := .default
  delay := 0
  padding := 0
  toolTag := true
  tags := []

/-- A setting from the values of its entries, or the default if there is
no entry. -/
def settingOr {α : Type} (standard : α) (read? : Document → Option α) :
    List Document → Option α
  | [] => some standard
  | [document] => read? document
  | _ => none

namespace MuxerConfig

/-- The codec a document names. -/
def codec? (isBlank : Document → Bool) (document : Document) :
    Option Codec :=
  (document.choice? isBlank).bind Codec.ofName?

/-- The gapless mode a document names, in lower case. -/
def gapless? (isBlank : Document → Bool) (document : Document) :
    Option GaplessMode :=
  (document.choice? isBlank).bind GaplessMode.ofName?

/-- The names of the settings, in order. -/
def names : List String :=
  ["codec", "timescale", "gapless", "optimize", "no_timestamp"]

/-- The configuration that entries give, where a choice has a blank for
its value. -/
def ofEntries? (isBlank : Document → Bool)
    (entries : List (String × Document)) : Option MuxerConfig := do
  let values := fun name => Document.valuesOf name entries
  pure {
    codec := ← settingOr default.codec (codec? isBlank) (values "codec")
    timescale :=
      ← settingOr default.timescale Document.word32? (values "timescale")
    gapless :=
      ← settingOr default.gapless (gapless? isBlank) (values "gapless")
    optimize :=
      ← settingOr default.optimize Document.boolean? (values "optimize")
    noTimestamp := ← settingOr default.noTimestamp Document.boolean?
      (values "no_timestamp") }

/-- The configuration in a document of its own: a table, or a list of the
first few settings in order. Only null is a blank there. -/
def ofDocument? : Document → Option MuxerConfig
  | .table entries => ofEntries? Document.isNull entries
  | .list items =>
    if items.length ≤ names.length then
      ofEntries? Document.isNull (names.zip items)
    else
      none
  | _ => none

end MuxerConfig

namespace Settings

/-- A tag in front of others that are sorted by name, unless the next one
has its name too. -/
def consTag (tag : String × String) :
    List (String × String) → List (String × String)
  | [] => [tag]
  | next :: rest =>
    if tag.1 = next.1 then next :: rest else tag :: next :: rest

/-- Tags sorted by name, of which the last one of each name is kept. -/
def sortTags (tags : List (String × String)) : List (String × String) :=
  (tags.mergeSort fun a b => !decide (b.1 < a.1)).foldr consTag []

/-- The tags that a document holds. -/
def tags? (document : Document) : Option (List (String × String)) :=
  document.texts?.map sortTags

/-- The settings in a document. -/
def ofDocument? : Document → Option Settings
  | .table entries => do
    let values := fun name => Document.valuesOf name entries
    pure {
      muxer := ← MuxerConfig.ofEntries? Document.isNothing entries
      delay := ← settingOr default.delay Document.word32? (values "delay")
      padding :=
        ← settingOr default.padding Document.word32? (values "padding")
      toolTag :=
        ← settingOr default.toolTag Document.boolean? (values "tool_tag")
      tags := ← settingOr default.tags tags? (values "tags") }
  | _ => none

end Settings

end AudioMux

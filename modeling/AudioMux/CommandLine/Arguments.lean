/-
The arguments of the command line.

Arguments are read from left to right, and the first that is wrong, or
asks for help, decides. What is left to check is that nothing was said
twice, apart from the flags that may be repeated.
-/
import AudioMux.Gapless
import AudioMux.Text.Words

namespace AudioMux.CommandLine

/-- The flags. -/
inductive Flag where
  | version
  | config
  | movieFirst
  | gapless
  | delay
  | padding
  | noTimestamp
  | title
  | artist
  | album
  | track
  | disc
  | tag
  | longTag
  | artwork
  deriving DecidableEq, Repr

namespace Flag

/-- The flag's name. -/
def name : Flag → String
  | version => "--version"
  | config => "--config"
  | movieFirst => "--moov-before-mdat"
  | gapless => "--gapless"
  | delay => "--delay"
  | padding => "--padding"
  | noTimestamp => "--no-timestamp"
  | title => "--title"
  | artist => "--artist"
  | album => "--album"
  | track => "--track"
  | disc => "--disc"
  | tag => "--tag"
  | longTag => "--long-tag"
  | artwork => "--artwork"

/-- All flags, in the order of the help. -/
def all : List Flag :=
  [version, config, movieFirst, gapless, delay, padding, noTimestamp, title,
    artist, album, track, disc, tag, longTag, artwork]

/-- The flag that an argument names. Two of them have a short name. -/
def ofText? (text : String) : Option Flag :=
  match text with
  | "-V" => some version
  | "-c" => some config
  | _ => all.find? fun flag => flag.name == text

/-- What stands for the flag's value in the help, if it takes one. -/
def value? : Flag → Option String
  | version | movieFirst | noTimestamp => none
  | config | artwork => some "path"
  | gapless => some "mode"
  | delay | padding => some "samples"
  | title => some "title"
  | artist => some "artist"
  | album => some "album"
  | track => some "track"
  | disc => some "disc"
  | tag | longTag => some "tag"

/-- What the flag is for. -/
def help : Flag → String
  | version => "Print version"
  | config => "Path to the configuration file to use"
  | movieFirst =>
    "Place the movie box before the media data for progressive playback"
  | gapless => "How to signal encoder delay: none, legacy, iso or both"
  | delay => "Encoder delay, in samples"
  | padding => "Padding after the last sample, in samples"
  | noTimestamp => "Write zero creation and modification times"
  | title => "Track title"
  | artist => "Track artist"
  | album => "Album title"
  | track => "Track number, as N or N/TOTAL"
  | disc => "Disc number, as N or N/TOTAL"
  | tag => "Set a tag by generic name, as NAME=VALUE"
  | longTag => "Set a free-form iTunes tag, as NAME=VALUE"
  | artwork => "Attach a JPEG, PNG or GIF image as cover art"

/-- Whether the flag can be given more than once. -/
def isRepeatable : Flag → Bool
  | tag | longTag => true
  | _ => false

/-- A number of samples. -/
def samples? (text : String) : Option UInt32 :=
  (Text.unsigned? 0xffffffff text).map UInt32.ofNat

/-- The gapless mode that a text names. -/
def gapless? (text : String) : Option GaplessMode :=
  (GaplessMode.parse text).toOption

/-- Whether a value makes sense for the flag. -/
def accepts (flag : Flag) (value : String) : Bool :=
  match flag with
  | gapless => (gapless? value).isSome
  | delay | padding => (samples? value).isSome
  | _ => true

end Flag

/-- One thing that is said on the command line. The value of a flag that
takes none is empty. -/
inductive Argument where
  | positional (text : String)
  | flag (flag : Flag) (value : String)
  deriving DecidableEq, Repr

/-- Why arguments are not read to the end. -/
inductive Stop where
  /-- Help was asked for. -/
  | help
  | unexpectedFlag (text : String)
  | unexpectedArgument (text : String)
  | missingValue (flag : String)
  | badValue (flag value : String)
  | repeated (flag : String)
  deriving DecidableEq, Repr

/-- The most arguments that are no flags and no values. -/
def maxPositionals : Nat := 2

/-- Reads arguments, of which some positional ones came before. After a
double dash all of them are positional. -/
def readArguments (positionals : Nat) (onlyPositional : Bool) :
    List String → Except Stop (List Argument)
  | [] => .ok []
  | text :: rest =>
    if onlyPositional || !text.startsWith "-" then
      if maxPositionals ≤ positionals then
        .error (.unexpectedArgument text)
      else do
        pure (.positional text ::
          (← readArguments (positionals + 1) onlyPositional rest))
    else if text = "--" then readArguments positionals true rest
    else if text = "-h" ∨ text = "--help" then .error .help
    else match Flag.ofText? text with
      | none => .error (.unexpectedFlag text)
      | some flag =>
        if flag.value?.isNone then do
          pure (.flag flag "" :: (← readArguments positionals false rest))
        else match rest with
          | [] => .error (.missingValue text)
          | value :: rest =>
            if flag.accepts value then do
              pure (.flag flag value ::
                (← readArguments positionals false rest))
            else
              .error (.badValue text value)

/-- The values that a flag was given, in order. -/
def valuesOf (flag : Flag) (arguments : List Argument) : List String :=
  arguments.filterMap fun argument =>
    match argument with
    | .flag other value => if other = flag then some value else none
    | .positional _ => none

/-- What the command line asks for. -/
structure Request where
  input? : Option String
  output? : Option String
  version : Bool
  config? : Option String
  movieFirst : Bool
  gapless? : Option GaplessMode
  delay? : Option UInt32
  padding? : Option UInt32
  noTimestamp : Bool
  /-- The tags that have a flag of their own, by name. -/
  named : List (String × String)
  tags : List String
  longTags : List String
  artwork? : Option String
  deriving DecidableEq, Repr

namespace Request

/-- The request that arguments make. -/
def ofArguments (arguments : List Argument) : Request :=
  let positionals := arguments.filterMap fun argument =>
    match argument with
    | .positional text => some text
    | .flag _ _ => none
  let value? := fun flag => (valuesOf flag arguments).head?
  let given := fun flag => !(valuesOf flag arguments).isEmpty
  let named := [("title", Flag.title), ("artist", .artist),
    ("album", .album), ("track", .track), ("disc", .disc)]
  { input? := positionals[0]?
    output? := positionals[1]?
    version := given .version
    config? := value? .config
    movieFirst := given .movieFirst
    gapless? := value? .gapless >>= Flag.gapless?
    delay? := value? .delay >>= Flag.samples?
    padding? := value? .padding >>= Flag.samples?
    noTimestamp := given .noTimestamp
    named := named.filterMap fun (name, flag) =>
      (value? flag).map fun value => (name, value)
    tags := valuesOf .tag arguments
    longTags := valuesOf .longTag arguments
    artwork? := value? .artwork }

/-- The request of a command line. -/
def parse (texts : List String) : Except Stop Request := do
  let arguments ← readArguments 0 false texts
  let repeated? := Flag.all.find? fun flag =>
    !flag.isRepeatable && 1 < (valuesOf flag arguments).length
  match repeated? with
  | some flag => throw (.repeated flag.name)
  | none => pure (ofArguments arguments)

end Request

end AudioMux.CommandLine

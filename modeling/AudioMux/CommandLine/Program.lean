/-
The program: from the arguments to the finished file.

Settings come from the settings file and are overruled by flags. The
tags of the settings come first, then those with a flag of their own,
then the others by name, the free-form ones and the artwork. The output
is created before the input is read, and holds what was written even
if something fails later.
-/
import AudioMux.CommandLine.Arguments
import AudioMux.Remux
import AudioMux.Settings.File
import AudioMux.Sink.SparseFile
import AudioMux.Tag.Named

namespace AudioMux.CommandLine

/-- Why the program fails. -/
inductive Problem where
  | missingPaths
  /-- The settings at a path cannot be had, or those at the standard
  place. -/
  | settings (path? : Option String) (cause : Settings.LoadFailure)
  | tag (cause : Tag.NameFailure)
  | reading (path : String) (cause : IoFailure)
  | opening (path : String) (cause : IoFailure)
  | creating (path : String) (cause : IoFailure)
  | remuxing (path : String) (cause : Remux.StreamFailure)
  | storing (path : String) (cause : IoFailure)
  deriving DecidableEq, Repr

/-- The messages of a problem and of what caused it, the outermost
first. -/
def Problem.chain : Problem → List String
  | .missingPaths =>
    ["Both an input and an output path are required, see --help"]
  | .settings (some path) cause =>
    s!"Failed to load configuration from {path}" :: cause.chain
  | .settings none cause => "Failed to load configuration" :: cause.chain
  | .tag cause => cause.chain
  | .reading path cause => [s!"Failed to read {path}", cause.message]
  | .opening path cause => [s!"Failed to open {path}", cause.message]
  | .creating path cause => [s!"Failed to create {path}", cause.message]
  | .remuxing path cause => s!"Failed to remux into {path}" :: cause.chain
  | .storing path cause => [s!"Failed to write {path}", cause.message]

/-- How the program ends. -/
inductive Outcome where
  /-- A file was written. -/
  | done
  | version
  /-- The arguments were not read to the end. -/
  | stopped (stop : Stop)
  | failed (problem : Problem)
  deriving DecidableEq, Repr

-- ============================================================= messages

/-- Causes of a failure: one on a line, or several with their numbers. -/
def causeLines : List String → String
  | [] => ""
  | [cause] => "\n\nCaused by:\n    " ++ cause
  | causes =>
    "\n\nCaused by:" ++
      String.join (causes.mapIdx fun i cause => s!"\n    {i}: {cause}")

/-- A problem as it is reported. -/
def Problem.report (problem : Problem) : String :=
  match problem.chain with
  | [] => ""
  | message :: causes => "Error: " ++ message ++ causeLines causes

/-- A flag in the help. -/
def Flag.helpLines (flag : Flag) : String :=
  let short := match flag with
    | .version => "-V, "
    | .config => "-c, "
    | _ => ""
  let value := flag.value?.elim "" fun value => " <" ++ value ++ ">"
  "    " ++ short ++ flag.name ++ value ++ "\n      " ++ flag.help ++ "\n\n"

/-- What the program can be asked for. -/
def helpText : String :=
  programName ++ "\n\nARGS:\n" ++
  "    [input]\n" ++
  "      Raw ADTS AAC stream to read, or - for standard input\n\n" ++
  "    [output]\n      M4A file to write\n\nOPTIONS:\n" ++
  String.join (Flag.all.map Flag.helpLines) ++
  "    -h, --help\n      Prints help information.\n"

/-- Why arguments were not read to the end. -/
def Stop.message : Stop → String
  | .help => helpText
  | .unexpectedFlag text => "unexpected flag: " ++ text
  | .unexpectedArgument text => "unexpected argument: " ++ text
  | .missingValue flag => "expected a value for " ++ flag
  | .badValue flag value =>
    "can't parse " ++ flag ++ ", got " ++ Text.quoted value
  | .repeated flag => "flag specified more than once: " ++ flag

namespace Outcome

/-- The program's exit status. -/
def status : Outcome → UInt32
  | .done | .version | .stopped .help => 0
  | .failed _ => 1
  | .stopped _ => 2

/-- What the program prints. -/
def output : Outcome → String
  | .version => programTitle ++ "\n"
  | .stopped .help => helpText
  | _ => ""

/-- What the program reports as an error. -/
def errors : Outcome → String
  | .failed problem => problem.report ++ "\n"
  | .stopped .help => ""
  | .stopped stop => stop.message ++ "\n"
  | _ => ""

end Outcome

-- ============================================================== running

/-- Settings overruled by the flags. -/
def Request.applyTo (request : Request) (settings : Settings) : Settings :=
  let muxer := settings.muxer
  { settings with
    muxer := { muxer with
      optimize := muxer.optimize || request.movieFirst
      gapless := request.gapless?.getD muxer.gapless
      noTimestamp := muxer.noTimestamp || request.noTimestamp }
    delay := request.delay?.getD settings.delay
    padding := request.padding?.getD settings.padding }

/-- A result, or the failure as a problem. -/
def orProblem {m : Type → Type} [Monad m] {ε α : Type}
    (problem : ε → Problem) (result : Except ε α) : ExceptT Problem m α :=
  match result with
  | .ok a => pure a
  | .error failure => throw (problem failure)

variable {m : Type → Type} [Monad m] [Files m]

/-- Loads the settings file that a request means, and overrules it. -/
def loadSettings (request : Request) : ExceptT Problem m Settings := do
  let path ← match request.config? with
    | some path => pure path
    | none => do
      pure (Settings.standardPath (← liftM (Files.settingsFolder (m := m))))
  let settings ← orProblem (.settings request.config?)
    (← liftM (Settings.load (m := m) path))
  pure (request.applyTo settings)

/-- All tags for the file. -/
def gatherTags (request : Request) (settings : Settings) :
    ExceptT Problem m (List Tag) := do
  let assigned ← orProblem .tag (request.tags.mapM Tag.splitAssignment)
  let freeForm ← orProblem .tag (request.longTags.mapM Tag.splitAssignment)
  let artwork ← match request.artwork? with
    | none => pure []
    | some path => do
      let image ← orProblem (.reading path)
        (← liftM (Files.read (m := m) path))
      pure [Tag.artwork image.data.toList]
  let named ← orProblem .tag
    (Tag.ofNamedList (settings.tags ++ request.named ++ assigned))
  pure (named ++ freeForm.map (fun (name, value) => .freeForm name value) ++
    artwork)

/-- Fails if the input cannot be opened. The standard input can. -/
def checkInput (path : String) : ExceptT Problem m Unit := do
  if path ≠ "-" then
    match ← liftM (Files.openFailure? (m := m) path) with
    | some failure => throw (.opening path failure)
    | none => pure ()

/-- The stream that an input holds. -/
def readInput (path : String) : m Adts.Source := do
  let bytes ←
    if path = "-" then Files.standardInput else Files.read path
  match bytes with
  | .ok bytes => pure (.ofBytes bytes.data.toList)
  | .error failure => pure ⟨[], some failure⟩

/-- Makes the file of a stream. -/
def writeOutput (request : Request) (input output : String) :
    ExceptT Problem m Unit := do
  let settings ← loadSettings request
  let tags ← gatherTags request settings
  checkInput input
  orProblem (.creating output) (← liftM (Files.create (m := m) output))
  let source ← liftM (readInput (m := m) input)
  let now ← liftM (Files.now (m := m))
  let (result, file) := remux settings tags now source SparseFile.empty
  orProblem (.storing output)
    (← liftM (Files.write (m := m) output file.contents))
  discard (orProblem (.remuxing output) result)

/-- Does what a request asks for. -/
def Request.perform (request : Request) : m Outcome := do
  if request.version then
    pure .version
  else
    match request.input?, request.output? with
    | some input, some output =>
      match ← (writeOutput request input output).run with
      | .ok () => pure .done
      | .error problem => pure (.failed problem)
    | _, _ => pure (.failed .missingPaths)

/-- Runs the program with its arguments. -/
def run (arguments : List String) : m Outcome :=
  match Request.parse arguments with
  | .ok request => request.perform
  | .error stop => pure (.stopped stop)

end AudioMux.CommandLine

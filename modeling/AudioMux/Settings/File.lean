/-
The settings file: where it lies, how it is read, and that it is made
with the defaults where there is none.
-/
import AudioMux.Document.Toml.Parser
import AudioMux.Files.Basic
import AudioMux.Remux
import AudioMux.Settings.Printer

namespace AudioMux.Settings

/-- The settings in the text of a file. -/
def ofText? (text : String) : Option Settings :=
  Document.ofToml? text >>= ofDocument?

/-- Why settings cannot be had. -/
inductive LoadFailure where
  | unreadable (cause : IoFailure)
  | notText
  | malformed
  | uncreatable (cause : IoFailure)
  deriving DecidableEq, Repr

/-- The messages of a failure and of what caused it, the outermost
first. -/
def LoadFailure.chain : LoadFailure → List String
  | .unreadable cause =>
    ["Failed to read configuration file", cause.message]
  | .notText =>
    ["Failed to read configuration file",
      "stream did not contain valid UTF-8"]
  | .malformed => ["Bad TOML data"]
  | .uncreatable cause =>
    ["Failed to write configuration file", cause.message]

/-- The path of the settings file in the folder for settings. -/
def standardPath (folder : String) : String :=
  folder ++ "/" ++ programName ++ "/config.toml"

/-- The path of the folder that a path lies in. -/
def folderOf (path : String) : String :=
  String.ofList
    ((path.toList.reverse.dropWhile (· != '/')).drop 1).reverse

/-- The settings in the bytes of a file. -/
def ofFile (bytes : ByteArray) : Except LoadFailure Settings :=
  match String.fromUTF8? bytes with
  | none => .error .notText
  | some text =>
    match ofText? text with
    | none => .error .malformed
    | some settings => .ok settings

variable {m : Type → Type} [Monad m] [Files m]

/-- Makes a settings file with the defaults. -/
def create (path : String) : m (Except IoFailure Unit) := do
  let folder := folderOf path
  if !folder.isEmpty then
    match ← Files.createFolder folder with
    | .error failure => return .error failure
    | .ok () => pure ()
  match ← Files.create path with
  | .error failure => pure (.error failure)
  | .ok () => Files.write path default.print.toUTF8

/-- Loads the settings at a path. A file that is missing is made. -/
def load (path : String) : m (Except LoadFailure Settings) := do
  match ← Files.read path with
  | .ok bytes => pure (ofFile bytes)
  | .error failure =>
    if failure.kind = .notFound then
      match ← create path with
      | .ok () => pure (.ok default)
      | .error failure => pure (.error (.uncreatable failure))
    else
      pure (.error (.unreadable failure))

end AudioMux.Settings

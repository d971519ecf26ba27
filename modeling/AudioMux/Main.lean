/-
The program on a real machine: its files, its standard input, its clock,
and what it prints.
-/
import AudioMux.CommandLine.Program
import AudioMux.MediaTime
import Std.Time.DateTime.Timestamp

namespace AudioMux.CommandLine

/-- A failure of the machine. -/
def machineFailure (error : IO.Error) : IoFailure :=
  match error with
  | .noFileOrDirectory _ _ _ => .missing
  | .permissionDenied _ code _ =>
    ⟨.permissionDenied, s!"Permission denied (os error {code})"⟩
  | .inappropriateType _ 20 _ => .noFolder
  | .inappropriateType _ 21 _ => .noFile
  | .invalidArgument _ 36 _ => .tooLong
  | error => ⟨.other, toString error⟩

/-- Does something and gives its failure as a value. -/
def attempt {α : Type} (action : IO α) : IO (Except IoFailure α) := do
  try
    pure (.ok (← action))
  catch error =>
    pure (.error (machineFailure error))

/-- Reads a stream to its end, after the bytes read so far. -/
partial def readToEnd (stream : IO.FS.Stream) (bytes : ByteArray) :
    IO ByteArray := do
  let more ← stream.read 65536
  if more.isEmpty then pure bytes
  else readToEnd stream (bytes ++ more)

instance : Files IO where
  openFailure? path := do
    match ← attempt (IO.FS.Handle.mk path .read) with
    | .ok _ => pure none
    | .error failure => pure (some failure)
  read path := attempt (IO.FS.readBinFile path)
  create path := attempt (IO.FS.writeBinFile path ByteArray.empty)
  write path bytes := attempt (IO.FS.writeBinFile path bytes)
  createFolder path := attempt (IO.FS.createDirAll path)
  standardInput := attempt do
    readToEnd (← IO.getStdin) ByteArray.empty
  settingsFolder := do
    match ← IO.getEnv "XDG_CONFIG_HOME" with
    | some folder => pure folder
    | none => pure (((← IO.getEnv "HOME").getD "") ++ "/.config")
  now := do
    let time ← Std.Time.Timestamp.now
    pure (fileTime time.toSecondsSinceUnixEpoch.val)

/-- Runs the program and prints what it says. -/
def runAndPrint (arguments : List String) : IO UInt32 := do
  let outcome ← run arguments
  IO.print outcome.output
  IO.eprint outcome.errors
  pure outcome.status

end AudioMux.CommandLine

/-- The program. -/
def main (arguments : List String) : IO UInt32 :=
  AudioMux.CommandLine.runAndPrint arguments

/-
Files as the program sees them.

The program runs in any monad that has these operations: on a real
machine or on a tree in memory. A path is a text that the machine makes
sense of, and a failure is a value, so that a caller can look at it and
go on.
-/
import AudioMux.Failure

namespace AudioMux

/-- What the program needs of the machine it runs on. -/
class Files (m : Type → Type) where
  /-- How opening a file for reading fails, if it does. -/
  openFailure? : String → m (Option IoFailure)
  /-- All bytes of a file. -/
  read : String → m (Except IoFailure ByteArray)
  /-- Makes an empty file, or empties the one that is there. -/
  create : String → m (Except IoFailure Unit)
  /-- Stores bytes in a file that was created before. -/
  write : String → ByteArray → m (Except IoFailure Unit)
  /-- Makes a folder, with those it lies in, unless it is there. -/
  createFolder : String → m (Except IoFailure Unit)
  /-- All bytes of the standard input. -/
  standardInput : m (Except IoFailure ByteArray)
  /-- The folder that the settings of all programs lie in. -/
  settingsFolder : m String
  /-- The time, as files hold it. -/
  now : m UInt64

namespace IoFailure

/-- There is nothing at a path. -/
def missing : IoFailure :=
  ⟨.notFound, "No such file or directory (os error 2)"⟩

/-- Something on the way to a path is no folder. -/
def noFolder : IoFailure :=
  ⟨.notDirectory, "Not a directory (os error 20)"⟩

/-- A path, or a name in it, has more bytes than the machine takes. -/
def tooLong : IoFailure :=
  ⟨.invalidName, "File name too long (os error 36)"⟩

/-- There is a folder where a file should be. -/
def noFile : IoFailure :=
  ⟨.isDirectory, "Is a directory (os error 21)"⟩

end IoFailure

end AudioMux

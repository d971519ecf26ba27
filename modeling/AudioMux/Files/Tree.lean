/-
A machine in memory: a tree of files and folders, and a standard input.

Paths are looked up from the top of the tree, name by name. Every name
but the last has to be that of a folder, and so has the last if a slash
follows it. A name has at most 255 bytes, and a path at most 4095.
-/
import AudioMux.Files.Basic

namespace AudioMux

/-- A machine with a tree of files. Folders are there without being
listed if something lies in them. -/
structure FileTree where
  /-- The files, by the names on the way to them. -/
  files : List (List String × ByteArray)
  folders : List (List String)
  standardInput : ByteArray
  settingsFolder : String
  now : UInt64

namespace FileTree

/-- The most bytes a name can have. -/
def maxNameSize : Nat := 255

/-- The most bytes a path can have. -/
def maxPathSize : Nat := 4095

/-- The names in a path. -/
def names (path : String) : List String :=
  path.toList.splitOn '/' |>.map String.ofList

/-- A tree of files that are given by their paths. -/
def ofFiles (files : List (String × ByteArray)) (standardInput : ByteArray)
    (settingsFolder : String) : FileTree where
  files := files.map fun (path, bytes) => (names path, bytes)
  folders := []
  standardInput := standardInput
  settingsFolder := settingsFolder
  now := 0

/-- The bytes of the file at a place. -/
def file? (tree : FileTree) (place : List String) : Option ByteArray :=
  (tree.files.find? fun file => file.1 == place).map Prod.snd

/-- Whether there is a folder at a place. -/
def isFolder (tree : FileTree) (place : List String) : Bool :=
  place.isEmpty || tree.folders.any place.isPrefixOf ||
    tree.files.any fun file => place.isPrefixOf file.1.dropLast

/-- Why something other than a folder cannot be entered. -/
def whyNoFolder (tree : FileTree) (place : List String) : IoFailure :=
  if (tree.file? place).isSome then .noFolder else .missing

/-- The place that names lead to from a place. -/
def follow (tree : FileTree) (place : List String) :
    List String → Except IoFailure (List String)
  | [] => .ok place
  | name :: rest =>
    if !tree.isFolder place then .error (tree.whyNoFolder place)
    else if name = "" ∨ name = "." then follow tree place rest
    else if name = ".." then follow tree place.dropLast rest
    else if maxNameSize < name.utf8ByteSize then .error .tooLong
    else follow tree (place ++ [name]) rest

/-- The names in a path, if it is one that the machine takes. Only what
lies below the top can be reached. -/
def namesOf (path : String) : Except IoFailure (List String) :=
  if maxPathSize < path.utf8ByteSize then .error .tooLong
  else match names path with
    | "" :: _ => .error .missing
    | names => .ok names

/-- The place of a path. -/
def locate (tree : FileTree) (path : String) :
    Except IoFailure (List String) := do
  tree.follow [] (← namesOf path)

/-- The bytes of the file at a path. -/
def read (tree : FileTree) (path : String) :
    Except IoFailure ByteArray := do
  let place ← tree.locate path
  match tree.file? place with
  | some bytes => pure bytes
  | none => throw (if tree.isFolder place then .noFile else .missing)

/-- How opening a path fails, if it does. A folder can be opened, but not
read. -/
def openFailure? (tree : FileTree) (path : String) : Option IoFailure :=
  match tree.locate path with
  | .error failure => some failure
  | .ok place =>
    if (tree.file? place).isSome || tree.isFolder place then none
    else some .missing

/-- The tree with these bytes in the file at a path. No file is made where
a slash follows the last name, whatever is there. -/
def store (tree : FileTree) (path : String) (bytes : ByteArray) :
    Except IoFailure FileTree := do
  let names ← namesOf path
  if names.getLast? = some "" then
    let parent := ((names.reverse.dropWhile (· == "")).drop 1).reverse
    let _folder ← tree.follow [] (parent ++ [""])
    throw .noFile
  let place ← tree.follow [] names
  if tree.isFolder place then
    throw .noFile
  if !tree.isFolder place.dropLast then
    throw (tree.whyNoFolder place.dropLast)
  let others := tree.files.filter fun file => file.1 != place
  pure { tree with files := others ++ [(place, bytes)] }

/-- The tree with all folders that names lead through from a place. -/
def addFolders (tree : FileTree) (place : List String) :
    List String → Except IoFailure FileTree
  | [] => .ok tree
  | name :: rest =>
    if name = "" ∨ name = "." then addFolders tree place rest
    else if name = ".." then addFolders tree place.dropLast rest
    else if maxNameSize < name.utf8ByteSize then .error .tooLong
    else
      let place := place ++ [name]
      if (tree.file? place).isSome then .error .noFolder
      else addFolders { tree with folders := place :: tree.folders } place rest

/-- The tree with a folder at a path, and with those it lies in. -/
def addFolder (tree : FileTree) (path : String) :
    Except IoFailure FileTree :=
  tree.addFolders [] (names path)

/-- Changes the tree, if the change does not fail. -/
def update (change : FileTree → Except IoFailure FileTree) :
    StateM FileTree (Except IoFailure Unit) := fun tree =>
  match change tree with
  | .ok tree => (.ok (), tree)
  | .error failure => (.error failure, tree)

instance : Files (StateM FileTree) where
  openFailure? path := do pure ((← get).openFailure? path)
  read path := do pure ((← get).read path)
  create path := update fun tree => tree.store path ByteArray.empty
  write path bytes := update fun tree => tree.store path bytes
  createFolder path := update fun tree => tree.addFolder path
  standardInput := do pure (.ok (← get).standardInput)
  settingsFolder := do pure (← get).settingsFolder
  now := do pure (← get).now

end FileTree

end AudioMux

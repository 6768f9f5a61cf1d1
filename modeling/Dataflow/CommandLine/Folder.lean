import Dataflow.CommandLine.Host

/-! # Folders in memory

A folder stands for what commands see of a file system: some directories and text files. Paths are
resolved step by step, so a path through a file or through nothing leads nowhere.
-/

namespace Dataflow.CommandLine

/-- A place in a folder: the names that lead to it, the last one first. -/
abbrev Place := List String

/-- Why a path leads nowhere, or to something that cannot be used. -/
inductive PathError where
  | missing
  | notDirectory
  | isDirectory
  | denied
  | nameTooLong
  deriving DecidableEq

def PathError.message : PathError → String
  | .missing => "No such file or directory (os error 2)"
  | .denied => "Permission denied (os error 13)"
  | .notDirectory => "Not a directory (os error 20)"
  | .isDirectory => "Is a directory (os error 21)"
  | .nameTooLong => "File name too long (os error 36)"

/-- Directories and text files. The root is always there. -/
structure Folder where
  /-- Where relative paths begin. -/
  current : Place
  directories : List Place
  files : List (Place × String)

/-- What a path leads to. -/
inductive Spot where
  | directory (place : Place)
  | file (place : Place) (text : String)
  /-- Nothing, in a directory. -/
  | vacant (place : Place)

namespace Folder

/-- Whether there is a directory at a place. -/
def isDirectory (f : Folder) (place : Place) : Bool :=
  place = [] || f.directories.contains place

/-- The text of the file at a place. -/
def fileText? (f : Folder) (place : Place) : Option String :=
  (f.files.find? (·.1 = place)).map (·.2)

/-- What is at a place in a directory. -/
def spot (f : Folder) (place : Place) : Spot :=
  if f.isDirectory place then .directory place
  else
    match f.fileText? place with
    | some text => .file place text
    | none => .vacant place

/-- How many bytes a name in a directory may have. -/
def nameLimit : Nat := 255

/-- How many bytes a path may have. -/
def pathLimit : Nat := 4095

/-- One step of a path. A name is looked up only in a directory, and only then has to be short. -/
def step (f : Folder) : Spot → String → Except PathError Spot
  | .directory place, name =>
    if name = "" || name = "." then .ok (.directory place)
    else if name = ".." then .ok (.directory place.tail)
    else if nameLimit < name.utf8ByteSize then .error .nameTooLong
    else .ok (f.spot (name :: place))
  | .file _ _, _ => .error .notDirectory
  | .vacant _, _ => .error .missing

/-- The names between the slashes of a path. -/
def names (path : FilePath) : List String :=
  (Text.pieces '/' path.text.toList).map String.ofList

/-- Whether a path begins at the root. -/
def isAbsolute (path : FilePath) : Bool :=
  path.text.startsWith "/"

/-- Where a path begins. -/
def origin (f : Folder) (path : FilePath) : Spot :=
  .directory (if isAbsolute path then [] else f.current)

/-- A path is neither empty nor too long. -/
def checkLength (path : FilePath) : Except PathError Unit :=
  if path.text.isEmpty then .error .missing
  else if pathLimit < path.text.utf8ByteSize then .error .nameTooLong
  else .ok ()

/-- What a path leads to. -/
def resolve (f : Folder) (path : FilePath) : Except PathError Spot := do
  checkLength path
  (names path).foldlM f.step (f.origin path)

/-- Whether a path leads to something. -/
def present (f : Folder) (path : FilePath) : Bool :=
  match f.resolve path with
  | .ok (.directory _) => true
  | .ok (.file _ _) => true
  | _ => false

/-- The text that a path leads to. -/
def read (f : Folder) (path : FilePath) : Except PathError String :=
  match f.resolve path with
  | .ok (.file _ text) => .ok text
  | .ok (.directory _) => .error .isDirectory
  | .ok (.vacant _) => .error .missing
  | .error e => .error e

/-- Sets the text of the file at a place. -/
def put (f : Folder) (place : Place) (text : String) : Folder :=
  { f with files := (place, text) :: f.files.filter (·.1 ≠ place) }

/-- The names of a path that lead to its last name. Slashes at the end of a path are no names. -/
def leadingNames (path : FilePath) : List String :=
  ((names path).reverse.dropWhile (· = "")).tail.reverse

/-- Writes a file, which is made if it is not there. A path that ends in a slash asks for a
directory, so its last name is not looked up. -/
def write (f : Folder) (path : FilePath) (text : String) : Except PathError Folder := do
  checkLength path
  if path.text.endsWith "/" then
    match ← (leadingNames path).foldlM f.step (f.origin path) with
    | .directory _ => throw .isDirectory
    | .file _ _ => throw .notDirectory
    | .vacant _ => throw .missing
  match ← f.resolve path with
  | .directory _ => throw .isDirectory
  | .file place _ => return f.put place text
  | .vacant place => return f.put place text

/-- Goes to a directory and says where it is. -/
def enter (f : Folder) (path : FilePath) : Except PathError Place :=
  match f.resolve path with
  | .ok (.directory place) => .ok place
  | .ok (.file _ _) => .error .notDirectory
  | .ok (.vacant _) => .error .missing
  | .error e => .error e

/-- Why the program at a path cannot be started: a folder holds no programs. A bare name is not
looked for in the folder. -/
def startError (f : Folder) (path : FilePath) : PathError :=
  if path.text = "." ∨ path.text = ".." then .denied
  else if path.text.contains '/' then
    match f.resolve path with
    | .ok (.vacant _) => .missing
    | .ok _ => .denied
    | .error e => e
  else if nameLimit < path.text.utf8ByteSize then .nameTooLong
  else .missing

/-- A host whose files are in a folder. -/
def host (interpret : Invocation → Outcome) (runId : String) : Host (StateM Folder) where
  present path := return (← get).present path
  read path := return ((← get).read path).mapError PathError.message
  write path text := do
    match (← get).write path text with
    | .ok f =>
      set f
      return .ok ()
    | .error e => return .error e.message
  interpret := interpret
  runId := return runId

end Folder

end Dataflow.CommandLine

import Dataflow.Text.Blank
import Dataflow.Json.Reader

/-! # File paths

A path keeps the text it was given as. Two paths are the same when their components are: repeated
and trailing slashes do not count, nor does a `.` that is not the first component. A `..` counts.
-/

namespace Dataflow

/-- The path of a file or directory. -/
structure FilePath where
  text : String

namespace FilePath

/-- A step of a path. -/
inductive Component where
  | root
  | here
  | name (name : String)
  deriving DecidableEq

/-- What a piece between slashes contributes behind the first component. -/
def component? (piece : List Char) : Option Component :=
  if piece = [] ∨ piece = ['.'] then none else some (.name (String.ofList piece))

/-- The components of a path. -/
def components (path : FilePath) : List Component :=
  match Text.pieces '/' path.text.toList with
  | [] => []
  | [] :: more =>
    (if more.isEmpty then [] else [.root]) ++ more.filterMap component?
  | first :: more =>
    (if first = ['.'] then [.here] else first |> component? |>.toList) ++
      more.filterMap component?

/-- Paths are compared by their components. -/
instance : BEq FilePath := ⟨fun a b => a.components == b.components⟩

instance : ToString FilePath := ⟨FilePath.text⟩

def reader : Json.Reader FilePath :=
  (Json.Reader.stringAs "path string").map FilePath.mk

def toJson (path : FilePath) : Json :=
  .string path.text

end FilePath

end Dataflow

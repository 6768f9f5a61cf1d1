import Dataflow.Text.Blank

/-! # Failures

A command that cannot do what it was asked for says what it could not do and why, unless it panics.
-/

namespace Dataflow.CommandLine

/-- Why a command gives no answer. -/
inductive Failure where
  /-- What could not be done, and its causes, the nearest one first. -/
  | error (summary : String) (causes : List String)
  /-- The program panics. -/
  | panic (message : String)
  deriving DecidableEq

namespace Failure

/-- A text whose lines after the first one are indented. -/
def indented (blanks : String) (s : String) : String :=
  ("\n" ++ blanks).intercalate ((Text.pieces '\n' s.toList).map String.ofList)

/-- The causes as they are listed: a single one has no number. -/
def listed : List String → List String
  | [] => []
  | [cause] => ["    " ++ indented "    " cause]
  | causes =>
    causes.mapIdx fun n cause => "    " ++ toString n ++ ": " ++ indented "       " cause

/-- The text of a failure. Of a panic it is the message alone, without the place that it comes
from. -/
def text : Failure → String
  | .error summary causes =>
    "Error: " ++ summary ++
      (if causes.isEmpty then "" else "\n\nCaused by:\n" ++ "\n".intercalate (listed causes)) ++
      "\n"
  | .panic message => message ++ "\n"

/-- The status that the program ends with. -/
def status : Failure → UInt8
  | .error _ _ => 1
  | .panic _ => 101

end Failure

end Dataflow.CommandLine

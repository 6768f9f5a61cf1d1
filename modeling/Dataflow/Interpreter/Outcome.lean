import Dataflow.Interpreter.Launch
import Dataflow.Node
import Dataflow.Text.Utf8

/-! # Runs of the interpreter

The interpreter is started once for every function that is called or looked at. It succeeds by
ending with status zero, and then its standard output is the answer; otherwise the last line of its
standard error says why.
-/

namespace Dataflow

/-- One run of the interpreter: on which function, and what it reads from its standard input. -/
structure Invocation where
  launch : Launch
  function : FunctionRef
  /-- Without an input there is nothing to read. -/
  input : Option String

/-- How a run of the interpreter ended. -/
inductive Ending where
  | exited (status : Nat)
  /-- A signal ended the run. -/
  | killed
  deriving DecidableEq

namespace Ending

/-- Whether a run was successful. -/
def isSuccess (e : Ending) : Bool :=
  e = .exited 0

def message : Ending → String
  | .exited status => "interpreter exited with status " ++ toString status
  | .killed => "interpreter terminated by signal"

end Ending

/-- What came of a run of the interpreter. -/
inductive Outcome where
  /-- The interpreter could not be started, or what goes in or comes out was lost. -/
  | notStarted (reason : String)
  | ended (ending : Ending) (stdout stderr : List UInt8)

namespace Invocation

/-- The texts that the interpreter is started with. -/
def texts (i : Invocation) : List String :=
  [i.launch.interpreter.text, i.function.filePath.text, i.function.functionName] ++
    (i.launch.workingDir.map FilePath.text).toList ++
    i.launch.env.entries.flatMap fun (name, value) => [name, value]

/-- Runs the interpreter. The system takes a zero character for the end of a text, so a text that
holds one cannot be handed over. -/
def run (i : Invocation) (interpret : Invocation → Outcome) : Outcome :=
  if i.texts.any (·.contains '\x00') then .notStarted "nul byte found in provided data"
  else interpret i

end Invocation

/-- Why a run of the interpreter gave no answer. -/
inductive RunTrouble where
  | notStarted (message : String)
  | unsuccessful (message : String)

namespace Outcome

/-- What a run that was not successful says: the last line of its standard error that is not blank,
else how it ended. -/
def complaint (ending : Ending) (stderr : List UInt8) : String :=
  (Text.lastLine? (Text.decode stderr)).getD ending.message

/-- The answer of a run, without the blanks around it. -/
def answer (launch : Launch) : Outcome → Except RunTrouble String
  | .notStarted reason =>
    .error (.notStarted ("failed to run " ++ launch.interpreter.text ++ ": " ++ reason))
  | .ended ending stdout stderr =>
    if ending.isSuccess then .ok (Text.trim (Text.decode stdout))
    else .error (.unsuccessful (complaint ending stderr))

end Outcome

end Dataflow

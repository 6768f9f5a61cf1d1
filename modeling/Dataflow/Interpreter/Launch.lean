import Dataflow.FilePath
import Dataflow.Json.Record

/-! # Launching the interpreter

The program that runs functions, the directory it runs in, and the variables it is given.
-/

namespace Dataflow

open Json (Reader)

/-- How the interpreter is started. -/
structure Launch where
  /-- The program, searched for where programs are when it is a bare name. -/
  interpreter : FilePath
  /-- The directory to run in, if it is not the current one. -/
  workingDir : Option FilePath
  /-- Variables that are set besides those that are inherited. -/
  env : KeyMap String
  deriving BEq

namespace Launch

/-- The interpreter that is started when none is named. -/
def defaultInterpreter : FilePath := ⟨"python3"⟩

/-- The default interpreter in the current directory. -/
def default : Launch := ⟨defaultInterpreter, none, .empty⟩

def reader : Reader Launch :=
  (Reader.record "struct ProcessConfig"
    (.cons (.withDefault "interpreter" FilePath.reader defaultInterpreter)
      (.cons (.optional "working_dir" FilePath.reader)
        (.cons (.withDefault "env" (Reader.keyMap Reader.string) .empty) .nil)))).map
    fun (interpreter, workingDir, env, ()) => ⟨interpreter, workingDir, env⟩

def toJson (l : Launch) : Json :=
  .object
    (("interpreter", l.interpreter.toJson) ::
      Json.field? "working_dir" FilePath.toJson l.workingDir ++
      if l.env.isEmpty then []
      else [("env", .ofMap (l.env.map .string))])

end Launch

end Dataflow

import Dataflow.Interpreter.Outcome
import Dataflow.Signature
import Dataflow.Text.Distinct

/-! # Extracting signatures

The interpreter looks a function up in its file and answers with what it has found, or with the
name of an error. An answer that has the shape of an error is one, whatever else it holds.
-/

namespace Dataflow

open Json (Reader)

/-- What the interpreter found of a function. -/
structure Finding where
  functionName : String
  parameters : List ParamSpec
  /-- The returned expressions, which may repeat. -/
  returned : List String
  line : Option UInt32

namespace Finding

def reader : Reader Finding :=
  (Reader.record "a finding"
    (.cons (.required "functionName" Reader.string)
      (.cons (.required "parameters" (Reader.list ParamSpec.reader))
        (.cons (.required "returnValues" (Reader.list Reader.string))
          (.cons (.nullable "line" Reader.uint32) .nil))))).map
    fun (functionName, parameters, returned, line, ()) =>
      ⟨functionName, parameters, returned, line⟩

/-- The signature of a function. Every returned expression names an output of its own. -/
def signature (f : Finding) : Signature :=
  ⟨f.functionName, f.parameters, (Text.distinct f.returned).map fun name => ⟨name, none⟩, f.line⟩

end Finding

/-- What the interpreter answers about a function. -/
inductive Reply where
  | error (name : String) (message : Option String)
  | found (finding : Finding)

namespace Reply

/-- Reads the name of an error and its message. -/
def errorReader : Reader Reply :=
  (Reader.objectOnly "an error"
    (.cons (.required "error" Reader.string)
      (.cons (.optional "message" Reader.string) .nil))).map
    fun (name, message, ()) => .error name message

def reader : Reader Reply :=
  Reader.oneOf "Reply" [errorReader, Finding.reader.map .found]

/-- The signature in a reply. -/
def signature (ref : FunctionRef) : Reply → Except ExtractionError Signature
  | .found finding => .ok finding.signature
  | .error "file_not_found" _ => .error (.fileNotFound ref.filePath)
  | .error "function_not_found" _ => .error (.functionNotFound ref.filePath ref.functionName)
  | .error "syntax" message => .error (.unparseable ref.filePath (message.getD ""))
  | .error name message => .error (.unavailable (message.getD name))

end Reply

/-- The run of the interpreter that looks a function up. -/
def FunctionRef.lookup (ref : FunctionRef) (launch : Launch) : Invocation :=
  ⟨launch, ref, none⟩

/-- The extraction error for a run of the interpreter that gave no answer. -/
def ExtractionError.ofTrouble : RunTrouble → ExtractionError
  | .notStarted message => .unavailable message
  | .unsuccessful message => .unavailable message

/-- The signature in an answer. -/
def readSignature (ref : FunctionRef) (answer : String) : Except ExtractionError Signature :=
  match Reply.reader.readText answer with
  | .ok reply => reply.signature ref
  | .error e => .error (.unavailable ("unexpected extractor reply: " ++ e.message))

/-- The signature that a run of the interpreter has found. -/
def Outcome.signature (launch : Launch) (ref : FunctionRef) (o : Outcome) :
    Except ExtractionError Signature := do
  let answer ← (o.answer launch).mapError .ofTrouble
  readSignature ref answer

/-- Extracts signatures by running the interpreter. -/
def Launch.extract (launch : Launch) (interpret : Invocation → Outcome) (ref : FunctionRef) :
    Except ExtractionError Signature :=
  ((ref.lookup launch).run interpret).signature launch ref

end Dataflow

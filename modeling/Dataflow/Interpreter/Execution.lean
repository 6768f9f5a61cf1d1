import Dataflow.Call
import Dataflow.Interpreter.Outcome
import Dataflow.Json.Printer

/-! # Calling functions

The interpreter reads the inputs of a call and the names of its outputs, and answers with an object
of outputs.
-/

namespace Dataflow

open Json (Reader)

namespace Request

/-- What the interpreter reads. -/
def payload (r : Request) : Json :=
  .object [("inputs", .ofMap r.inputs), ("outputs", .ofStrings r.outputNames)]

/-- The run of the interpreter that a request asks for. -/
def invocation (r : Request) (launch : Launch) : Invocation :=
  ⟨launch, r.functionRef, some r.payload.compact⟩

end Request

/-- The outputs in an answer. -/
def readOutputs (answer : String) : Except CallError Values :=
  ((Reader.keyMap Reader.datum).readText answer).mapError fun e =>
    .invalidOutput ("expected a JSON object of outputs: " ++ e.message)

/-- The call error for a run of the interpreter that gave no answer. -/
def CallError.ofTrouble : RunTrouble → CallError
  | .notStarted message => .unavailable message
  | .unsuccessful message => .failed message

/-- The outputs of a call. -/
def Outcome.outputs (launch : Launch) (o : Outcome) : Except CallError Values := do
  let answer ← (o.answer launch).mapError .ofTrouble
  readOutputs answer

/-- Answers requests by running the interpreter. -/
def Launch.respond (launch : Launch) (interpret : Invocation → Outcome) (r : Request) : Response :=
  match ((r.invocation launch).run interpret).outputs launch with
  | .ok values => .outputs values
  | .error e => .error e

end Dataflow

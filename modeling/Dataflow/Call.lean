import Dataflow.Node

/-! # Calls

A call asks for one function to be run on named values. The answer is a set of named values, an
error, or a panic of whoever answers.
-/

namespace Dataflow

open Json (Reader)

/-- A request to run the function of a node. -/
structure Request where
  runId : String
  nodeId : NodeId
  functionRef : FunctionRef
  /-- The values of the inputs by their names. -/
  inputs : Values
  /-- The names of the outputs in their order. -/
  outputNames : List String
  deriving BEq

namespace Request

def reader : Reader Request :=
  (Reader.record "struct ExecutionRequest"
    (.cons (.required "run_id" Reader.string)
      (.cons (.required "node_id" NodeId.reader)
        (.cons (.required "function_ref" FunctionRef.reader)
          (.cons (.required "inputs" (Reader.keyMap Reader.datum))
            (.cons (.required "output_names" (Reader.list Reader.string)) .nil)))))).map
    fun (runId, nodeId, functionRef, inputs, outputNames, ()) =>
      ⟨runId, nodeId, functionRef, inputs, outputNames⟩

def toJson (r : Request) : Json :=
  .object
    [("run_id", .string r.runId), ("node_id", r.nodeId.toJson),
      ("function_ref", r.functionRef.toJson), ("inputs", .ofMap r.inputs),
      ("output_names", .ofStrings r.outputNames)]

end Request

/-- Why a call gives no values. -/
inductive CallError where
  | failed (message : String)
  | unavailable (message : String)
  | invalidOutput (message : String)
  deriving DecidableEq

def CallError.message : CallError → String
  | .failed message => message
  | .unavailable message => "executor unavailable: " ++ message
  | .invalidOutput message => "invalid executor output: " ++ message

/-- How a call ends. -/
inductive Response where
  | outputs (values : Values)
  | error (error : CallError)
  | panic (message : String)

end Dataflow

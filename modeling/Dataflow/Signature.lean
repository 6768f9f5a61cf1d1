import Dataflow.Node

/-! # Signatures

A signature is what a function looks like from outside: its parameters become the inputs of a node,
its return values the outputs.
-/

namespace Dataflow

open Json (Reader)

/-- A parameter or a return value, with its type where one is given. -/
structure ParamSpec where
  name : String
  typeHint : Option String
  deriving DecidableEq

namespace ParamSpec

/-- The socket of a parameter or a return value. -/
def socket (p : ParamSpec) : Socket :=
  ⟨p.name, p.typeHint⟩

def reader : Reader ParamSpec :=
  (Reader.record "struct ParamSpec"
    (.cons (.required "name" Reader.string)
      (.cons (.optional "type" Reader.string) .nil))).map
    fun (name, typeHint, ()) => ⟨name, typeHint⟩

def toJson (p : ParamSpec) : Json :=
  .object (("name", .string p.name) :: Json.field? "type" .string p.typeHint)

end ParamSpec

/-- The parameters and return values of a function, and the line of its definition where that is
known. -/
structure Signature where
  functionName : String
  parameters : List ParamSpec
  returnValues : List ParamSpec
  line : Option UInt32
  deriving DecidableEq

namespace Signature

/-- One input for every parameter. -/
def inputSockets (s : Signature) : List Socket :=
  s.parameters.map ParamSpec.socket

/-- One output for every return value. -/
def outputSockets (s : Signature) : List Socket :=
  s.returnValues.map ParamSpec.socket

/-- Whether a function takes a parameter of a name. -/
def takes (s : Signature) (name : String) : Bool :=
  s.parameters.any (·.name = name)

def reader : Reader Signature :=
  (Reader.record "struct Signature"
    (.cons (.required "functionName" Reader.string)
      (.cons (.required "parameters" (Reader.list ParamSpec.reader))
        (.cons (.required "returnValues" (Reader.list ParamSpec.reader))
          (.cons (.optional "line" Reader.uint32) .nil))))).map
    fun (functionName, parameters, returnValues, line, ()) =>
      ⟨functionName, parameters, returnValues, line⟩

def toJson (s : Signature) : Json :=
  .object
    ([("functionName", .string s.functionName),
        ("parameters", .array (s.parameters.map ParamSpec.toJson)),
        ("returnValues", .array (s.returnValues.map ParamSpec.toJson))] ++
      Json.field? "line" (fun line => .ofNat line.toNat) s.line)

end Signature

/-- Why there is no signature of a function. -/
inductive ExtractionError where
  | fileNotFound (path : FilePath)
  | unparseable (path : FilePath) (message : String)
  | functionNotFound (path : FilePath) (functionName : String)
  | unavailable (message : String)

def ExtractionError.message : ExtractionError → String
  | .fileNotFound path => "source file not found: " ++ path.text
  | .unparseable path message => "failed to parse " ++ path.text ++ ": " ++ message
  | .functionNotFound path functionName =>
    "function '" ++ functionName ++ "' not found in " ++ path.text
  | .unavailable message => "signature extractor unavailable: " ++ message

end Dataflow

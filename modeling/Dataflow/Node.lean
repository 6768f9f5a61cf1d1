import Dataflow.FilePath
import Dataflow.Json.Record

/-! # Nodes

A node calls one function. Its inputs and outputs are sockets in a fixed order, its parameters are
values for inputs that no link feeds, and its status is what a run has made of it.
-/

namespace Dataflow

open Json (Reader Field Fields)

/-- The number of a node, never given to a second one. -/
structure NodeId where
  value : UInt64
  deriving DecidableEq, Hashable

namespace NodeId

instance : ToString NodeId := ⟨fun id => toString id.value.toNat⟩

def reader : Reader NodeId :=
  Reader.uint64.map NodeId.mk

def toJson (id : NodeId) : Json :=
  .ofUInt64 id.value

end NodeId

/-- A function by the file that defines it and its name there. -/
structure FunctionRef where
  filePath : FilePath
  functionName : String
  deriving BEq

namespace FunctionRef

instance : ToString FunctionRef := ⟨fun f => f.filePath.text ++ ":" ++ f.functionName⟩

/-- The fields of a function reference. -/
def fields : Fields [FilePath, String] :=
  .cons (.required "file_path" FilePath.reader)
    (.cons (.required "function_name" Reader.string) .nil)

/-- The function reference of the values of its fields. -/
def ofTuple : Fields.Tuple [FilePath, String] → FunctionRef
  | (filePath, functionName, ()) => ⟨filePath, functionName⟩

def reader : Reader FunctionRef :=
  (Reader.record "struct FunctionRef" fields).map ofTuple

/-- The fields of a function reference as they are written. -/
def toFields (f : FunctionRef) : List (String × Json) :=
  [("file_path", f.filePath.toJson), ("function_name", .string f.functionName)]

def toJson (f : FunctionRef) : Json :=
  .object f.toFields

end FunctionRef

/-- What a node does with its function. Both kinds are run the same way; a load node brings data
into the graph. -/
inductive NodeKind where
  | function (ref : FunctionRef)
  | load (ref : FunctionRef)
  deriving BEq

namespace NodeKind

/-- The function that a node calls. -/
def functionRef : NodeKind → FunctionRef
  | .function ref => ref
  | .load ref => ref

/-- The same kind with another function. -/
def withFunction : NodeKind → FunctionRef → NodeKind
  | .function _, ref => .function ref
  | .load _, ref => .load ref

/-- The kinds by their tags. -/
def tags : List (String × (FunctionRef → NodeKind)) :=
  [("function", .function), ("load", .load)]

/-- The tag of a kind. -/
def tag : NodeKind → String
  | .function _ => "function"
  | .load _ => "load"

/-- Reads the tag of a kind. -/
def tagReader : Reader (FunctionRef → NodeKind) := fun source s => do
  Reader.variant tags (← Reader.stringAs "variant identifier" source s)

/-- What reading the fields of a kind has found: its tag, and the other fields, the last one
first. -/
abbrev TaggedFields := Option (FunctionRef → NodeKind) × List (Json.ScannedKey × Json.Scan)

/-- Reads one field of a kind. The others are read ahead, since the tag may come last. -/
def readField (source : Json.Source) :
    TaggedFields → Json.ScannedKey × Json.Scan → Except Json.ReadError TaggedFields
  | (tag?, others), (key, s) => do
    let key ← Json.wellFormed key
    if key = "kind" then
      if tag?.isSome then throw (.mismatch (.duplicateField "kind"))
      else return (some (← tagReader source s), others)
    else
      let _ ← s.toJson source
      return (tag?, (.ok key, s) :: others)

/-- Reads a kind: an object with the tag among the fields of the function, or an array that begins
with the tag. -/
def reader : Reader NodeKind
  | source, .object parts tail => do
    let source ← source.enter
    let (tag?, others) ← parts.foldlM (readField source) (none, [])
    tail.check
    match tag? with
    | none => throw (.mismatch (.missingField "kind"))
    | some make => return make (← FunctionRef.reader .buffer (.object others.reverse .closed))
  | source, .array items tail => do
    let source ← source.enter
    match items with
    | [] =>
      tail.check
      throw (.mismatch (.missingField "kind"))
    | first :: rest =>
      let make ← tagReader source first
      let _ ← Json.itemsToJson source rest
      tail.check
      return make (← FunctionRef.reader .buffer (.array rest .closed))
  | _, s => Json.wrongType "internally tagged enum NodeKind" s

/-- Writes a kind, its tag first. -/
def toJson (kind : NodeKind) : Json :=
  .object (("kind", .string kind.tag) :: kind.functionRef.toFields)

end NodeKind

/-- A named input or output. -/
structure Socket where
  name : String
  typeHint : Option String
  deriving DecidableEq

namespace Socket

def reader : Reader Socket :=
  (Reader.record "struct Port"
    (.cons (.required "name" Reader.string)
      (.cons (.nullable "type_hint" Reader.string) .nil))).map
    fun (name, typeHint, ()) => ⟨name, typeHint⟩

def toJson (socket : Socket) : Json :=
  .object (("name", .string socket.name) :: Json.field? "type_hint" .string socket.typeHint)

end Socket

/-- How far a node has come in a run. -/
inductive NodeStatus where
  | pending
  | running
  | succeeded
  | failed
  | skipped
  deriving DecidableEq

namespace NodeStatus

/-- A terminal status is never left in the same run. -/
def isTerminal : NodeStatus → Bool
  | .pending => false
  | .running => false
  | .succeeded => true
  | .failed => true
  | .skipped => true

def name : NodeStatus → String
  | .pending => "pending"
  | .running => "running"
  | .succeeded => "succeeded"
  | .failed => "failed"
  | .skipped => "skipped"

instance : ToString NodeStatus := ⟨name⟩

/-- The statuses in the order in which messages list them. -/
def all : List NodeStatus :=
  [.pending, .running, .succeeded, .failed, .skipped]

def reader : Reader NodeStatus :=
  Reader.choice (all.map fun status => (status.name, status))

def toJson (status : NodeStatus) : Json :=
  .string status.name

end NodeStatus

/-- A function call in the graph. -/
structure Node where
  id : NodeId
  kind : NodeKind
  /-- An input takes at most one link. -/
  inputs : List Socket
  /-- An output feeds any number of links. -/
  outputs : List Socket
  /-- Values for inputs without a link. -/
  parameters : Values
  status : NodeStatus
  deriving BEq

namespace Node

/-- The function that a node calls. -/
def functionRef (node : Node) : FunctionRef :=
  node.kind.functionRef

/-- The place of the first input of a name. -/
def inputIndex? (node : Node) (name : String) : Option Nat :=
  node.inputs.findIdx? (·.name = name)

/-- The place of the first output of a name. -/
def outputIndex? (node : Node) (name : String) : Option Nat :=
  node.outputs.findIdx? (·.name = name)

def toJson (node : Node) : Json :=
  .object
    [("id", node.id.toJson), ("kind", node.kind.toJson),
      ("inputs", .array (node.inputs.map Socket.toJson)),
      ("outputs", .array (node.outputs.map Socket.toJson)),
      ("parameters", .ofMap node.parameters), ("status", node.status.toJson)]

end Node

end Dataflow

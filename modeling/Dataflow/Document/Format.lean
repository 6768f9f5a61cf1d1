import Dataflow.Document.Basic
import Dataflow.Json.Printer

/-! # Reading and writing documents

A link may be an array of five or six numbers and a type, or an object in either of two spellings;
the links of a document may be an array or an object. Links are always written as arrays of six.
-/

namespace Dataflow.Document

open Json (Reader Field Fields)

namespace NodeType

/-- The name under which a kind of node is registered. -/
def name : NodeType → String
  | .function => "python/function"
  | .load => "python/load"

def reader : Reader NodeType :=
  Reader.choice ([.function, .load].map fun type => (name type, type))

def toJson (type : NodeType) : Json :=
  .string type.name

end NodeType

namespace FunctionEntry

def reader : Reader FunctionEntry :=
  (Reader.record "struct FunctionProperties"
    (.cons (.required "filePath" Reader.string)
      (.cons (.required "functionName" Reader.string) .nil))).map
    fun (filePath, functionName, ()) => ⟨filePath, functionName⟩

def toJson (entry : FunctionEntry) : Json :=
  .object [("filePath", .string entry.filePath), ("functionName", .string entry.functionName)]

end FunctionEntry

namespace SocketEntry

def reader : Reader SocketEntry :=
  (Reader.record "struct PortDef"
    (.cons (.required "name" Reader.string)
      (.cons (.optional "type" Reader.string)
        (.cons (.optional "link" Reader.uint64)
          (.cons (.optional "links" (Reader.list Reader.uint64)) .nil))))).map
    fun (name, socketType, link, links, ()) => ⟨name, socketType, link, links⟩

def toJson (socket : SocketEntry) : Json :=
  .object
    (("name", .string socket.name) :: Json.field? "type" .string socket.socketType ++
      Json.field? "link" .ofUInt64 socket.link ++
      Json.field? "links" (fun ids => .array (ids.map .ofUInt64)) socket.links)

end SocketEntry

namespace NodeEntry

def reader : Reader NodeEntry :=
  (Reader.record "struct NodeDef"
    (.cons (.required "id" Reader.uint64)
      (.cons (.required "type" NodeType.reader)
        (.cons (.required "properties" FunctionEntry.reader)
          (.cons (.withDefault "inputs" (Reader.list SocketEntry.reader) [])
            (.cons (.withDefault "outputs" (Reader.list SocketEntry.reader) [])
              (.cons (.withDefault "widgetParameter" (Reader.keyMap Reader.datum) .empty)
                .nil))))))).map
    fun (id, nodeType, properties, inputs, outputs, widgetParameter, ()) =>
      ⟨id, nodeType, properties, inputs, outputs, widgetParameter⟩

/-- Writes a node; without parameters their field is left out. -/
def toJson (node : NodeEntry) : Json :=
  .object
    ([("id", .ofUInt64 node.id), ("type", node.nodeType.toJson),
        ("properties", node.properties.toJson),
        ("inputs", .array (node.inputs.map SocketEntry.toJson)),
        ("outputs", .array (node.outputs.map SocketEntry.toJson))] ++
      if node.widgetParameter.isEmpty then []
      else [("widgetParameter", .ofMap node.widgetParameter)])

end NodeEntry

namespace LinkEntry

/-- The type of a link by what is written for it: null is none, a text is itself, and any other
value is its text. -/
def typeOf : Json → Option String
  | .null => none
  | .string s => some s
  | value => some value.compact

/-- The link of the values of its six fields. -/
def ofTuple :
    Fields.Tuple [UInt64, UInt64, UInt64, UInt64, UInt64, Json] → LinkEntry
  | (id, source, output, target, input, linkType, ()) =>
    ⟨id, source, output, target, input, typeOf linkType⟩

/-- A link as an array of six. -/
def arrayFields : Fields [UInt64, UInt64, UInt64, UInt64, UInt64, Json] :=
  .cons (.required "0" Reader.uint64)
    (.cons (.required "1" Reader.uint64)
      (.cons (.required "2" Reader.index)
        (.cons (.required "3" Reader.uint64)
          (.cons (.required "4" Reader.index) (.cons (.required "5" Reader.json) .nil)))))

/-- A link as a record. The type may be absent, also from an array. -/
def recordFields : Fields [UInt64, UInt64, UInt64, UInt64, UInt64, Json] :=
  .cons (.required "id" Reader.uint64)
    (.cons (.either "sourceNodeId" "origin_id" Reader.uint64)
      (.cons (.either "sourceOutputIndex" "origin_slot" Reader.index)
        (.cons (.either "targetNodeId" "target_id" Reader.uint64)
          (.cons (.either "targetInputIndex" "target_slot" Reader.index)
            (.cons (.withDefault "type" Reader.json .null) .nil)))))

def reader : Reader LinkEntry :=
  Reader.oneOf "RawLink"
    [(Reader.tuple "a link" arrayFields).map ofTuple,
      (Reader.record "a link" recordFields).map ofTuple]

def toJson (link : LinkEntry) : Json :=
  .array
    [.ofUInt64 link.id, .ofUInt64 link.source, .ofUInt64 link.output, .ofUInt64 link.target,
      .ofUInt64 link.input, Json.ofOption .string link.linkType]

/-- Links in ascending order of their ids; links of one id keep their order. -/
def byId (links : List LinkEntry) : List LinkEntry :=
  links.mergeSort fun a b => decide (a.id ≤ b.id)

/-- Reads the links of a document: an array, or an object whose keys order what has the same
id. Null stands for no links. -/
def listReader : Reader (List LinkEntry) :=
  (Reader.oneOf "RawLinks"
    [Reader.list reader, (Reader.keyMap reader).map fun links => byId links.values]).optional.map
    fun links => links.getD []

end LinkEntry

def reader : Reader Document :=
  (Reader.record "struct GraphDoc"
    (.cons (.optional "last_node_id" Reader.uint64)
      (.cons (.optional "last_link_id" Reader.uint64)
        (.cons (.withDefault "nodes" (Reader.list NodeEntry.reader) [])
          (.cons (.withDefault "links" LinkEntry.listReader []) .nil))))).map
    fun (lastNodeId, lastLinkId, nodes, links, ()) => ⟨lastNodeId, lastLinkId, nodes, links⟩

def toJson (document : Document) : Json :=
  .object
    (Json.field? "last_node_id" .ofUInt64 document.lastNodeId ++
      Json.field? "last_link_id" .ofUInt64 document.lastLinkId ++
      [("nodes", .array (document.nodes.map NodeEntry.toJson)),
        ("links", .array (document.links.map LinkEntry.toJson))])

/-- The document in a text. -/
def ofText (text : String) : Except Json.ReadError Document :=
  reader.readText text

/-- The document in a value. -/
def ofJson (value : Json) : Except Json.ReadError Document :=
  reader.readValue value

/-- The text of a document as it is saved. -/
def text (document : Document) : String :=
  document.toJson.pretty

end Dataflow.Document

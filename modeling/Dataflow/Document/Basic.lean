import Dataflow.Json.Record

/-! # Graph documents

A document is what an editor saves: the nodes, the links between them, and the highest ids that
were ever given out. Reading takes links in several spellings and ignores what the editor keeps for
itself; writing has one form.
-/

namespace Dataflow

/-- The registered kinds of nodes. -/
inductive Document.NodeType where
  | function
  | load
  deriving DecidableEq

/-- Where the function of a node lives. -/
structure Document.FunctionEntry where
  filePath : String
  functionName : String
  deriving DecidableEq

/-- A socket of a node. The ids of its links are for information: the links of the document
decide. -/
structure Document.SocketEntry where
  name : String
  socketType : Option String
  link : Option UInt64
  links : Option (List UInt64)
  deriving DecidableEq

/-- A node of a document. -/
structure Document.NodeEntry where
  id : UInt64
  nodeType : Document.NodeType
  properties : Document.FunctionEntry
  inputs : List Document.SocketEntry
  outputs : List Document.SocketEntry
  /-- Values set on the inputs of the node. -/
  widgetParameter : Values
  deriving BEq

/-- A link of a document. -/
structure Document.LinkEntry where
  id : UInt64
  source : UInt64
  output : UInt64
  target : UInt64
  input : UInt64
  linkType : Option String
  deriving DecidableEq

/-- A graph as it is saved. -/
structure Document where
  lastNodeId : Option UInt64
  lastLinkId : Option UInt64
  nodes : List Document.NodeEntry
  links : List Document.LinkEntry
  deriving BEq

namespace Document

/-- The document without nodes and links. -/
def empty : Document := ⟨none, none, [], []⟩

end Document

end Dataflow

import Dataflow.Document.Format
import Dataflow.Graph.Basic

/-! # Documents as graphs

Loading a document rejects ids that are given twice and nothing else. Saving a graph writes its
counters, and marks every socket with the ids of its links.
-/

namespace Dataflow

namespace Document

/-- The kind of node that a registered type stands for. -/
def NodeType.kind : NodeType → FunctionRef → NodeKind
  | .function => .function
  | .load => .load

/-- The type under which a kind of node is registered. -/
def NodeType.ofKind : NodeKind → NodeType
  | .function _ => .function
  | .load _ => .load

/-- The socket of an entry. -/
def SocketEntry.socket (entry : SocketEntry) : Socket :=
  ⟨entry.name, entry.socketType⟩

/-- The pending node of an entry. -/
def NodeEntry.node (entry : NodeEntry) : Node :=
  { id := ⟨entry.id⟩
    kind := entry.nodeType.kind ⟨⟨entry.properties.filePath⟩, entry.properties.functionName⟩
    inputs := entry.inputs.map SocketEntry.socket
    outputs := entry.outputs.map SocketEntry.socket
    parameters := entry.widgetParameter
    status := .pending }

/-- The link of an entry. -/
def LinkEntry.link (entry : LinkEntry) : Link :=
  ⟨⟨entry.id⟩, ⟨entry.source⟩, entry.output, ⟨entry.target⟩, entry.input, entry.linkType⟩

/-- The entry of a link. -/
def LinkEntry.ofLink (link : Link) : LinkEntry :=
  ⟨link.id.value, link.source.value, link.output, link.target.value, link.input, link.linkType⟩

end Document

namespace Graph

open Document

/-- The graph with the counters raised to what a document has stored. -/
def raiseCounters (g : Graph) (lastNodeId lastLinkId : UInt64) : Graph :=
  { g with
    lastNodeId := max g.lastNodeId lastNodeId
    lastLinkId := max g.lastLinkId lastLinkId }

/-- The graph of a document. -/
def ofDocument (document : Document) : Except GraphError Graph := do
  let g ← document.nodes.foldlM (fun g entry => g.insertNode entry.node) Graph.empty
  let g ← document.links.foldlM (fun g entry => g.insertLink entry.link) g
  return g.raiseCounters (document.lastNodeId.getD 0) (document.lastLinkId.getD 0)

/-- The entry of an input, with the first link that writes to it. -/
def inputEntry (g : Graph) (id : NodeId) (socket : Socket) (input : Nat) : SocketEntry :=
  ⟨socket.name, socket.typeHint,
    (g.incomingLink? id (UInt64.ofNat input)).map fun link => link.id.value, none⟩

/-- The entry of an output, with all links that start from it. -/
def outputEntry (g : Graph) (id : NodeId) (socket : Socket) (output : Nat) : SocketEntry :=
  let ids := ((g.outgoingLinks id).filter (·.output.toNat = output)).map fun link => link.id.value
  ⟨socket.name, socket.typeHint, none, if ids.isEmpty then none else some ids⟩

/-- The entry of a node. -/
def nodeEntry (g : Graph) (node : Node) : NodeEntry :=
  { id := node.id.value
    nodeType := .ofKind node.kind
    properties := ⟨node.functionRef.filePath.text, node.functionRef.functionName⟩
    inputs := node.inputs.mapIdx fun input socket => g.inputEntry node.id socket input
    outputs := node.outputs.mapIdx fun output socket => g.outputEntry node.id socket output
    widgetParameter := node.parameters }

/-- The document that a graph is saved as. -/
def toDocument (g : Graph) : Document :=
  { lastNodeId := some g.lastNodeId
    lastLinkId := some g.lastLinkId
    nodes := g.nodes.map g.nodeEntry
    links := g.links.map LinkEntry.ofLink }

end Graph

end Dataflow

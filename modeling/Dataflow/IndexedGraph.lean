import Dataflow.Catalog.Basic
import Dataflow.Document.Conversion
import Dataflow.Run.Report
import Std.Data.HashMap

/-! # Graphs with an index

While a graph is edited, the place of every node is kept by its id, so that a node is found without
going through the others. Every look-up and every check for an id in use goes through the index, and
an operation that moves nodes has to bring it up to date.
-/

namespace Dataflow

/-- A graph and the places of its nodes. -/
structure IndexedGraph where
  graph : Graph
  places : Std.HashMap NodeId Nat

namespace IndexedGraph

/-- The graph without nodes and links. -/
def empty : IndexedGraph := ⟨.empty, ∅⟩

/-! ### Looking up -/

/-- The place of a node in the order of the nodes. -/
def position? (s : IndexedGraph) (id : NodeId) : Option Nat :=
  s.places[id]?

/-- Whether a node is in the graph. -/
def hasNode (s : IndexedGraph) (id : NodeId) : Bool :=
  s.places.contains id

/-- The node of an id. -/
def node? (s : IndexedGraph) (id : NodeId) : Option Node :=
  (s.position? id).bind fun place => s.graph.nodes[place]?

/-! ### Nodes -/

/-- The index with a node that comes behind all others. -/
def placesWith (s : IndexedGraph) (id : NodeId) : Std.HashMap NodeId Nat :=
  s.places.insert id s.graph.nodes.length

/-- The index without the node at a place. The nodes behind it have moved up. -/
def placesWithout (s : IndexedGraph) (id : NodeId) (place : Nat) : Std.HashMap NodeId Nat :=
  (s.places.erase id).insertMany ((s.graph.nodeIds.eraseIdx place).zipIdx.drop place)

/-- Adds a node under a new id and returns the id. Whether the id is in use is not asked. -/
def addNode (s : IndexedGraph) (kind : NodeKind) (inputs outputs : List Socket)
    (parameters : Values) : NodeId × IndexedGraph :=
  let (id, graph) := s.graph.addNode kind inputs outputs parameters
  (id, ⟨graph, s.placesWith id⟩)

/-- Inserts a node that has an id already. -/
def insertNode (s : IndexedGraph) (node : Node) : Except GraphError IndexedGraph :=
  if s.hasNode node.id then .error (.duplicateNodeId node.id)
  else
    .ok
      { graph :=
          { s.graph with
            nodes := s.graph.nodes ++ [node]
            lastNodeId := max s.graph.lastNodeId node.id.value }
        places := s.placesWith node.id }

/-- Removes a node and returns it. The links at the node stay where they are. -/
def removeNode (s : IndexedGraph) (id : NodeId) : Option Node × IndexedGraph :=
  match s.position? id with
  | none => (none, s)
  | some place =>
    (s.graph.nodes[place]?,
      { graph := { s.graph with nodes := s.graph.nodes.eraseIdx place }
        places := s.placesWithout id place })

/-- Removes the links at a node and returns them. -/
def detachNode (s : IndexedGraph) (id : NodeId) : List Link × IndexedGraph :=
  let (links, graph) := s.graph.detachNode id
  (links, { s with graph := graph })

/-- Changes the node of an id. -/
def updateNode (s : IndexedGraph) (id : NodeId) (change : Node → Node) :
    Except GraphError IndexedGraph :=
  match s.position? id with
  | none => .error (.nodeNotFound id)
  | some place =>
    .ok { s with graph := { s.graph with nodes := s.graph.nodes.modify place change } }

/-- Sets a parameter of a node. -/
def setParameter (s : IndexedGraph) (id : NodeId) (name : String) (value : Datum) :
    Except GraphError IndexedGraph :=
  s.updateNode id fun node => { node with parameters := node.parameters.insert name value }

/-- Gives a node another function and other sockets. Its links stay at their places. -/
def rebind (s : IndexedGraph) (id : NodeId) (ref : FunctionRef) (inputs outputs : List Socket) :
    Except GraphError IndexedGraph :=
  s.updateNode id fun node =>
    { node with kind := node.kind.withFunction ref, inputs := inputs, outputs := outputs }

/-- Sets the status of a node. -/
def setStatus (s : IndexedGraph) (id : NodeId) (status : NodeStatus) :
    Except GraphError IndexedGraph :=
  s.updateNode id fun node => { node with status := status }

/-- Makes every node pending. -/
def resetStatuses (s : IndexedGraph) : IndexedGraph :=
  { s with graph := s.graph.resetStatuses }

/-- Sets the nodes to the statuses in a report, one after the other. Nodes that are gone are passed
over. -/
def applyStatuses (s : IndexedGraph) (r : Report) : IndexedGraph :=
  r.records.foldl
    (fun s entry =>
      match s.setStatus entry.1 entry.2.status with
      | .ok next => next
      | .error _ => s)
    s

/-! ### Links -/

/-- Adds a link under a new id and returns the id. The link has the type of the output that it
starts from; that its ends exist is not asked. -/
def connect (s : IndexedGraph) (source : NodeId) (output : UInt64) (target : NodeId)
    (input : UInt64) : LinkId × IndexedGraph :=
  let id : LinkId := ⟨s.graph.lastLinkId + 1⟩
  let socket := (s.node? source).bind fun node => node.outputs[output.toNat]?
  let link : Link := ⟨id, source, output, target, input, socket.bind Socket.typeHint⟩
  (id,
    { s with
      graph := { s.graph with links := s.graph.links ++ [link], lastLinkId := id.value } })

/-- Inserts a link that has an id already. -/
def insertLink (s : IndexedGraph) (link : Link) : Except GraphError IndexedGraph :=
  (s.graph.insertLink link).map fun graph => { s with graph := graph }

/-- Removes a link and returns it. -/
def disconnect (s : IndexedGraph) (id : LinkId) : Option Link × IndexedGraph :=
  let (link, graph) := s.graph.disconnect id
  (link, { s with graph := graph })

/-! ### Documents and functions -/

/-- The graph of a document. -/
def ofDocument (document : Document) : Except GraphError IndexedGraph := do
  let s ← document.nodes.foldlM (fun s entry => s.insertNode entry.node) empty
  let s ← document.links.foldlM (fun s entry => s.insertLink entry.link) s
  let graph := s.graph.raiseCounters (document.lastNodeId.getD 0) (document.lastLinkId.getD 0)
  return { s with graph := graph }

variable {m : Type → Type} [Monad m]

/-- Adds a node for a function. -/
def addFunction (s : IndexedGraph) (cache : SignatureCache) (extract : Extractor m)
    (kind : NodeKind) (parameters : Values) :
    m (Except CatalogError (NodeId × IndexedGraph) × SignatureCache) := do
  let (added, cache) ← s.graph.addFunction cache extract kind parameters
  return (added.map fun (id, graph) => (id, ⟨graph, s.placesWith id⟩), cache)

/-- Gives a node another function, whose signature is always extracted anew. -/
def rebindFunction (s : IndexedGraph) (cache : SignatureCache) (extract : Extractor m)
    (id : NodeId) (ref : FunctionRef) :
    m (Except CatalogError IndexedGraph × SignatureCache) := do
  if s.hasNode id then
    let (signature, cache) ← cache.refresh extract ref
    let rebound := signature.bind fun signature =>
      (s.rebind id ref signature.inputSockets signature.outputSockets).mapError .graph
    return (rebound, cache)
  else return (.error (.graph (.nodeNotFound id)), cache)

end IndexedGraph

end Dataflow

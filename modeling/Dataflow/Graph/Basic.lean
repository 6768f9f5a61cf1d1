import Dataflow.Link

/-! # Graphs

A graph owns its nodes and links. Nodes keep the order in which they were inserted, which is also
the order in which ties are broken. Ids are counted upwards and never given out again, whatever is
removed in between.
-/

namespace Dataflow

/-- Nodes and links, with the highest ids that were ever given out. -/
structure Graph where
  nodes : List Node
  links : List Link
  lastNodeId : UInt64
  lastLinkId : UInt64
  deriving BEq

/-- Why a graph cannot be changed in the way that was asked for. -/
inductive GraphError where
  | nodeNotFound (id : NodeId)
  | duplicateNodeId (id : NodeId)
  | duplicateLinkId (id : LinkId)
  deriving DecidableEq

def GraphError.message : GraphError → String
  | .nodeNotFound id => "node not found: " ++ toString id
  | .duplicateNodeId id => "duplicate node id: " ++ toString id
  | .duplicateLinkId id => "duplicate link id: " ++ toString id

namespace Graph

/-- The graph without nodes and links. -/
def empty : Graph := ⟨[], [], 0, 0⟩

instance : Inhabited Graph := ⟨empty⟩

/-! ### Looking up -/

/-- The ids of the nodes in their order. -/
def nodeIds (g : Graph) : List NodeId :=
  g.nodes.map Node.id

/-- The node of an id. -/
def node? (g : Graph) (id : NodeId) : Option Node :=
  g.nodes.find? (·.id = id)

/-- The place of a node in the order of the nodes. -/
def position? (g : Graph) (id : NodeId) : Option Nat :=
  g.nodes.findIdx? (·.id = id)

/-- Whether a node is in the graph. -/
def hasNode (g : Graph) (id : NodeId) : Bool :=
  g.nodes.any (·.id = id)

/-- The link of an id. -/
def link? (g : Graph) (id : LinkId) : Option Link :=
  g.links.find? (·.id = id)

/-- Whether a link is in the graph. -/
def hasLink (g : Graph) (id : LinkId) : Bool :=
  g.links.any (·.id = id)

/-- The output socket that a link of the graph would start from. -/
def outputSocket? (g : Graph) (id : NodeId) (output : UInt64) : Option Socket :=
  (g.node? id).bind fun node => node.outputs[output.toNat]?

/-- The first link that writes to an input. -/
def incomingLink? (g : Graph) (id : NodeId) (input : UInt64) : Option Link :=
  g.links.find? (·.slot = (id, input))

/-- The links that end at a node. -/
def incomingLinks (g : Graph) (id : NodeId) : List Link :=
  g.links.filter (·.target = id)

/-- The links that start at a node. -/
def outgoingLinks (g : Graph) (id : NodeId) : List Link :=
  g.links.filter (·.source = id)

/-- The nodes that feed a node, each once, in the order of the links. -/
def feeders (g : Graph) (id : NodeId) : List NodeId :=
  ((g.incomingLinks id).map Link.source).eraseDups

/-- The nodes that a node feeds, each once, in the order of the links. -/
def fed (g : Graph) (id : NodeId) : List NodeId :=
  ((g.outgoingLinks id).map Link.target).eraseDups

/-! ### Nodes -/

/-- Adds a node under a new id and returns the id. -/
def addNode (g : Graph) (kind : NodeKind) (inputs outputs : List Socket) (parameters : Values) :
    NodeId × Graph :=
  let id : NodeId := ⟨g.lastNodeId + 1⟩
  (id,
    { g with
      nodes := g.nodes ++ [⟨id, kind, inputs, outputs, parameters, .pending⟩]
      lastNodeId := id.value })

/-- Inserts a node that has an id already. -/
def insertNode (g : Graph) (node : Node) : Except GraphError Graph :=
  if g.hasNode node.id then .error (.duplicateNodeId node.id)
  else .ok { g with nodes := g.nodes ++ [node], lastNodeId := max g.lastNodeId node.id.value }

/-- Removes a node and returns it. The links at the node stay where they are. -/
def removeNode (g : Graph) (id : NodeId) : Option Node × Graph :=
  (g.node? id, { g with nodes := g.nodes.eraseP (·.id = id) })

/-- Removes the links at a node and returns them. -/
def detachNode (g : Graph) (id : NodeId) : List Link × Graph :=
  (g.links.filter (·.touches id), { g with links := g.links.filter (!·.touches id) })

/-- Changes the node of an id. -/
def updateNode (g : Graph) (id : NodeId) (change : Node → Node) : Except GraphError Graph :=
  if g.hasNode id then
    .ok { g with nodes := g.nodes.map fun node => if node.id = id then change node else node }
  else .error (.nodeNotFound id)

/-- Sets a parameter of a node. -/
def setParameter (g : Graph) (id : NodeId) (name : String) (value : Datum) :
    Except GraphError Graph :=
  g.updateNode id fun node => { node with parameters := node.parameters.insert name value }

/-- Gives a node another function and other sockets. Its links stay at their places. -/
def rebind (g : Graph) (id : NodeId) (ref : FunctionRef) (inputs outputs : List Socket) :
    Except GraphError Graph :=
  g.updateNode id fun node =>
    { node with kind := node.kind.withFunction ref, inputs := inputs, outputs := outputs }

/-- Sets the status of a node. -/
def setStatus (g : Graph) (id : NodeId) (status : NodeStatus) : Except GraphError Graph :=
  g.updateNode id fun node => { node with status := status }

/-- Makes every node pending. -/
def resetStatuses (g : Graph) : Graph :=
  { g with nodes := g.nodes.map fun node => { node with status := .pending } }

/-! ### Links -/

/-- Adds a link under a new id and returns the id. The link has the type of the output that it
starts from; that its ends exist is not asked. -/
def connect (g : Graph) (source : NodeId) (output : UInt64) (target : NodeId) (input : UInt64) :
    LinkId × Graph :=
  let id : LinkId := ⟨g.lastLinkId + 1⟩
  let linkType := (g.outputSocket? source output).bind Socket.typeHint
  (id,
    { g with
      links := g.links ++ [⟨id, source, output, target, input, linkType⟩]
      lastLinkId := id.value })

/-- Inserts a link that has an id already. -/
def insertLink (g : Graph) (link : Link) : Except GraphError Graph :=
  if g.hasLink link.id then .error (.duplicateLinkId link.id)
  else .ok { g with links := g.links ++ [link], lastLinkId := max g.lastLinkId link.id.value }

/-- Removes a link and returns it. -/
def disconnect (g : Graph) (id : LinkId) : Option Link × Graph :=
  (g.link? id, { g with links := g.links.eraseP (·.id = id) })

end Graph

end Dataflow

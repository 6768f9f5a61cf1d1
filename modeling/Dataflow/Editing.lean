import Dataflow.IndexedGraph
import Dataflow.Plan

/-! # Changes in place

A graph that is edited is changed in place, one step after the other, and an operation can fail
between any two of its steps. What has been changed until then stays changed, so an operation that
is to leave the graph alone when it fails has to find out first.
-/

namespace Dataflow

/-- A computation that changes a graph in place and can fail. A failure does not undo anything. -/
abbrev Editing (ε : Type) (m : Type → Type) (α : Type) :=
  ExceptT ε (StateT IndexedGraph m) α

namespace Editing

variable {m : Type → Type} [Monad m] {ε : Type}

/-! ### Nodes and links -/

/-- Puts a node behind all others. -/
def pushNode (node : Node) : Editing ε m Unit := do
  modify fun s => { s with places := s.placesWith node.id }
  modify fun s => { s with graph.nodes := s.graph.nodes ++ [node] }

/-- Adds a node under a new id and returns the id. -/
def addNode (kind : NodeKind) (inputs outputs : List Socket) (parameters : Values) :
    Editing ε m NodeId := do
  modify fun s => { s with graph.lastNodeId := s.graph.lastNodeId + 1 }
  let id : NodeId := ⟨(← get).graph.lastNodeId⟩
  pushNode ⟨id, kind, inputs, outputs, parameters, .pending⟩
  return id

/-- Inserts a node that has an id already. -/
def insertNode (node : Node) : Editing GraphError m Unit := do
  if (← get).hasNode node.id then throw (.duplicateNodeId node.id)
  else
    modify fun s => { s with graph.lastNodeId := max s.graph.lastNodeId node.id.value }
    pushNode node

/-- Inserts a link that has an id already. -/
def insertLink (link : Link) : Editing GraphError m Unit := do
  if (← get).graph.hasLink link.id then throw (.duplicateLinkId link.id)
  else
    modify fun s => { s with graph.lastLinkId := max s.graph.lastLinkId link.id.value }
    modify fun s => { s with graph.links := s.graph.links ++ [link] }

/-- Changes the node of an id. -/
def updateNode (id : NodeId) (change : Node → Node) : Editing GraphError m Unit := do
  match (← get).position? id with
  | none => throw (.nodeNotFound id)
  | some place => modify fun s => { s with graph.nodes := s.graph.nodes.modify place change }

/-- Sets a parameter of a node. -/
def setParameter (id : NodeId) (name : String) (value : Datum) : Editing GraphError m Unit :=
  updateNode id fun node => { node with parameters := node.parameters.insert name value }

/-- Sets the status of a node. -/
def setStatus (id : NodeId) (status : NodeStatus) : Editing GraphError m Unit :=
  updateNode id fun node => { node with status := status }

/-- Gives a node another function and other sockets. Its links stay at their places. -/
def rebind (id : NodeId) (ref : FunctionRef) (inputs outputs : List Socket) :
    Editing GraphError m Unit :=
  updateNode id fun node =>
    { node with kind := node.kind.withFunction ref, inputs := inputs, outputs := outputs }

/-! ### Functions -/

/-- Asks the catalog, which keeps what it has learnt even where the graph is not changed. -/
def consult (ask : StateT SignatureCache m (Except CatalogError Signature)) :
    Editing CatalogError (StateT SignatureCache m) Signature :=
  ExceptT.mk (StateT.lift ask)

/-- Adds a node for a function whose signature is known. -/
def addSignature (signature : Signature) (kind : NodeKind) (parameters : Values) :
    Editing CatalogError m NodeId :=
  match parameters.keys.find? (!signature.takes ·) with
  | some name => throw (.unknownParameter signature.functionName name)
  | none => addNode kind signature.inputSockets signature.outputSockets parameters

/-- Adds a node for a function and returns its id. -/
def addFunction (extract : Extractor m) (kind : NodeKind) (parameters : Values) :
    Editing CatalogError (StateT SignatureCache m) NodeId := do
  let signature ← consult (·.signature extract kind.functionRef)
  addSignature signature kind parameters

/-- Gives a node another function, whose signature is always extracted anew. -/
def rebindFunction (extract : Extractor m) (id : NodeId) (ref : FunctionRef) :
    Editing CatalogError (StateT SignatureCache m) Unit := do
  if (← get).hasNode id then
    let signature ← consult (·.refresh extract ref)
    (rebind id ref signature.inputSockets signature.outputSockets).adapt .graph
  else throw (.graph (.nodeNotFound id))

/-! ### Runs -/

/-- Plans a run and makes every node pending. -/
def execute : Editing PlanError m Plan := do
  match (← get).graph.plan with
  | .error e => throw e
  | .ok plan =>
    modify IndexedGraph.resetStatuses
    return plan

/-- Runs a graph to the end, whatever report its run ends with, and sets its nodes to the statuses
in the report. -/
def runToEnd (drive : Plan → m Report) : Editing PlanError m Report := do
  let plan ← execute
  let report ← drive plan
  modify (·.applyStatuses report)
  return report

end Editing

end Dataflow

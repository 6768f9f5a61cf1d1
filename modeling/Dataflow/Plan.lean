import Dataflow.Graph.Staging

/-! # Plans

A plan is a staging in which every input of every node is resolved: to an output of an earlier node
where a link writes to it, else to a parameter of its name. An input with neither is missing, and
every missing input is reported.
-/

namespace Dataflow

/-- Where the value of an input comes from. -/
inductive InputSource where
  | fromLink (node : NodeId) (output : UInt64) (outputName : String)
  | fromParameter (value : Datum)
  deriving BEq

def InputSource.toJson : InputSource → Json
  | .fromLink node output outputName =>
    .object
      [("kind", .string "from_link"), ("source_node_id", node.toJson),
        ("source_output_index", .ofUInt64 output), ("source_output_name", .string outputName)]
  | .fromParameter value =>
    .object [("kind", .string "from_parameter_default"), ("value", value.json)]

/-- An input with its source. -/
structure PlannedInput where
  name : String
  source : InputSource
  deriving BEq

def PlannedInput.toJson (input : PlannedInput) : Json :=
  .object [("name", .string input.name), ("source", input.source.toJson)]

/-- A node whose inputs are resolved. -/
structure PlannedNode where
  id : NodeId
  functionRef : FunctionRef
  inputs : List PlannedInput
  outputNames : List String
  deriving BEq

namespace PlannedNode

/-- The nodes that a node reads from, in the order of its inputs. -/
def feeders (node : PlannedNode) : List NodeId :=
  node.inputs.filterMap fun input =>
    match input.source with
    | .fromLink source _ _ => some source
    | .fromParameter _ => none

def toJson (node : PlannedNode) : Json :=
  .object
    [("node_id", node.id.toJson), ("function_ref", node.functionRef.toJson),
      ("inputs", .array (node.inputs.map PlannedInput.toJson)),
      ("output_names", .ofStrings node.outputNames)]

end PlannedNode

/-- Nodes that can run at the same time. -/
structure Stage where
  index : Nat
  nodes : List PlannedNode
  deriving BEq

def Stage.toJson (stage : Stage) : Json :=
  .object
    [("index", .ofNat stage.index), ("nodes", .array (stage.nodes.map PlannedNode.toJson))]

/-- The stages of a run in their order. -/
structure Plan where
  stages : List Stage
  deriving BEq

namespace Plan

/-- The planned nodes in the order of execution. -/
def nodes (p : Plan) : List PlannedNode :=
  p.stages.flatMap Stage.nodes

/-- The ids of the planned nodes in the order of execution. -/
def nodeIds (p : Plan) : List NodeId :=
  p.nodes.map PlannedNode.id

def toJson (p : Plan) : Json :=
  .object [("stages", .array (p.stages.map Stage.toJson))]

end Plan

/-- The inputs of a node that have neither a link nor a parameter, in the order of the sockets. -/
structure MissingInputs where
  node : NodeId
  names : List String
  deriving DecidableEq

def MissingInputs.toJson (m : MissingInputs) : Json :=
  .object [("node_id", m.node.toJson), ("input_names", .ofStrings m.names)]

/-- Why there is no plan of a graph. -/
inductive PlanError where
  | structural (defects : List Defect)
  | missingInputs (missing : List MissingInputs)
  /-- A node or an output that the plan would refer to is not in the graph. -/
  | unknownNode (id : NodeId)

namespace PlanError

def message : PlanError → String
  | .structural defects =>
    "graph has " ++ toString defects.length ++ " structural error(s): " ++
      "; ".intercalate (defects.map Defect.message)
  | .missingInputs missing =>
    toString missing.length ++ " node(s) have missing required inputs"
  | .unknownNode id => "plan references unknown node " ++ toString id

def toJson : PlanError → Json
  | .structural defects =>
    .object [("structural_errors", .array (defects.map Defect.toJson))]
  | .missingInputs missing =>
    .object [("missing_inputs", .array (missing.map MissingInputs.toJson))]
  | e@(.unknownNode _) => .object [("error", .string e.message)]

end PlanError

namespace Graph

/-- The source of an input, or nothing if it is missing. A link is preferred to a parameter. -/
def inputSource? (g : Graph) (node : Node) (socket : Socket) (input : Nat) :
    Except PlanError (Option InputSource) :=
  match g.incomingLink? node.id (UInt64.ofNat input) with
  | some link =>
    match g.outputSocket? link.source link.output with
    | some output => .ok (some (.fromLink link.source link.output output.name))
    | none => .error (.unknownNode link.source)
  | none => .ok ((node.parameters.get? socket.name).map .fromParameter)

/-- The inputs of a node from a place on, each with its source if it has one. -/
def inputSources (g : Graph) (node : Node) (input : Nat) :
    List Socket → Except PlanError (List (String × Option InputSource))
  | [] => .ok []
  | socket :: sockets => do
    let source ← g.inputSource? node socket input
    let sources ← g.inputSources node (input + 1) sockets
    return (socket.name, source) :: sources

/-- The plan of a node, or its missing inputs. -/
def planNode (g : Graph) (node : Node) : Except PlanError (Except MissingInputs PlannedNode) := do
  let sources ← g.inputSources node 0 node.inputs
  let missing := sources.filterMap fun (name, source) => if source.isNone then some name else none
  if missing.isEmpty then
    let inputs := sources.filterMap fun (name, source) => source.map fun s => ⟨name, s⟩
    return .ok ⟨node.id, node.functionRef, inputs, node.outputs.map Socket.name⟩
  else return .error ⟨node.id, missing⟩

/-- The plans of the nodes of a stage, and what some of them miss. -/
def planStage (g : Graph) :
    List NodeId → Except PlanError (List PlannedNode × List MissingInputs)
  | [] => .ok ([], [])
  | id :: ids =>
    match g.node? id with
    | none => .error (.unknownNode id)
    | some node => do
      let planned ← g.planNode node
      let (nodes, missing) ← g.planStage ids
      match planned with
      | .ok node => return (node :: nodes, missing)
      | .error m => return (nodes, m :: missing)

/-- The plans of the stages from a number on, and what some of their nodes miss. -/
def planStages (g : Graph) (index : Nat) :
    List (List NodeId) → Except PlanError (List Stage × List MissingInputs)
  | [] => .ok ([], [])
  | ids :: stages => do
    let (nodes, missing) ← g.planStage ids
    let (stages, more) ← g.planStages (index + 1) stages
    return (⟨index, nodes⟩ :: stages, missing ++ more)

/-- The plan of a graph. -/
def plan (g : Graph) : Except PlanError Plan := do
  let staging ← g.staging.mapError .structural
  let (stages, missing) ← g.planStages 0 staging.stages
  if missing.isEmpty then return ⟨stages⟩ else throw (.missingInputs missing)

end Graph

end Dataflow

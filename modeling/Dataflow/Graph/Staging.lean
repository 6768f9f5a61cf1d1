import Dataflow.Graph.Defect

/-! # Stages

A staging is an order of all nodes in which every node comes after the nodes that feed it, cut
into groups that are as early as possible. Inside a stage nodes keep the order of insertion.
-/

namespace Dataflow

/-- Groups of nodes that do not depend on one another, in the order in which they can run. -/
structure Staging where
  stages : List (List NodeId)
  deriving DecidableEq

namespace Staging

/-- The number of the stage of a node. -/
def stageOf? (s : Staging) (id : NodeId) : Option Nat :=
  s.stages.findIdx? (·.contains id)

def toJson (s : Staging) : Json :=
  .array (s.stages.map fun ids => .array (ids.map NodeId.toJson))

end Staging

/-- The stages of a graph, or all its defects. -/
def Graph.staging (g : Graph) : Except (List Defect) Staging :=
  match g.validate with
  | [] => .ok ⟨g.layering.layers.map g.idsAt⟩
  | defects => .error defects

end Dataflow

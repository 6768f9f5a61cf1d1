import Dataflow.Run.Report

/-! # Events of a run -/

namespace Dataflow

/-- What an observer of a run is told. -/
inductive Event where
  | runStarted (nodeCount : Nat) (stageCount : Nat)
  | stageStarted (stage : Nat)
  | nodeStarted (id : NodeId)
  | nodeSucceeded (id : NodeId) (outputs : Values)
  | nodeFailed (id : NodeId) (error : NodeFailure)
  | nodeSkipped (id : NodeId) (reason : NodeFailure)
  | runFinished (status : OverallStatus)

namespace Event

def name : Event → String
  | .runStarted _ _ => "run_started"
  | .stageStarted _ => "stage_started"
  | .nodeStarted _ => "node_started"
  | .nodeSucceeded _ _ => "node_succeeded"
  | .nodeFailed _ _ => "node_failed"
  | .nodeSkipped _ _ => "node_skipped"
  | .runFinished _ => "run_finished"

/-- The node that an event is about. -/
def node? : Event → Option NodeId
  | .nodeStarted id => some id
  | .nodeSucceeded id _ => some id
  | .nodeFailed id _ => some id
  | .nodeSkipped id _ => some id
  | _ => none

/-- The stage that an event is about. -/
def stage? : Event → Option Nat
  | .stageStarted stage => some stage
  | _ => none

/-- The fields of an event besides its name. -/
def fields : Event → List (String × Json)
  | .runStarted nodeCount stageCount =>
    [("node_count", .ofNat nodeCount), ("stage_count", .ofNat stageCount)]
  | .stageStarted stage => [("stage", .ofNat stage)]
  | .nodeStarted id => [("node_id", id.toJson)]
  | .nodeSucceeded id outputs => [("node_id", id.toJson), ("outputs", .ofMap outputs)]
  | .nodeFailed id error => [("node_id", id.toJson), ("error", error.toJson)]
  | .nodeSkipped id reason => [("node_id", id.toJson), ("reason", reason.toJson)]
  | .runFinished status => [("status", status.toJson)]

def toJson (e : Event) : Json :=
  .object (("event", .string e.name) :: e.fields)

end Event

end Dataflow

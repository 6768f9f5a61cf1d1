import Dataflow.Plan

/-! # Run reports

A report has one record per planned node, in ascending order of the ids. A node that did not
succeed has a failure that says why, and the report ends with an overall status.
-/

namespace Dataflow

/-- Why a node did not succeed. -/
inductive NodeFailure where
  /-- Its call ended with an error. -/
  | execution (message : String)
  /-- Its call gave no value for a declared output. -/
  | missingOutput (name : String)
  /-- Its call, or the task around it, panicked. -/
  | panicked (message : String)
  /-- A node that it reads from did not succeed. -/
  | feederFailed (feeder : NodeId)
  /-- The run was cancelled before it could start. -/
  | cancelledBeforeStart
  deriving DecidableEq

namespace NodeFailure

def message : NodeFailure → String
  | .execution message => message
  | .missingOutput name => "missing output '" ++ name ++ "'"
  | .panicked message => "executor panicked: " ++ message
  | .feederFailed feeder => "upstream node " ++ toString feeder ++ " did not succeed"
  | .cancelledBeforeStart => "cancelled before start"

def toJson : NodeFailure → Json
  | .execution message => .object [("kind", .string "execution"), ("message", .string message)]
  | .missingOutput name => .object [("kind", .string "missing_output"), ("name", .string name)]
  | .panicked message => .object [("kind", .string "panicked"), ("message", .string message)]
  | .feederFailed feeder =>
    .object [("kind", .string "upstream_failed"), ("upstream", feeder.toJson)]
  | .cancelledBeforeStart => .object [("kind", .string "cancelled_before_start")]

end NodeFailure

/-- How a run ended as a whole. -/
inductive OverallStatus where
  /-- Every node succeeded. -/
  | completed
  /-- Every node was dealt with, and some did not succeed. -/
  | completedWithErrors
  /-- The run was cancelled before every node had started. -/
  | aborted
  deriving DecidableEq

namespace OverallStatus

def name : OverallStatus → String
  | .completed => "completed"
  | .completedWithErrors => "completed_with_errors"
  | .aborted => "aborted"

instance : ToString OverallStatus := ⟨name⟩

def toJson (status : OverallStatus) : Json :=
  .string status.name

end OverallStatus

/-- What has happened to one node. -/
structure NodeRecord where
  status : NodeStatus
  /-- The inputs of its call. -/
  inputs : Values
  outputs : Values
  failure : Option NodeFailure
  /-- Whether the time of its start has been taken. -/
  started : Bool
  /-- Whether the time of its end has been taken. -/
  finished : Bool

namespace NodeRecord

/-- Nothing has happened yet. -/
def initial : NodeRecord := ⟨.pending, .empty, .empty, none, false, false⟩

/-- The node has been called with some inputs. -/
def start (inputs : Values) (r : NodeRecord) : NodeRecord :=
  { r with status := .running, inputs := inputs, started := true }

/-- The node has succeeded with some outputs. -/
def succeed (outputs : Values) (r : NodeRecord) : NodeRecord :=
  { r with status := .succeeded, outputs := outputs, finished := true }

/-- The node has failed. -/
def fail (failure : NodeFailure) (r : NodeRecord) : NodeRecord :=
  { r with status := .failed, failure := some failure, finished := true }

/-- The node will not be called. -/
def skip (reason : NodeFailure) (r : NodeRecord) : NodeRecord :=
  { r with status := .skipped, failure := some reason, finished := true }

/-- Values as a field, unless there are none. -/
def valuesField (key : String) (values : Values) : List (String × Json) :=
  if values.isEmpty then [] else [(key, .ofMap values)]

/-- Writes a record; every time that has been taken is written as `time`. -/
def toJson (time : String) (r : NodeRecord) : Json :=
  .object
    (("status", r.status.toJson) :: valuesField "inputs" r.inputs ++
      valuesField "outputs" r.outputs ++ Json.field? "error" NodeFailure.toJson r.failure ++
      (if r.started then [("started_at", .string time)] else []) ++
      (if r.finished then [("finished_at", .string time)] else []))

end NodeRecord

/-- What is known of a run. -/
structure Report where
  runId : String
  records : List (NodeId × NodeRecord)
  /-- Missing until the run is over. -/
  overall : Option OverallStatus

namespace Report

/-- The report of a run of some nodes that has not begun. -/
def initial (runId : String) (ids : List NodeId) : Report :=
  { runId := runId
    records := (ids.mergeSort fun a b => decide (a.value ≤ b.value)).map fun id =>
      (id, .initial)
    overall := none }

/-- The record of a node. -/
def record? (r : Report) (id : NodeId) : Option NodeRecord :=
  (r.records.find? (·.1 = id)).map (·.2)

/-- The status of a node. -/
def status? (r : Report) (id : NodeId) : Option NodeStatus :=
  (r.record? id).map NodeRecord.status

/-- Whether a node has a terminal status. -/
def isSettled (r : Report) (id : NodeId) : Bool :=
  (r.status? id).any NodeStatus.isTerminal

/-- The outputs of a node, once it has succeeded. -/
def outputs? (r : Report) (id : NodeId) : Option Values :=
  (r.record? id).bind fun record =>
    if record.status = .succeeded then some record.outputs else none

/-- The records with one for another node, before the first one of a greater id. -/
def insertRecord (id : NodeId) (record : NodeRecord) :
    List (NodeId × NodeRecord) → List (NodeId × NodeRecord)
  | [] => [(id, record)]
  | entry :: rest =>
    if id.value < entry.1.value then (id, record) :: entry :: rest
    else entry :: insertRecord id record rest

/-- Changes the record of a node. A node that has none is given one that is changed from nothing. -/
def update (r : Report) (id : NodeId) (change : NodeRecord → NodeRecord) : Report :=
  { r with
    records :=
      if r.records.any (·.1 = id) then
        r.records.map fun entry => if entry.1 = id then (id, change entry.2) else entry
      else insertRecord id (change .initial) r.records }

/-- How many nodes have a status. -/
def count (r : Report) (status : NodeStatus) : Nat :=
  r.records.countP (·.2.status = status)

/-- The overall status of the records: a node that was cancelled outweighs everything else. -/
def conclusion (r : Report) : OverallStatus :=
  if r.records.any (·.2.failure = some .cancelledBeforeStart) then .aborted
  else if r.records.all (·.2.status = .succeeded) then .completed
  else .completedWithErrors

/-- The report with its overall status. -/
def conclude (r : Report) : Report :=
  { r with overall := some r.conclusion }

/-- Fails every node that has no terminal status. -/
def failUnsettled (r : Report) (failure : NodeFailure) : Report :=
  { r with
    records := r.records.map fun entry =>
      if entry.2.status.isTerminal then entry else (entry.1, entry.2.fail failure) }

/-- Writes a report; every time that has been taken is written as `time`. -/
def toJson (time : String) (r : Report) : Json :=
  .object
    ([("run_id", .string r.runId),
        ("per_node",
          .object (r.records.map fun (id, record) => (toString id, record.toJson time))),
        ("overall_status", Json.ofOption OverallStatus.toJson r.overall),
        ("started_at", .string time)] ++
      if r.overall.isSome then [("finished_at", .string time)] else [])

end Report

/-- Sets the nodes of a graph to the statuses in a report. Nodes that are not in both stay as they
are. -/
def Graph.applyStatuses (g : Graph) (r : Report) : Graph :=
  { g with
    nodes := g.nodes.map fun node =>
      match r.status? node.id with
      | some status => { node with status := status }
      | none => node }

end Dataflow

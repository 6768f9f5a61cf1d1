import Dataflow.Call
import Dataflow.Run.Event
import Dataflow.Text.Quoted

/-! # Runs, step by step

A run is driven by one task of its own, which opens the stages one after the other and hands out
their nodes, and by one task for every node that has been handed out. `RunState.step` is what either
can do next, as one indivisible move; every order in which moves are possible is a run. A node is
launched by a task that holds a permit, and the check for cancellation is part of the launch.

The observer may refuse an event. Then the task that told it ends there: for the task of a node its
node is left as it is, for the run's own task the run is over.
-/

namespace Dataflow

/-- What a run needs from outside. -/
structure RunSetting where
  runId : String
  /-- How the run's own task is called. -/
  taskName : String
  /-- How the call for a request ends. -/
  respond : Request → Response
  /-- What the observer says when it refuses an event. -/
  refusal? : Event → Option String

/-- A node whose inputs are known and which waits for a permit. -/
structure Task where
  node : PlannedNode
  inputs : Values

/-- The request that a task makes. -/
def Task.request (runId : String) (t : Task) : Request :=
  ⟨runId, t.node.id, t.node.functionRef, t.inputs, t.node.outputNames⟩

/-- Where the run's own task is. -/
inductive RunPhase where
  | created
  /-- No stage is open. -/
  | between
  | inStage (stage : Stage)
  | finished

/-- A run in the middle. -/
structure RunState where
  report : Report
  /-- What the observer has been told, the first event first. -/
  events : List Event
  /-- The requests that have been made, the first one first. -/
  calls : List Request
  cancelled : Bool
  /-- The permits that nobody holds; without a limit there is no count. -/
  permits : Option Nat
  phase : RunPhase
  /-- The stages that have not been opened. -/
  upcoming : List Stage
  /-- The nodes of the open stage that have not been handed out. -/
  undispatched : List PlannedNode
  /-- The tasks that wait for a permit, the first one first. -/
  waiting : List Task
  /-- The calls that have not ended, the first one first. -/
  inFlight : List Request

/-- One indivisible move of a run. -/
inductive Move where
  /-- The run is cancelled. -/
  | cancel
  /-- The run's own task begins. -/
  | announce
  /-- The next stage is opened. -/
  | openStage
  /-- The next node of the stage is handed out or skipped. -/
  | dispatch
  /-- The task of a node takes a permit and starts its call, or skips the node. -/
  | launch (id : NodeId)
  /-- The call of a node ends. -/
  | settle (id : NodeId)
  /-- The stage ends when all its tasks have ended. -/
  | closeStage
  /-- The run ends when all its stages have ended. -/
  | finish
  deriving DecidableEq

/-- How a call ends for its node: with all declared outputs, or with a failure. -/
def Response.outcome (outputNames : List String) : Response → Except NodeFailure Values
  | .outputs values =>
    match outputNames.find? (!values.contains ·) with
    | some name => .error (.missingOutput name)
    | none => .ok values
  | .error e => .error (.execution e.message)
  | .panic message => .error (.panicked message)

namespace Report

/-- The value of an input, or the node that has not provided it. -/
def inputValue (r : Report) : InputSource → Except NodeId Datum
  | .fromLink source _ outputName =>
    match (r.outputs? source).bind (·.get? outputName) with
    | some value => .ok value
    | none => .error source
  | .fromParameter value => .ok value

/-- The values of some inputs by their names, or the first node that has not provided one. -/
def gather (r : Report) (inputs : List PlannedInput) : Except NodeId Values :=
  inputs.foldlM (fun values input => (r.inputValue input.source).map (values.insert input.name))
    .empty

end Report

namespace RunState

/-- A run of a plan that has not begun. -/
def initial (runId : String) (plan : Plan) (permits : Option Nat) (cancelled : Bool) :
    RunState :=
  { report := .initial runId plan.nodeIds
    events := []
    calls := []
    cancelled := cancelled
    permits := permits
    phase := .created
    upcoming := plan.stages
    undispatched := []
    waiting := []
    inFlight := [] }

/-- The most permits that can be counted. -/
def maxPermits : Nat := (UInt64.size - 1) >>> 3

/-- Creates a run of a plan, which panics if there are more permits than can be counted. -/
def create (runId : String) (plan : Plan) (permits : Option Nat) (cancelled : Bool) :
    Except String RunState :=
  if permits.all (· ≤ maxPermits) then .ok (initial runId plan permits cancelled)
  else .error ("a semaphore may not have more than MAX_PERMITS permits (" ++ toString maxPermits ++
    ")")

/-- Changes the record of a node. -/
def record (s : RunState) (id : NodeId) (change : NodeRecord → NodeRecord) : RunState :=
  { s with report := s.report.update id change }

/-- Tells the observer. -/
def log (s : RunState) (e : Event) : RunState :=
  { s with events := s.events ++ [e] }

/-- Gives a permit back. -/
def release (s : RunState) : RunState :=
  { s with permits := s.permits.map (· + 1) }

/-- Ends the run because its own task has panicked. The tasks of its nodes end with it. -/
def collapse (s : RunState) (env : RunSetting) (message : String) : RunState :=
  let failure := "task " ++ env.taskName ++ " panicked with message " ++ Text.quote message
  { s with
    report := (s.report.failUnsettled (.panicked failure)).conclude
    phase := .finished
    upcoming := []
    undispatched := []
    waiting := []
    inFlight := [] }

/-- The run's own task tells the observer. -/
def tell (s : RunState) (env : RunSetting) (e : Event) : RunState :=
  match env.refusal? e with
  | none => s.log e
  | some message => (s.log e).collapse env message

/-- The run's own task skips a node. -/
def skip (s : RunState) (env : RunSetting) (id : NodeId) (reason : NodeFailure) : RunState :=
  (s.record id (.skip reason)).tell env (.nodeSkipped id reason)

/-- Hands out a node, unless it is to be skipped. -/
def dispatchNode (s : RunState) (env : RunSetting) (node : PlannedNode) : RunState :=
  if s.cancelled then s.skip env node.id .cancelledBeforeStart
  else
    match s.report.gather node.inputs with
    | .ok inputs => { s with waiting := s.waiting ++ [⟨node, inputs⟩] }
    | .error feeder => s.skip env node.id (.feederFailed feeder)

/-- Starts the call of a task that holds a permit, unless its node is to be skipped. -/
def launchTask (s : RunState) (env : RunSetting) (t : Task) : RunState :=
  let id := t.node.id
  if s.cancelled then
    ((s.record id (.skip .cancelledBeforeStart)).log
      (.nodeSkipped id .cancelledBeforeStart)).release
  else
    let s := (s.record id (.start t.inputs)).log (.nodeStarted id)
    match env.refusal? (.nodeStarted id) with
    | some _ => s.release
    | none =>
      let request := t.request env.runId
      { s with calls := s.calls ++ [request], inFlight := s.inFlight ++ [request] }

/-- Records how a call has ended and gives its permit back. -/
def settleCall (s : RunState) (env : RunSetting) (r : Request) : RunState :=
  match (env.respond r).outcome r.outputNames with
  | .ok outputs =>
    ((s.record r.nodeId (.succeed outputs)).log (.nodeSucceeded r.nodeId outputs)).release
  | .error failure =>
    ((s.record r.nodeId (.fail failure)).log (.nodeFailed r.nodeId failure)).release

/-- The failure of a node whose task ended before the node had a terminal status. -/
def taskLost : NodeFailure :=
  .panicked "node task did not complete"

/-- Fails a node whose task has been lost, as long as the run goes on. -/
def failLost (env : RunSetting) (s : RunState) (node : PlannedNode) : RunState :=
  match s.phase with
  | .inStage _ =>
    if s.report.isSettled node.id then s
    else (s.record node.id (.fail taskLost)).tell env (.nodeFailed node.id taskLost)
  | _ => s

/-- Closes the open stage, if the run still goes on. -/
def leaveStage (s : RunState) : RunState :=
  match s.phase with
  | .inStage _ => { s with phase := .between }
  | _ => s

/-- The state after a move, if the move is possible. -/
def step (env : RunSetting) (s : RunState) : Move → Option RunState
  | .cancel => some { s with cancelled := true }
  | .announce =>
    match s.phase with
    | .created =>
      some ({ s with phase := .between }.tell env
        (.runStarted s.report.records.length s.upcoming.length))
    | _ => none
  | .openStage =>
    match s.phase, s.upcoming with
    | .between, stage :: upcoming =>
      some
        ({ s with
            phase := .inStage stage
            upcoming := upcoming
            undispatched := stage.nodes }.tell env (.stageStarted stage.index))
    | _, _ => none
  | .dispatch =>
    match s.undispatched with
    | node :: undispatched => some ({ s with undispatched := undispatched }.dispatchNode env node)
    | [] => none
  | .launch id =>
    match s.permits, s.waiting.find? (·.node.id = id) with
    | some 0, _ => none
    | _, none => none
    | permits, some t =>
      some
        ({ s with
            permits := permits.map (· - 1)
            waiting := s.waiting.eraseP (·.node.id = id) }.launchTask env t)
  | .settle id =>
    match s.inFlight.find? (·.nodeId = id) with
    | none => none
    | some r =>
      some ({ s with inFlight := s.inFlight.eraseP (·.nodeId = id) }.settleCall env r)
  | .closeStage =>
    match s.phase, s.undispatched, s.waiting, s.inFlight with
    | .inStage stage, [], [], [] => some (stage.nodes.foldl (failLost env) s).leaveStage
    | _, _, _, _ => none
  | .finish =>
    match s.phase, s.upcoming with
    | .between, [] =>
      some ({ s with report := s.report.conclude, phase := .finished }.tell env
        (.runFinished s.report.conclusion))
    | _, _ => none

end RunState

end Dataflow

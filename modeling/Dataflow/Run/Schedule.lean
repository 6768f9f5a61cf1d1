import Dataflow.Run.State

/-! # A schedule for runs

One way to order the moves of a run when everything shares a single thread. All nodes of a stage
are handed out first. Then the tasks take turns in that order: a task that gets a permit launches
its node, and a call that is not slow ends within the turn. Slow calls end when no task can do
anything else, the first one first, and the permits that they give back start another round.
-/

namespace Dataflow

/-- What a call does besides answering. -/
structure Conduct where
  /-- The call cancels the run as soon as it has started. -/
  cancels : Request → Bool
  /-- The call goes on for a while. -/
  slow : Request → Bool

/-- Calls that do nothing besides answering. -/
def Conduct.plain : Conduct := ⟨fun _ => false, fun _ => false⟩

/-- The moves that have been made, the last one first, with the states after them, and the state
that they have led to. -/
structure Walk where
  trail : List (Move × RunState)
  state : RunState

namespace Walk

/-- A walk of no moves. -/
def start (s : RunState) : Walk := ⟨[], s⟩

/-- Makes a move, if it is possible. -/
def take (env : RunSetting) (w : Walk) (m : Move) : Walk :=
  match w.state.step env m with
  | some s => ⟨(m, s) :: w.trail, s⟩
  | none => w

/-- The turn of the task of a node. -/
def turn (env : RunSetting) (conduct : Conduct) (w : Walk) (id : NodeId) : Walk :=
  let w := w.take env (.launch id)
  match w.state.inFlight.find? (·.nodeId = id) with
  | none => w
  | some r =>
    let w := if conduct.cancels r then w.take env .cancel else w
    if conduct.slow r then w else w.take env (.settle id)

/-- A turn for every waiting task, and then the end of every slow call. -/
def round (env : RunSetting) (conduct : Conduct) (w : Walk) : Walk :=
  let w := (w.state.waiting.map (·.node.id)).foldl (turn env conduct) w
  (w.state.inFlight.map Request.nodeId).foldl (fun w id => w.take env (.settle id)) w

/-- Several rounds. -/
def rounds (env : RunSetting) (conduct : Conduct) : Nat → Walk → Walk
  | 0, w => w
  | n + 1, w => rounds env conduct n (w.round env conduct)

/-- A stage from its opening to its end. Every round launches a task, so there are no more rounds
than nodes. -/
def stage (env : RunSetting) (conduct : Conduct) (w : Walk) (stage : Stage) : Walk :=
  let w := w.take env .openStage
  let w := stage.nodes.foldl (fun w _ => w.take env .dispatch) w
  (rounds env conduct stage.nodes.length w).take env .closeStage

/-- A run that has been created, from its beginning to its end. -/
def run (env : RunSetting) (conduct : Conduct) (s : RunState) : Walk :=
  (s.upcoming.foldl (stage env conduct) ((start s).take env .announce)).take env .finish

end Walk

end Dataflow

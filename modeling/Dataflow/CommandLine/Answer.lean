import Dataflow.CommandLine.Failure
import Dataflow.Catalog.Basic
import Dataflow.Document.Conversion
import Dataflow.Interpreter.Execution
import Dataflow.Interpreter.Extraction
import Dataflow.Run.Config
import Dataflow.Run.Schedule

/-! # What commands answer

A command works on the text of a graph file. The interpreter is a function from what it is started
with to what comes of it, so an answer depends on nothing else.
-/

namespace Dataflow.CommandLine

/-- What a command prints. -/
inductive Printed where
  | text (text : String)
  | report (report : Report)

/-- The answer of a command. A graph with problems, or a run with failures, is no success. -/
structure Answer where
  printed : Printed
  success : Bool

namespace Answer

/-- A JSON value on lines of its own. -/
def json (value : Json) (success : Bool) : Answer :=
  ⟨.text (value.pretty ++ "\n"), success⟩

/-- A plan error, its fields in the order of their keys. -/
def planError (e : PlanError) : Answer :=
  json e.toJson.sorted false

end Answer

/-- The graph in the text of a file. -/
def readGraph (path : FilePath) (text : String) : Except Failure Graph := do
  let document ← (Document.ofText text).mapError fun e =>
    .error ("failed to parse graph file: " ++ path.text) [e.message]
  (Graph.ofDocument document).mapError fun e =>
    .error ("invalid graph file: " ++ path.text) [e.message]

/-- Lists the defects of a graph. -/
def validate (g : Graph) : Answer :=
  .json (.array (g.validate.map Defect.toJson)) g.validate.isEmpty

/-- Shows the plan of a graph. -/
def showPlan (g : Graph) : Answer :=
  match g.plan with
  | .ok plan => .json plan.toJson true
  | .error e => .planError e

/-- The report of a run whose calls are answered by the interpreter, or the message of a panic. -/
def runPlan (runId : String) (launch : Launch) (interpret : Invocation → Outcome)
    (config : RunConfig) (plan : Plan) : Except String Report :=
  let env : RunSetting := ⟨runId, "run", launch.respond interpret, fun _ => none⟩
  (RunState.create runId plan config.permits false).map fun s =>
    (Walk.run env .plain s).state.report

/-- Runs a graph. -/
def runGraph (runId : String) (launch : Launch) (interpret : Invocation → Outcome)
    (config : RunConfig) (g : Graph) : Except Failure Answer :=
  match config.problem? with
  | some problem => .error (.error (RunConfig.refusal problem) [])
  | none =>
    match g.plan with
    | .error e => .ok (.planError e)
    | .ok plan =>
      match runPlan runId launch interpret config plan with
      | .error message => .error (.panic message)
      | .ok report => .ok ⟨.report report, report.overall = some .completed⟩

/-- Adds a node for a function and returns its id. Nothing is known of the function before. -/
def addFunction (launch : Launch) (interpret : Invocation → Outcome) (kind : NodeKind)
    (parameters : Values) (g : Graph) : Except Failure (NodeId × Graph) :=
  let extract : Extractor Id := launch.extract interpret
  let (added, _) := g.addFunction (m := Id) .empty extract kind parameters
  added.mapError fun e =>
    .error ("failed to add " ++ toString kind.functionRef) [e.message]

end Dataflow.CommandLine

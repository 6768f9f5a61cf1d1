import Dataflow.CommandLine.Answer
import Dataflow.CommandLine.Command

/-! # Carrying out commands

A host gives access to files and to the interpreter. What a command reads and writes is the graph
file alone, and it writes only as the last thing it does.
-/

namespace Dataflow.CommandLine

/-- What commands need from the system that they run on. -/
structure Host (m : Type → Type) where
  /-- Whether there is something at a path. -/
  present : FilePath → m Bool
  /-- The text of a file, or why it cannot be read. -/
  read : FilePath → m (Except String String)
  /-- Makes a text the content of a file, or says why it cannot be written. -/
  write : FilePath → String → m (Except String Unit)
  /-- Runs the interpreter. -/
  interpret : Invocation → Outcome
  /-- An id for a run. -/
  runId : m String

/-- How the program ends. -/
structure Exit where
  status : UInt8
  printed : Printed
  /-- What is said about errors. -/
  complaint : String

namespace Exit

/-- Nothing was wrong. -/
def success (text : String) : Exit := ⟨0, .text text, ""⟩

/-- The end with an answer. -/
def ofAnswer (a : Answer) : Exit :=
  ⟨if a.success then 0 else 1, a.printed, ""⟩

/-- The end with an answer or a failure. -/
def ofResult : Except Failure Answer → Exit
  | .ok a => ofAnswer a
  | .error f => ⟨f.status, .text "", f.text⟩

end Exit

namespace Host

variable {m : Type → Type} [Monad m]

/-- The graph in a file. -/
def load (h : Host m) (path : FilePath) : m (Except Failure Graph) := do
  match ← h.read path with
  | .ok text => return readGraph path text
  | .error reason => return .error (.error ("failed to read graph file: " ++ path.text) [reason])

/-- The graph in a file, or the graph without nodes if there is no file. -/
def loadOrEmpty (h : Host m) (path : FilePath) : m (Except Failure Graph) := do
  if ← h.present path then h.load path else return .ok .empty

/-- Saves a graph in a file. -/
def save (h : Host m) (path : FilePath) (g : Graph) : m (Except Failure Unit) := do
  match ← h.write path g.toDocument.text with
  | .ok () => return .ok ()
  | .error reason => return .error (.error ("failed to write graph file: " ++ path.text) [reason])

/-- Adds a node for a function to the graph in a file and prints its id. -/
def add (h : Host m) (launch : Launch) (path : FilePath) (kind : NodeKind) (parameters : Values) :
    m (Except Failure Answer) := do
  match (← h.loadOrEmpty path).bind (addFunction launch h.interpret kind parameters) with
  | .error f => return .error f
  | .ok (id, g) =>
    match ← h.save path g with
    | .error f => return .error f
    | .ok () => return .ok ⟨.text (toString id ++ "\n"), true⟩

/-- Carries out a command. A run does not wait for anything, so it never reaches its time limit. -/
def carryOut (h : Host m) (order : Order) : m (Except Failure Answer) := do
  let launch : Launch := ⟨order.interpreter, none, .empty⟩
  match order.command with
  | .overview => return .ok ⟨.text "tessel - use --help to see available commands\n", true⟩
  | .validate path => return (← h.load path).map CommandLine.validate
  | .plan path => return (← h.load path).map showPlan
  | .run path maxConcurrency _ workingDir =>
    let launch := { launch with workingDir := workingDir }
    let runId ← h.runId
    return (← h.load path).bind (runGraph runId launch h.interpret ⟨maxConcurrency⟩)
  | .add path kind parameters => h.add launch path kind parameters

end Host

/-- How the program is called. -/
def usage : String :=
  "Usage: tessel [--python <PYTHON>] [COMMAND]\n\nCommands:\n" ++
    "  validate <GRAPH_FILE>\n  plan <GRAPH_FILE>\n" ++
    "  run [--max-concurrency <N>] [--timeout-ms <MS>] [--cwd <DIR>] <GRAPH_FILE>\n" ++
    "  add --file <FILE> --function <NAME> [--load] [--param <NAME=VALUE>]... <GRAPH_FILE>\n"

/-- The version of the program. -/
def versionText : String := "tessel 0.0.1-alpha.0\n"

/-- The end of the program when its arguments are not read to their end. -/
def Exit.ofStop : Stop → Exit
  | .help => .success usage
  | .version => .success versionText
  | .error e =>
    ⟨2, .text "", "error: " ++ e.message ++ "\n\nFor more information, try '--help'.\n"⟩

/-- The whole program: reads its arguments and carries out what they ask for. -/
def Host.execute {m : Type → Type} [Monad m] (h : Host m) (arguments : List String) : m Exit := do
  match Order.read arguments with
  | .error stop => return .ofStop stop
  | .ok order => return .ofResult (← h.carryOut order)

end Dataflow.CommandLine

import Dataflow.CommandLine.Grammar
import Dataflow.Interpreter.Launch
import Dataflow.Node

/-! # Commands

What can be asked for on the command line: checking a graph file, planning it, running it, and
adding a function to it. The interpreter may be named before or after the name of the command; the
one after it counts.
-/

namespace Dataflow.CommandLine

open Json (Reader)

/-- A command with its arguments. -/
inductive Command where
  /-- No command was named. -/
  | overview
  | validate (graphFile : FilePath)
  | plan (graphFile : FilePath)
  /-- The time limit is in milliseconds. -/
  | run (graphFile : FilePath) (maxConcurrency timeLimit : Option UInt64)
      (workingDir : Option FilePath)
  | add (graphFile : FilePath) (kind : NodeKind) (parameters : Values)

/-- What is asked for on the command line. -/
structure Order where
  interpreter : FilePath
  command : Command

/-! ### Values -/

/-- The number of the digits so far with one more digit, as long as it is below 2^64. -/
def addDigit (n : Nat) (c : Char) : Except String Nat :=
  if c.isDigit then
    let next := 10 * n + (c.toNat - '0'.toNat)
    if next < UInt64.size then .ok next else .error "number too large to fit in target type"
  else .error "invalid digit found in string"

/-- Reads a number below 2^64, which may have a plus sign. The first character that is no digit or
makes the number too large decides what is wrong with it. -/
def readCount (text : String) : Except String UInt64 :=
  match text.toList with
  | [] => .error "cannot parse integer from empty string"
  | ['+'] => .error "invalid digit found in string"
  | '+' :: digits => (digits.foldlM addDigit 0).map UInt64.ofNat
  | digits => (digits.foldlM addDigit 0).map UInt64.ofNat

/-- Reads a path. -/
def readPath (text : String) : Except String FilePath :=
  if text.isEmpty then .error "a value is required" else .ok ⟨text⟩

/-- Reads a parameter, written as its name, `=` and its value. A value that is no JSON text is taken
as it stands. -/
def readParameter (text : String) : Except String (String × Datum) :=
  let name := text.toList.takeWhile (· ≠ '=')
  match text.toList.dropWhile (· ≠ '=') with
  | [] => .error ("expected name=value, got '" ++ text ++ "'")
  | _ :: rest =>
    if name = [] then .error ("missing parameter name in '" ++ text ++ "'")
    else
      let value := String.ofList rest
      .ok (String.ofList name, (Reader.datum.readText value).toOption.getD (.string value))

/-! ### Arguments -/

/-- The values of the arguments that have been read. -/
structure Draft where
  interpreter : Option FilePath
  graphFile : Option FilePath
  maxConcurrency : Option UInt64
  timeLimit : Option UInt64
  workingDir : Option FilePath
  file : Option FilePath
  function : Option String
  load : Bool
  parameters : Values

namespace Draft

/-- No argument has been read. -/
def empty : Draft := ⟨none, none, none, none, none, none, none, false, .empty⟩

/-- The place of a value that is read in some way. -/
def slot {α : Type} (name : String) (read : String → Except String α) (set : α → Draft → Draft) :
    Slot Draft :=
  ⟨name, fun text d => (read text).map (set · d)⟩

/-- How an option with a value is shown. -/
def shown (name placeholder : String) : String :=
  "--" ++ name ++ " <" ++ placeholder ++ ">"

/-- An option with a value. -/
def option {α : Type} (name placeholder : String) (read : String → Except String α)
    (set : α → Draft → Draft) : OptionRule Draft :=
  ⟨name, none, .value (slot (shown name placeholder) read set)⟩

/-- The options that every command has. -/
def commonOptions : List (OptionRule Draft) :=
  [option "python" "PYTHON" readPath fun path d => { d with interpreter := some path },
    ⟨"help", some 'h', .stop .help⟩]

/-- The graph file is the only operand that a command has. -/
def graphFileSlot : Slot Draft :=
  slot "<GRAPH_FILE>" readPath fun path d => { d with graphFile := some path }

/-- A graph file and some options besides the common ones. -/
def grammar (options : List (OptionRule Draft)) : Grammar Draft :=
  ⟨options ++ commonOptions, some graphFileSlot, []⟩

/-- The options of a run. -/
def runOptions : List (OptionRule Draft) :=
  [option "max-concurrency" "MAX_CONCURRENCY" readCount fun n d =>
      { d with maxConcurrency := some n },
    option "timeout-ms" "TIMEOUT_MS" readCount fun n d => { d with timeLimit := some n },
    option "cwd" "CWD" readPath fun path d => { d with workingDir := some path }]

/-- The place of a parameter. A later value of the same name replaces an earlier one. -/
def parameterSlot : Slot Draft :=
  slot (shown "param" "PARAMS") readParameter fun (name, value) d =>
    { d with parameters := d.parameters.insert name value }

/-- The options for adding a function. -/
def addOptions : List (OptionRule Draft) :=
  [option "file" "FILE" readPath fun path d => { d with file := some path },
    option "function" "FUNCTION" .ok fun name d => { d with function := some name },
    ⟨"load", none, .switch fun d => { d with load := true }⟩,
    ⟨"param", none, .values parameterSlot⟩]

/-- A value that must have been given. -/
def required {α : Type} (name : String) : Option α → Except Stop α
  | some a => .ok a
  | none => .error (.error (.missing name))

/-- The graph file, which must have been given. -/
def requiredFile (d : Draft) : Except Stop FilePath :=
  required graphFileSlot.name d.graphFile

/-- The command of a run. -/
def runCommand (d : Draft) : Except Stop Command := do
  let graphFile ← d.requiredFile
  return .run graphFile d.maxConcurrency d.timeLimit d.workingDir

/-- The command that adds a function. -/
def addCommand (d : Draft) : Except Stop Command := do
  let graphFile ← d.requiredFile
  let file ← required (shown "file" "FILE") d.file
  let function ← required (shown "function" "FUNCTION") d.function
  let ref : FunctionRef := ⟨file, function⟩
  return .add graphFile (if d.load then .load ref else .function ref) d.parameters

end Draft

/-- The commands by their names: their arguments and what is made of them. -/
def commands : List (String × Grammar Draft × (Draft → Except Stop Command)) :=
  [("validate", Draft.grammar [], fun d => d.requiredFile.map .validate),
    ("plan", Draft.grammar [], fun d => d.requiredFile.map .plan),
    ("run", Draft.grammar Draft.runOptions, Draft.runCommand),
    ("add", Draft.grammar Draft.addOptions, Draft.addCommand)]

/-- The name of the command that explains the others. -/
def helpName : String := "help"

/-- The arguments before the name of a command. -/
def topGrammar : Grammar Draft :=
  ⟨Draft.commonOptions ++ [⟨"version", some 'V', .stop .version⟩], none,
    helpName :: commands.map (·.1)⟩

/-- What an explanation is asked of: nothing or one command. -/
def helpOn : List String → Stop
  | [] => .help
  | name :: names =>
    if topGrammar.commands.contains name then
      match names with
      | [] => .help
      | unknown :: _ => .error (.unknownCommand unknown)
    else .error (.unknownCommand name)

namespace Order

/-- Reads the arguments of a command. -/
def readCommand (name : String) (arguments : List String) : Except Stop (Draft × Command) :=
  match commands.find? (·.1 = name) with
  | none => .error (helpOn arguments)
  | some (_, grammar, make) => do
    let (p, _) ← grammar.read .empty arguments
    let p ← p.settle
    return (p.draft, ← make p.draft)

/-- Reads the arguments of the program. -/
def read (arguments : List String) : Except Stop Order := do
  let (top, rest) ← topGrammar.read .empty arguments
  match rest with
  | none =>
    let top ← top.settle
    return ⟨top.draft.interpreter.getD Launch.defaultInterpreter, .overview⟩
  | some (name, arguments) =>
    let (draft, command) ← readCommand name arguments
    let top ← top.settle
    let interpreter := draft.interpreter <|> top.draft.interpreter
    return ⟨interpreter.getD Launch.defaultInterpreter, command⟩

end Order

end Dataflow.CommandLine

/-! # Options and operands

Arguments are read from left to right. A value that stands in an argument of its own is only looked
at when the next option or operand comes, or at the end; a value behind `=` is looked at at once.
After `--` there are only operands. An option may be given once unless it says otherwise.
-/

namespace Dataflow.CommandLine

/-- What is wrong with the arguments of a command. -/
inductive UsageError where
  | unexpected (argument : String)
  | missingValue (name : String)
  | unwantedValue (option : String)
  | repeated (option : String)
  | refused (name value reason : String)
  | missing (name : String)
  | unknownCommand (name : String)
  deriving DecidableEq

def UsageError.message : UsageError → String
  | .unexpected argument => "unexpected argument '" ++ argument ++ "' found"
  | .missingValue name => "a value is required for '" ++ name ++ "' but none was supplied"
  | .unwantedValue option => "unexpected value for '--" ++ option ++ "' found"
  | .repeated option =>
    "the argument '--" ++ option ++ "' cannot be used multiple times"
  | .refused name value reason =>
    "invalid value '" ++ value ++ "' for '" ++ name ++ "': " ++ reason
  | .missing name => "the required argument '" ++ name ++ "' was not provided"
  | .unknownCommand name => "unrecognized subcommand '" ++ name ++ "'"

/-- Why arguments are not read to their end. -/
inductive Stop where
  | help
  | version
  | error (cause : UsageError)
  deriving DecidableEq

variable {σ : Type}

/-- Where a value goes; a value that cannot go there is refused with a reason. -/
structure Slot (σ : Type) where
  /-- How a message names the value. -/
  name : String
  store : String → σ → Except String σ

/-- What an option does. -/
inductive OptionEffect (σ : Type) where
  /-- The option takes no value. -/
  | switch (set : σ → σ)
  | value (slot : Slot σ)
  /-- The option takes a value every time it is given. -/
  | values (slot : Slot σ)
  /-- The option ends the reading. -/
  | stop (reason : Stop)

/-- An option. It may have a short name of one letter. -/
structure OptionRule (σ : Type) where
  name : String
  letter : Option Char
  effect : OptionEffect σ

/-- The arguments that a command understands. -/
structure Grammar (σ : Type) where
  options : List (OptionRule σ)
  operand : Option (Slot σ)
  /-- The names that end the arguments of the command and begin those of another one. -/
  commands : List String

/-- A value that has not been looked at, or is still to come. -/
structure PendingValue (σ : Type) where
  slot : Slot σ
  text : Option String

/-- How far the arguments have been read. -/
structure Progress (σ : Type) where
  draft : σ
  /-- The options that may not be given again. -/
  given : List String
  pending : Option (PendingValue σ)
  /-- The place of the next operand. -/
  operand : Option (Slot σ)

namespace Progress

/-- Whether the next argument may be the value of an option. -/
def isAwaiting (p : Progress σ) : Bool :=
  p.pending.any (·.text.isNone)

/-- Stores a value. -/
def store (p : Progress σ) (slot : Slot σ) (text : String) : Except Stop (Progress σ) :=
  match slot.store text p.draft with
  | .ok draft => .ok { p with draft := draft }
  | .error reason => .error (.error (.refused slot.name text reason))

/-- Stores the value that is pending. -/
def settle (p : Progress σ) : Except Stop (Progress σ) :=
  match p.pending with
  | none => .ok p
  | some ⟨slot, none⟩ => .error (.error (.missingValue slot.name))
  | some ⟨slot, some text⟩ => { p with pending := none }.store slot text

/-- Notes that an option has been given. -/
def give (p : Progress σ) (option : String) : Except Stop (Progress σ) :=
  if p.given.contains option then .error (.error (.repeated option))
  else .ok { p with given := option :: p.given }

/-- Reads the value of an option, which is still to come unless it stands behind `=`. -/
def await (p : Progress σ) (slot : Slot σ) : Option String → Except Stop (Progress σ)
  | none => .ok { p with pending := some ⟨slot, none⟩ }
  | some text => p.store slot text

/-- Reads an operand. -/
def takeOperand (p : Progress σ) (argument : String) : Except Stop (Progress σ) := do
  match p.operand with
  | none => throw (.error (.unexpected argument))
  | some slot =>
    let p ← p.settle
    return { p with operand := none, pending := some ⟨slot, some argument⟩ }

/-- Reads the arguments after `--`. -/
def takeOperands (p : Progress σ) : List String → Except Stop (Progress σ)
  | [] => .ok p
  | argument :: arguments => do (← p.takeOperand argument).takeOperands arguments

/-- Reads an option, with the value behind `=` if there is one. -/
def takeOption (p : Progress σ) (rule : OptionRule σ) (text : Option String) :
    Except Stop (Progress σ) :=
  match rule.effect, text with
  | .switch set, none => do
    let p ← (← p.settle).give rule.name
    return { p with draft := set p.draft }
  | .value slot, text => do (← (← p.settle).give rule.name).await slot text
  | .values slot, text => do (← p.settle).await slot text
  | .stop reason, none => do
    let _ ← p.settle
    throw reason
  | _, some _ => .error (.error (.unwantedValue rule.name))

end Progress

/-- An argument by its form. -/
inductive ArgumentForm where
  /-- The argument is `--`. -/
  | divider
  | long (name : String) (text : Option String)
  /-- One or more letters after a single dash. -/
  | short (letter : Char)
  | plain

/-- The form of an argument. A dash on its own is a plain argument. -/
def ArgumentForm.of (argument : String) : ArgumentForm :=
  match argument.toList with
  | ['-', '-'] => .divider
  | '-' :: '-' :: cs =>
    let name := String.ofList (cs.takeWhile (· ≠ '='))
    match cs.dropWhile (· ≠ '=') with
    | [] => .long name none
    | _ :: text => .long name (some (String.ofList text))
  | '-' :: letter :: _ => .short letter
  | _ => .plain

namespace Grammar

/-- Reads arguments up to their end or to the name of another command, which is returned with the
arguments behind it. The last value may be pending. -/
def readFrom (g : Grammar σ) (p : Progress σ) :
    List String → Except Stop (Progress σ × Option (String × List String))
  | [] => .ok (p, none)
  | argument :: arguments =>
    if !p.isAwaiting && g.commands.contains argument then .ok (p, some (argument, arguments))
    else
      match ArgumentForm.of argument with
      | .divider => (p.takeOperands arguments).map (·, none)
      | .long name text =>
        match g.options.find? (·.name = name) with
        | none => .error (.error (.unexpected argument))
        | some rule => do g.readFrom (← p.takeOption rule text) arguments
      | .short letter =>
        match g.options.find? (·.letter = some letter) with
        | none => .error (.error (.unexpected argument))
        | some rule => do g.readFrom (← p.takeOption rule none) arguments
      | .plain =>
        match p.pending with
        | some ⟨slot, none⟩ =>
          g.readFrom { p with pending := some ⟨slot, some argument⟩ } arguments
        | _ => do g.readFrom (← p.takeOperand argument) arguments

/-- Reads arguments from the first one on. -/
def read (g : Grammar σ) (draft : σ) (arguments : List String) :
    Except Stop (Progress σ × Option (String × List String)) :=
  g.readFrom ⟨draft, [], none, g.operand⟩ arguments

end Grammar

end Dataflow.CommandLine

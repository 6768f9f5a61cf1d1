import Dataflow.CommandLine.Folder
import Std.Time

/-! # The program

Runs the command line on the files of the system. There is no way to start other programs here, so
the interpreter is never there.
-/

namespace Dataflow.CommandLine

/-- How the system describes an error. -/
def systemText : IO.Error → String
  | .noFileOrDirectory _ _ _ => PathError.missing.message
  | .permissionDenied _ _ _ => PathError.denied.message
  | .inappropriateType _ 20 _ => PathError.notDirectory.message
  | .inappropriateType _ _ _ => PathError.isDirectory.message
  | .invalidArgument _ 36 _ => PathError.nameTooLong.message
  | e => toString e

/-- The result of an action, or how the system describes its error. -/
def attempt {α : Type} (action : IO α) : IO (Except String α) := do
  try
    let a ← action
    return .ok a
  catch e => return .error (systemText e)

/-- A text of random digits. -/
def randomId : IO String := do
  let bytes ← IO.getRandomBytes 16
  return String.ofList (bytes.toList.flatMap fun b =>
    [Nat.digitChar (b.toNat / 16), Nat.digitChar (b.toNat % 16)])

/-- The files of the system. -/
def systemHost : Host IO where
  present path := return (← attempt (IO.FS.realPath path.text)).toBool
  read path := attempt (IO.FS.readFile path.text)
  write path text := attempt (IO.FS.writeFile path.text text)
  interpret _ := .notStarted "Function not implemented (os error 38)"
  runId := randomId

/-- The text of what is printed; every time in a report is the given one. -/
def Printed.render (time : String) : Printed → String
  | .text s => s
  | .report r => (r.toJson time).pretty ++ "\n"

end Dataflow.CommandLine

open Dataflow.CommandLine in
/-- Runs the program on its arguments. -/
def main (arguments : List String) : IO UInt32 := do
  let exit ← systemHost.execute arguments
  let now ← Std.Time.DateTime.now
  IO.print (exit.printed.render (now.format "uuuu-MM-dd'T'HH:mm:ssXXX"))
  IO.eprint exit.complaint
  return exit.status.toUInt32

import Dataflow.Json.Numeral

/-! # Writing JSON

One printer serves both layouts: without any blanks, and with every item and field on a line of its
own, two blanks deeper than the brackets around it. Empty brackets are never broken.
-/

namespace Dataflow.Json

/-- How the items of arrays and the fields of objects are set apart. -/
inductive Layout where
  | compact
  | indented
  deriving DecidableEq

/-- What is written before an item, or before a closing bracket, at a depth. -/
def Layout.break : Layout → Nat → String
  | .compact, _ => ""
  | .indented, depth => "\n" ++ String.ofList (List.replicate (2 * depth) ' ')

/-- What stands between a key and its value. -/
def Layout.colon : Layout → String
  | .compact => ":"
  | .indented => ": "

/-- A hexadecimal digit. -/
def hexDigit (n : Nat) : Char :=
  Nat.digitChar (n % 16)

/-- A character inside a quoted text. Quotes, backslashes and control characters are escaped. -/
def escaped (c : Char) : List Char :=
  match c with
  | '"' => ['\\', '"']
  | '\\' => ['\\', '\\']
  | '\n' => ['\\', 'n']
  | '\r' => ['\\', 'r']
  | '\t' => ['\\', 't']
  | '\x08' => ['\\', 'b']
  | '\x0c' => ['\\', 'f']
  | c =>
    if c.toNat < 0x20 then ['\\', 'u', '0', '0', hexDigit (c.toNat / 16), hexDigit c.toNat]
    else [c]

/-- A text in quotes. -/
def quoted (s : String) : String :=
  String.ofList ('"' :: s.toList.flatMap escaped ++ ['"'])

mutual

/-- A value whose brackets open at a depth. -/
def render (layout : Layout) (depth : Nat) : Json → String
  | .null => "null"
  | .bool true => "true"
  | .bool false => "false"
  | .number n => n.text
  | .string s => quoted s
  | .array [] => "[]"
  | .array (item :: items) =>
    "[" ++ layout.break (depth + 1) ++ render layout (depth + 1) item ++
      renderItems layout (depth + 1) items ++ layout.break depth ++ "]"
  | .object [] => "\x7b\x7d"
  | .object ((key, value) :: fields) =>
    "\x7b" ++ layout.break (depth + 1) ++ quoted key ++ layout.colon ++
      render layout (depth + 1) value ++ renderFields layout (depth + 1) fields ++
      layout.break depth ++ "\x7d"

/-- The items after the first one, each behind its comma. -/
def renderItems (layout : Layout) (depth : Nat) : List Json → String
  | [] => ""
  | item :: items =>
    "," ++ layout.break depth ++ render layout depth item ++ renderItems layout depth items

/-- The fields after the first one, each behind its comma. -/
def renderFields (layout : Layout) (depth : Nat) : List (String × Json) → String
  | [] => ""
  | (key, value) :: fields =>
    "," ++ layout.break depth ++ quoted key ++ layout.colon ++ render layout depth value ++
      renderFields layout depth fields

end

/-- The text of a value without blanks. -/
def compact (j : Json) : String :=
  render .compact 0 j

/-- The text of a value over several lines. -/
def pretty (j : Json) : String :=
  render .indented 0 j

end Dataflow.Json

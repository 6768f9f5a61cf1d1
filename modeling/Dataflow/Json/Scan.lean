import Dataflow.Json.Token

/-! # Scanned texts

A scan is the tree of what a text holds up to the first place where it stops being JSON. Readers
walk it in the order of the text, so what they meet first, a wrong shape or a malformed place, is
what they report. A value in memory is a scan without malformed places.

The tokens are taken in one by one. The state keeps the containers that are still open, the
innermost first.
-/

namespace Dataflow.Json

/-- How the parts of an array or an object end. -/
inductive Tail where
  | closed
  | broken (cause : Malformed)

/-- The key of a field, which has no value when it holds half a surrogate pair. -/
abbrev ScannedKey := Except Malformed String

/-- What a text holds up to the first malformed place. -/
inductive Scan where
  | scalar (value : Scalar)
  | array (items : List Scan) (tail : Tail)
  | object (fields : List (ScannedKey × Scan)) (tail : Tail)
  | broken (cause : Malformed)

/-- An open container: the parts before the one that is being scanned, the last one first. -/
inductive Frame where
  | items (before : List Scan)
  | fields (before : List (ScannedKey × Scan)) (key : ScannedKey)

/-- What the next token may be. -/
inductive ScanState where
  /-- A value. -/
  | value (stack : List Frame)
  /-- A value or the end of the array that has just been opened. -/
  | arrayStart (stack : List Frame)
  /-- A value behind a comma. -/
  | nextItem (before : List Scan) (stack : List Frame)
  /-- A key or the end of the object that has just been opened. -/
  | objectStart (stack : List Frame)
  /-- A key behind a comma. -/
  | nextKey (before : List (ScannedKey × Scan)) (stack : List Frame)
  /-- The colon behind a key. -/
  | colon (before : List (ScannedKey × Scan)) (key : ScannedKey) (stack : List Frame)
  /-- What may follow a value that is complete. -/
  | done (value : Scan) (stack : List Frame)
  /-- Nothing: the text is malformed, or goes on behind its value. -/
  | stopped (value : Scan) (trailing : Bool)

/-- Closes the open containers around the malformed place. -/
def abandon (cause : Malformed) : Scan → List Frame → Scan
  | value, [] => value
  | value, .items before :: stack =>
    abandon cause (.array (value :: before).reverse (.broken cause)) stack
  | value, .fields before key :: stack =>
    abandon cause (.object ((key, value) :: before).reverse (.broken cause)) stack

namespace ScanState

/-- The text is malformed where a value should be. -/
def noValue (cause : Malformed) (stack : List Frame) : ScanState :=
  .stopped (abandon cause (.broken cause) stack) false

/-- The text is malformed behind the items of an array. -/
def noItem (cause : Malformed) (before : List Scan) (stack : List Frame) : ScanState :=
  .stopped (abandon cause (.array before.reverse (.broken cause)) stack) false

/-- The text is malformed behind the fields of an object. -/
def noField (cause : Malformed) (before : List (ScannedKey × Scan)) (stack : List Frame) :
    ScanState :=
  .stopped (abandon cause (.object before.reverse (.broken cause)) stack) false

/-- A token where a value must begin. A string that breaks off is a value, behind which the text is
malformed. -/
def beginValue (stack : List Frame) : Token → ScanState
  | .openArray => .arrayStart stack
  | .openObject => .objectStart stack
  | .scalar scalar => .done (.scalar scalar) stack
  | .brokenString text cause => .stopped (abandon cause (.scalar (.string text)) stack) false
  | .bad cause => noValue cause stack
  | _ => noValue .expectedValue stack

/-- A token where a key must stand. -/
def beginKey (before : List (ScannedKey × Scan)) (stack : List Frame) : Token → ScanState
  | .scalar (.string key) => .colon before key stack
  | .brokenString key cause => noValue cause (.fields before key :: stack)
  | _ => noField .keyMustBeString before stack

/-- Takes in one token. -/
def step : ScanState → Token → ScanState
  | .value stack, t => beginValue stack t
  | .arrayStart stack, .closeArray => .done (.array [] .closed) stack
  | .arrayStart stack, t => beginValue (.items [] :: stack) t
  | .nextItem before stack, .closeArray => noItem .trailingComma before stack
  | .nextItem before stack, t => beginValue (.items before :: stack) t
  | .objectStart stack, .closeObject => .done (.object [] .closed) stack
  | .objectStart stack, t => beginKey [] stack t
  | .nextKey before stack, .closeObject => noField .trailingComma before stack
  | .nextKey before stack, t => beginKey before stack t
  | .colon before key stack, .colon => .value (.fields before key :: stack)
  | .colon before key stack, _ => noValue .expectedColon (.fields before key :: stack)
  | .done scan [], _ => .stopped scan true
  | .done scan (.items before :: stack), .comma => .nextItem (scan :: before) stack
  | .done scan (.items before :: stack), .closeArray =>
    .done (.array (scan :: before).reverse .closed) stack
  | .done scan (.items before :: stack), _ =>
    noItem .expectedListCommaOrEnd (scan :: before) stack
  | .done scan (.fields before key :: stack), .comma => .nextKey ((key, scan) :: before) stack
  | .done scan (.fields before key :: stack), .closeObject =>
    .done (.object ((key, scan) :: before).reverse .closed) stack
  | .done scan (.fields before key :: stack), _ =>
    noField .expectedObjectCommaOrEnd ((key, scan) :: before) stack
  | .stopped scan trailing, _ => .stopped scan trailing

/-- The scan when the text has ended, and whether more stands behind it. -/
def finish : ScanState → Scan × Bool
  | .value stack => (abandon .endInValue (.broken .endInValue) stack, false)
  | .arrayStart stack => (abandon .endInList (.array [] (.broken .endInList)) stack, false)
  | .nextItem before stack =>
    (abandon .endInValue (.array before.reverse (.broken .endInValue)) stack, false)
  | .objectStart stack => (abandon .endInObject (.object [] (.broken .endInObject)) stack, false)
  | .nextKey before stack =>
    (abandon .endInValue (.object before.reverse (.broken .endInValue)) stack, false)
  | .colon before key stack =>
    (abandon .endInObject (.broken .endInObject) (.fields before key :: stack), false)
  | .done scan [] => (scan, false)
  | .done scan (.items before :: stack) =>
    (abandon .endInList (.array (scan :: before).reverse (.broken .endInList)) stack, false)
  | .done scan (.fields before key :: stack) =>
    (abandon .endInObject (.object ((key, scan) :: before).reverse (.broken .endInObject)) stack,
      false)
  | .stopped scan trailing => (scan, trailing)

end ScanState

/-- The scan of a text, and whether more than white space stands behind its value. -/
def scanText (text : String) : Scan × Bool :=
  ((tokens text.toList).foldl ScanState.step (.value [])).finish

mutual

/-- A value in memory as a scan. -/
def Scan.ofJson : Json → Scan
  | .null => .scalar .null
  | .bool value => .scalar (.bool value)
  | .number value => .scalar (.number (.ok value))
  | .string value => .scalar (.string (.ok value))
  | .array items => .array (scanItems items) .closed
  | .object fields => .object (scanFields fields) .closed

/-- The items of an array as scans. -/
def scanItems : List Json → List Scan
  | [] => []
  | item :: items => .ofJson item :: scanItems items

/-- The fields of an object as scans. -/
def scanFields : List (String × Json) → List (ScannedKey × Scan)
  | [] => []
  | (key, value) :: fields => (.ok key, .ofJson value) :: scanFields fields

end

end Dataflow.Json

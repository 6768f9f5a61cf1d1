import Dataflow.Json.Datum
import Dataflow.Json.ReadError
import Dataflow.Json.Scan

/-! # Readers

A reader turns a scan into a value of some type or says what is wrong with it. Errors come in the
order of the text: a container is checked part by part, and what a reader has no use for is
skipped, which any well-formed text survives however deep it nests.
-/

namespace Dataflow.Json

/-- Where a scan comes from, which decides how deep it may nest and how an array that is too long
is reported. -/
inductive Source where
  /-- A text; `room` more containers may be opened inside one another. -/
  | text (room : Nat)
  /-- A value in memory. -/
  | value
  /-- A value that was read ahead because its form was not yet known. -/
  | buffer

/-- Texts may nest 127 containers. -/
def Source.document : Source :=
  .text 127

/-- The source inside a container. -/
def Source.enter : Source → Except ReadError Source
  | .text 0 => .error (.malformed .tooDeep)
  | .text (room + 1) => .ok (.text room)
  | .value => .ok .value
  | .buffer => .ok .buffer

/-- Reads a value of a type from a scan. -/
abbrev Reader (α : Type) := Source → Scan → Except ReadError α

/-- A part of a text that must be well formed. -/
def wellFormed {α : Type} : Except Malformed α → Except ReadError α :=
  Except.mapError .malformed

/-- Nothing may be missing at the end of a container. -/
def Tail.check : Tail → Except ReadError Unit
  | .closed => .ok ()
  | .broken cause => .error (.malformed cause)

/-- What a scalar is called in a message. -/
def Scalar.found : Scalar → Except ReadError Found
  | .null => .ok .null
  | .bool value => .ok (.bool value)
  | .number value => (wellFormed value).map fun value =>
    match value with
    | .natural n => .integer n.toNat
    | .negative below => .integer (-(below.val + 1 : Int))
    | .float f => .float f
  | .string value => (wellFormed value).map .string

/-- What a scan is called in a message. -/
def Scan.found : Scan → Except ReadError Found
  | .scalar value => value.found
  | .array _ _ => .ok .sequence
  | .object _ _ => .ok .map
  | .broken cause => .error (.malformed cause)

/-- The error for a scan that is not of the wanted type. -/
def wrongType {α : Type} (wanted : String) (s : Scan) : Except ReadError α := do
  let found ← s.found
  throw (.mismatch (.wrongType found wanted))

mutual

/-- Passes over a value. -/
def Scan.skip : Scan → Except ReadError Unit
  | .scalar _ => .ok ()
  | .array items tail => do skipItems items; tail.check
  | .object fields tail => do skipFields fields; tail.check
  | .broken cause => .error (.malformed cause)

/-- Passes over items. -/
def skipItems : List Scan → Except ReadError Unit
  | [] => .ok ()
  | item :: items => do item.skip; skipItems items

/-- Passes over fields. -/
def skipFields : List (ScannedKey × Scan) → Except ReadError Unit
  | [] => .ok ()
  | (_, value) :: fields => do value.skip; skipFields fields

end

mutual

/-- Any value, the fields of its objects in order. -/
def Scan.toJson (source : Source) : Scan → Except ReadError Json
  | .scalar .null => .ok .null
  | .scalar (.bool value) => .ok (.bool value)
  | .scalar (.number value) => (wellFormed value).map .number
  | .scalar (.string value) => (wellFormed value).map .string
  | .array items tail => do
    let source ← source.enter
    let items ← itemsToJson source items
    tail.check
    return .array items
  | .object fields tail => do
    let source ← source.enter
    let fields ← fieldsToJson source fields
    tail.check
    return .object (KeyMap.ofList fields).entries
  | .broken cause => .error (.malformed cause)

/-- The items of an array. -/
def itemsToJson (source : Source) : List Scan → Except ReadError (List Json)
  | [] => .ok []
  | item :: items => do
    let item ← item.toJson source
    let items ← itemsToJson source items
    return item :: items

/-- The fields of an object. -/
def fieldsToJson (source : Source) :
    List (ScannedKey × Scan) → Except ReadError (List (String × Json))
  | [] => .ok []
  | (key, value) :: fields => do
    let key ← wellFormed key
    let value ← value.toJson source
    let fields ← fieldsToJson source fields
    return (key, value) :: fields

end

namespace Reader

variable {α β : Type}

/-- Any value. -/
def json : Reader Json :=
  fun source s => s.toJson source

/-- A reader whose result is changed. -/
def map (f : α → β) (r : Reader α) : Reader β :=
  fun source s => (r source s).map f

/-- Any value, to be kept in memory. -/
def datum : Reader Datum :=
  json.map .of

/-- A text, which an error calls by the given name. -/
def stringAs (wanted : String) : Reader String
  | _, .scalar (.string value) => wellFormed value
  | _, s => wrongType wanted s

/-- A text. -/
def string : Reader String :=
  stringAs "a string"

/-- An unsigned number below a bound. -/
def natural (bound : Nat) (wanted : String) : Reader Nat
  | _, .scalar (.number value) => do
    match ← wellFormed value with
    | .natural n =>
      if n.toNat < bound then return n.toNat
      else throw (.mismatch (.wrongValue (.integer n.toNat) wanted))
    | .negative below => throw (.mismatch (.wrongValue (.integer (-(below.val + 1 : Int))) wanted))
    | .float f => throw (.mismatch (.wrongType (.float f) wanted))
  | _, s => wrongType wanted s

/-- A 64-bit number. -/
def uint64 : Reader UInt64 :=
  (natural UInt64.size "u64").map UInt64.ofNat

/-- A position in a list. -/
def index : Reader UInt64 :=
  (natural UInt64.size "usize").map UInt64.ofNat

/-- A 32-bit number. -/
def uint32 : Reader UInt32 :=
  (natural UInt32.size "u32").map UInt32.ofNat

/-- Null and nothing else. -/
def unit : Reader Unit
  | _, .scalar .null => .ok ()
  | _, s => wrongType "unit" s

/-- Null, or a value. -/
def optional (r : Reader α) : Reader (Option α)
  | _, .scalar .null => .ok none
  | source, s => (r source s).map some

/-- The items of an array. -/
def list (r : Reader α) : Reader (List α)
  | source, .array items tail => do
    let source ← source.enter
    let items ← items.mapM (r source)
    tail.check
    return items
  | _, s => wrongType "a sequence" s

/-- The fields of an object, of which the last of a key counts. -/
def keyMap (r : Reader α) : Reader (KeyMap α)
  | source, .object fields tail => do
    let source ← source.enter
    let fields ← fields.mapM fun (key, value) => do
      let key ← wellFormed key
      let value ← r source value
      return (key, value)
    tail.check
    return KeyMap.ofList fields
  | _, s => wrongType "a map" s

/-- The first form that fits. The value is read ahead, so it must be well formed as a whole. -/
def oneOf (type : String) (forms : List (Reader α)) : Reader α := fun source s => do
  let _ ← s.toJson source
  match forms.findSome? fun form => (form .buffer s).toOption with
  | some a => return a
  | none => throw (.mismatch (.noForm type))

/-- The variant of a name. -/
def variant (variants : List (String × α)) (name : String) : Except ReadError α :=
  match variants.find? (·.1 = name) with
  | some (_, a) => .ok a
  | none => .error (.mismatch (.unknownVariant name (variants.map (·.1))))

/-- One of several names, or an object whose only key is such a name and whose value is null. -/
def choice (variants : List (String × α)) : Reader α
  | _, .scalar (.string name) => do variant variants (← wellFormed name)
  | .text room, .object fields tail => do
    let source ← (Source.text room).enter
    match fields, tail with
    | [], .broken cause => throw (.malformed cause)
    | [], _ => throw (.malformed .expectedValue)
    | (key, value) :: rest, tail => do
      let a ← variant variants (← wellFormed key)
      unit source value
      if rest.isEmpty then
        tail.check
        return a
      else throw (.malformed .expectedValue)
  | .text _, .broken cause => .error (.malformed cause)
  | .text _, _ => .error (.malformed .expectedValue)
  | source, .object [(key, value)] _ => do
    let a ← variant variants (← wellFormed key)
    unit source value
    return a
  | _, .object _ _ =>
    .error (.mismatch (.wrongValue .map "map with a single key"))
  | _, s => wrongType "string or map" s

/-- Reads a text that holds one document and nothing behind it. -/
def readText (r : Reader α) (text : String) : Except ReadError α := do
  let (s, trailing) := scanText text
  let a ← r .document s
  if trailing then throw (.malformed .trailingCharacters) else return a

/-- Reads a value in memory. -/
def readValue (r : Reader α) (value : Json) : Except ReadError α :=
  r .value (.ofJson value)

end Reader

end Dataflow.Json

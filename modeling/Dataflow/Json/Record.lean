import Dataflow.Json.Reader

/-! # Records

A record is written as an object. It is read from an object, whose fields may stand in any order
among others that nobody asked for, or from an array of its fields in the order of declaration.
-/

namespace Dataflow.Json

/-- What stands in for a field that is absent. -/
inductive Fallback (α : Type) where
  | required
  /-- An object may leave the field out, an array may not. -/
  | inObject (value : α)
  /-- An object may leave the field out, and an array may end before it. -/
  | always (value : α)

/-- A field of a record. -/
structure Field (α : Type) where
  name : String
  aliases : List String
  reader : Reader α
  fallback : Fallback α

namespace Field

variable {α : Type}

/-- A field that must be there. -/
def required (name : String) (reader : Reader α) : Field α :=
  ⟨name, [], reader, .required⟩

/-- A field that must be there and has a second name. -/
def either (name second : String) (reader : Reader α) : Field α :=
  ⟨name, [second], reader, .required⟩

/-- A field with a value of its own when it is absent. -/
def withDefault (name : String) (reader : Reader α) (value : α) : Field α :=
  ⟨name, [], reader, .always value⟩

/-- A field that may be null or absent. -/
def optional (name : String) (reader : Reader α) : Field (Option α) :=
  ⟨name, [], reader.optional, .always none⟩

/-- A field that may be null, and absent from an object only. -/
def nullable (name : String) (reader : Reader α) : Field (Option α) :=
  ⟨name, [], reader.optional, .inObject none⟩

/-- Whether a key names the field. -/
def isNamed (f : Field α) (key : String) : Bool :=
  key = f.name || f.aliases.contains key

end Field

/-- The fields of a record in the order of declaration, with their types. -/
inductive Fields : List Type → Type 1 where
  | nil : Fields []
  | cons {α : Type} {types : List Type} (field : Field α) (rest : Fields types) :
      Fields (α :: types)

namespace Fields

/-- One value for every field. -/
def Tuple : List Type → Type
  | [] => Unit
  | α :: types => α × Tuple types

/-- The values that have been read so far. -/
def Slots : List Type → Type
  | [] => Unit
  | α :: types => Option α × Slots types

/-- No value has been read yet. -/
def noSlots : {types : List Type} → Fields types → Slots types
  | _, .nil => ()
  | _, .cons _ rest => (none, rest.noSlots)

/-- Reads the value of a key into its slot; nothing is returned for a key that names no field. -/
def offer (source : Source) (key : String) (s : Scan) :
    {types : List Type} → Fields types → Slots types → Except ReadError (Option (Slots types))
  | _, .nil, _ => .ok none
  | _, .cons field rest, (slot, slots) =>
    if field.isNamed key then
      if slot.isSome then .error (.mismatch (.duplicateField field.name))
      else (field.reader source s).map fun a => some (some a, slots)
    else (rest.offer source key s slots).map fun slots => slots.map (slot, ·)

/-- Reads the fields of an object in the order of the text. -/
def readFields (source : Source) {types : List Type} (fields : Fields types) :
    List (ScannedKey × Scan) → Slots types → Except ReadError (Slots types)
  | [], slots => .ok slots
  | (key, s) :: more, slots => do
    match ← fields.offer source (← wellFormed key) s slots with
    | some slots => fields.readFields source more slots
    | none =>
      s.skip
      fields.readFields source more slots

/-- The values of a record whose object has ended. -/
def complete : {types : List Type} → Fields types → Slots types → Except ReadError (Tuple types)
  | _, .nil, _ => .ok ()
  | _, .cons field rest, (slot, slots) => do
    let a ← match slot, field.fallback with
      | some a, _ => .ok a
      | none, .required => .error (.mismatch (.missingField field.name))
      | none, .inObject a => .ok a
      | none, .always a => .ok a
    let values ← rest.complete slots
    return (a, values)

/-- Reads the values of a record from the items of an array and returns the items that are left.
`count` items have been read before. -/
def readItems (source : Source) (wanted : String) (tail : Tail) :
    {types : List Type} → Fields types → Nat → List Scan →
      Except ReadError (Tuple types × List Scan)
  | _, .nil, _, items => .ok ((), items)
  | _, .cons field rest, count, [] => do
    tail.check
    match field.fallback with
    | .always a =>
      let (values, items) ← rest.readItems source wanted tail count []
      return ((a, values), items)
    | _ => throw (.mismatch (.wrongLength count wanted))
  | _, .cons field rest, count, item :: items => do
    let a ← field.reader source item
    let (values, items) ← rest.readItems source wanted tail (count + 1) items
    return ((a, values), items)

/-- How many fields there are. -/
def count : {types : List Type} → Fields types → Nat
  | _, .nil => 0
  | _, .cons _ rest => rest.count + 1

end Fields

/-- A number of elements. -/
def elements : Nat → String
  | 1 => "1 element"
  | n => toString n ++ " elements"

/-- An array has no more items than were asked for. -/
def endOfItems (source : Source) (asked : Nat) (left : List Scan) (tail : Tail) :
    Except ReadError Unit :=
  match source, left with
  | _, [] => tail.check
  | .text _, _ => .error (.malformed .trailingCharacters)
  | .value, _ =>
    .error (.mismatch (.wrongLength (asked + left.length) "fewer elements in array"))
  | .buffer, _ =>
    .error (.mismatch (.wrongLength (asked + left.length) (elements asked ++ " in sequence")))

namespace Reader

variable {types : List Type}

/-- Reads the fields of a record from the parts of an object. -/
def fromFields (source : Source) (fields : Fields types)
    (parts : List (ScannedKey × Scan)) (tail : Tail) :
    Except ReadError (Fields.Tuple types) := do
  let slots ← fields.readFields source parts fields.noSlots
  tail.check
  fields.complete slots

/-- Reads the fields of a record from the items of an array. -/
def fromItems (source : Source) (name : String) (fields : Fields types)
    (items : List Scan) (tail : Tail) : Except ReadError (Fields.Tuple types) := do
  let wanted := name ++ " with " ++ elements fields.count
  let (values, left) ← fields.readItems source wanted tail 0 items
  endOfItems source fields.count left tail
  return values

/-- A record of a name. -/
def record (name : String) (fields : Fields types) : Reader (Fields.Tuple types)
  | source, .object parts tail => do fromFields (← source.enter) fields parts tail
  | source, .array items tail => do fromItems (← source.enter) name fields items tail
  | _, s => wrongType name s

/-- A record that is read from an object only. -/
def objectOnly (name : String) (fields : Fields types) : Reader (Fields.Tuple types)
  | source, .object parts tail => do fromFields (← source.enter) fields parts tail
  | _, s => wrongType name s

/-- A record that is read from an array only and has no field by default. -/
def tuple (name : String) (fields : Fields types) : Reader (Fields.Tuple types)
  | source, .array items tail => do fromItems (← source.enter) name fields items tail
  | _, s => wrongType name s

end Reader

end Dataflow.Json

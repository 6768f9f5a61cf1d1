import Dataflow.KeyMap

/-! # JSON values

An object keeps its fields in the order in which they are written. A value that is held in memory
rather than written has the fields of every object in ascending order of their keys, each key
once; `Json.sorted` puts them into it.
-/

namespace Dataflow

/-- Numerals stand for negative integers, too. -/
instance Json.neZero_two_pow : @NeZero Nat .ofOfNat0 (Nat.pow 2 63) :=
  ⟨Nat.ne_of_gt (Nat.two_pow_pos 63)⟩

/-- A number: an unsigned or a negative 64-bit integer, or a binary fraction. -/
inductive Json.Number where
  | natural (value : UInt64)
  /-- The integer `-(below + 1)`. -/
  | negative (below : Fin (Nat.pow 2 63))
  | float (value : Float)
  deriving BEq

/-- A JSON value. Equality `==` compares fractions as numbers, so `0.0 == -0.0`. -/
inductive Json where
  | null
  | bool (value : Bool)
  | number (value : Json.Number)
  | string (value : String)
  | array (items : List Json)
  | object (fields : List (String × Json))
  deriving BEq, Inhabited

namespace Json

/-- The integer that a number is, if it is one. -/
def Number.toInt? : Number → Option Int
  | .natural value => some value.toNat
  | .negative below => some (-(below.val + 1 : Int))
  | .float _ => none

/-- An unsigned number. -/
def ofUInt64 (n : UInt64) : Json :=
  .number (.natural n)

/-- A count, which is small enough for 64 bits. -/
def ofNat (n : Nat) : Json :=
  .number (.natural (UInt64.ofNat n))

/-- A list of texts. -/
def ofStrings (texts : List String) : Json :=
  .array (texts.map .string)

/-- Null for nothing. -/
def ofOption {α : Type} (toJson : α → Json) : Option α → Json
  | none => .null
  | some a => toJson a

/-- A field that is left out when there is nothing to write. -/
def field? {α : Type} (key : String) (toJson : α → Json) (a : Option α) : List (String × Json) :=
  a.toList.map fun a => (key, toJson a)

mutual

/-- The value with the fields of every object in ascending order of their keys. -/
def sorted : Json → Json
  | .array items => .array (sortedItems items)
  | .object fields => .object (KeyMap.ofList (sortedFields fields)).entries
  | value => value

/-- The items of an array, each with its fields in order. -/
def sortedItems : List Json → List Json
  | [] => []
  | item :: items => item.sorted :: sortedItems items

/-- The fields of an object, the fields of each value in order. -/
def sortedFields : List (String × Json) → List (String × Json)
  | [] => []
  | (key, value) :: fields => (key, value.sorted) :: sortedFields fields

end

/-- Induction on values: the items of an array and the values in an object come first. -/
theorem induct {motive : Json → Prop} (null : motive .null) (bool : ∀ value, motive (.bool value))
    (number : ∀ value, motive (.number value)) (string : ∀ value, motive (.string value))
    (array : ∀ items, (∀ item ∈ items, motive item) → motive (.array items))
    (object : ∀ fields, (∀ field ∈ fields, motive field.2) → motive (.object fields)) :
    ∀ value, motive value
  | .null => null
  | .bool value => bool value
  | .number value => number value
  | .string value => string value
  | .array items => array items fun item _ =>
      induct null bool number string array object item
  | .object fields => object fields fun field _ =>
      induct null bool number string array object field.2
termination_by value => value
decreasing_by
  · decreasing_trivial
  · have := List.sizeOf_lt_of_mem ‹field ∈ fields›
    have : sizeOf field = 1 + sizeOf field.1 + sizeOf field.2 := rfl
    simp only [Json.object.sizeOf_spec]
    omega

theorem sortedItems_eq_map (items : List Json) : sortedItems items = items.map sorted := by
  induction items with
  | nil => rfl
  | cons item items ih => rw [sortedItems, ih, List.map_cons]

theorem sortedFields_eq_map (fields : List (String × Json)) :
    sortedFields fields = fields.map fun field => (field.1, field.2.sorted) := by
  induction fields with
  | nil => rfl
  | cons field fields ih => rw [sortedFields, ih, List.map_cons]

theorem sorted_array (items : List Json) :
    (Json.array items).sorted = .array (items.map sorted) := by
  rw [sorted, sortedItems_eq_map]

theorem sorted_object (fields : List (String × Json)) : (Json.object fields).sorted =
    .object (KeyMap.ofList (fields.map fun field => (field.1, field.2.sorted))).entries := by
  rw [sorted, sortedFields_eq_map]

/-- A value has the fields of all its objects in ascending order, and no key twice. -/
def Ordered (value : Json) : Prop :=
  value.sorted = value

theorem Ordered.array {items : List Json} (h : ∀ item ∈ items, item.Ordered) :
    (Json.array items).Ordered := by
  rw [Ordered, sorted_array, List.map_congr_left h, List.map_id']

/-- A map of values in order is an object in order. -/
theorem Ordered.object {m : KeyMap Json} (h : ∀ value ∈ m.values, value.Ordered) :
    (Json.object m.entries).Ordered := by
  have hmap : m.entries.map (fun field => (field.1, field.2.sorted)) = m.entries := by
    refine (List.map_congr_left fun entry hentry => ?_).trans (List.map_id _)
    exact congrArg (Prod.mk entry.1) (h entry.2 (List.mem_map_of_mem hentry))
  rw [Ordered, sorted_object, hmap, KeyMap.ofList_entries]

/-- Putting the fields of a value in order gives a value in order. -/
theorem ordered_sorted (value : Json) : value.sorted.Ordered := by
  induction value using induct with
  | null | bool | number | string => rfl
  | array items ih =>
      rw [sorted_array]
      exact .array (List.forall_mem_map.mpr ih)
  | object fields ih =>
      rw [sorted_object]
      refine .object fun value hvalue => ?_
      obtain ⟨entry, hentry, rfl⟩ := List.mem_map.mp hvalue
      obtain ⟨field, hfield, rfl⟩ := List.mem_map.mp (KeyMap.mem_of_mem_ofList hentry)
      exact ih field hfield

end Json

end Dataflow

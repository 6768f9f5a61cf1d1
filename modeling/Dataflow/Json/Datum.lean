import Dataflow.Json.Basic

/-! # Values in memory

A value that is held in memory carries the order of its fields, so values that flow between nodes,
or are set on them, never come with their fields in another order than the one they are saved in.
-/

namespace Dataflow

/-- A value in memory: the fields of all its objects are in ascending order of their keys. -/
structure Datum where
  json : Json
  ordered : json.Ordered

namespace Datum

theorem ext_json {d d' : Datum} (h : d.json = d'.json) : d = d' := by
  cases d
  cases d'
  cases h
  rfl

/-- The value in memory that a value is kept as. -/
def of (value : Json) : Datum := ⟨value.sorted, value.ordered_sorted⟩

@[simp] theorem of_json (d : Datum) : of d.json = d :=
  ext_json d.ordered

/-- Nothing. -/
def null : Datum := ⟨.null, rfl⟩

/-- A truth value. -/
def bool (value : Bool) : Datum := ⟨.bool value, rfl⟩

/-- A text. -/
def string (value : String) : Datum := ⟨.string value, rfl⟩

/-- A count, which is small enough for 64 bits. -/
def ofNat (n : Nat) : Datum := ⟨.ofNat n, rfl⟩

instance : BEq Datum := ⟨fun d d' => d.json == d'.json⟩

instance : Inhabited Datum := ⟨null⟩

end Datum

/-- Named values: what flows into or out of a node, or is set on it. -/
abbrev Values := KeyMap Datum

/-- The object of a map. -/
def Json.ofMap (m : Values) : Json :=
  .object (m.map Datum.json).entries

theorem Json.ordered_ofMap (m : Values) : (Json.ofMap m).Ordered := by
  refine .object fun value hvalue => ?_
  obtain ⟨entry, hentry, rfl⟩ := List.mem_map.mp hvalue
  obtain ⟨field, -, rfl⟩ := List.mem_map.mp hentry
  exact field.2.ordered

end Dataflow

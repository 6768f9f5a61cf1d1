import Dataflow.Json.Reader
import Dataflow.Proofs.Failure
import Dataflow.Proofs.Json.Order

/-! # Reading any value

Whatever text or value is read, the result has its fields in order and nests no deeper than its
source allows. A value is read back just when it nests no deeper, and then nothing of it changes but
the order of fields.
-/

namespace Dataflow

namespace Json

mutual

/-- How many containers of a value are inside one another. -/
def depth : Json → Nat
  | .array items => depthOfItems items + 1
  | .object fields => depthOfFields fields + 1
  | _ => 0

/-- The depth of the deepest item. -/
def depthOfItems : List Json → Nat
  | [] => 0
  | item :: items => max item.depth (depthOfItems items)

/-- The depth of the deepest value of some fields. -/
def depthOfFields : List (String × Json) → Nat
  | [] => 0
  | (_, value) :: fields => max value.depth (depthOfFields fields)

end

theorem depthOfItems_le_iff {items : List Json} {n : Nat} :
    depthOfItems items ≤ n ↔ ∀ item ∈ items, item.depth ≤ n := by
  induction items with
  | nil => simp [depthOfItems]
  | cons item items ih => rw [depthOfItems, Nat.max_le, ih, List.forall_mem_cons]

theorem depthOfFields_le_iff {fields : List (String × Json)} {n : Nat} :
    depthOfFields fields ≤ n ↔ ∀ field ∈ fields, field.2.depth ≤ n := by
  induction fields with
  | nil => simp [depthOfFields]
  | cons field fields ih => rw [depthOfFields, Nat.max_le, ih, List.forall_mem_cons]

theorem depth_ofMap_le_iff {m : Values} {n : Nat} :
    (ofMap m).depth ≤ n + 1 ↔ ∀ value ∈ m.values, value.json.depth ≤ n := by
  rw [ofMap, depth, Nat.add_le_add_iff_right, depthOfFields_le_iff, KeyMap.map, List.forall_mem_map,
    KeyMap.values, List.forall_mem_map]

/-- Whether so many containers may be opened inside one another. -/
def Source.Admits : Source → Nat → Prop
  | .text room, depth => depth ≤ room
  | .value, _ => True
  | .buffer, _ => True

namespace Source

variable {source inner : Source}

theorem admits_zero (source : Source) : source.Admits 0 := by
  cases source <;> simp [Admits]

theorem document_admits_iff {n : Nat} : Source.document.Admits n ↔ n ≤ 127 :=
  Iff.rfl

theorem Admits.mono {n n' : Nat} (h : source.Admits n') (hle : n ≤ n') : source.Admits n := by
  cases source with
  | text room => exact Nat.le_trans hle h
  | value => trivial
  | buffer => trivial

/-- Inside a container there is room for one less. -/
theorem admits_succ_of_enter (h : source.enter = .ok inner) {n : Nat} :
    source.Admits (n + 1) ↔ inner.Admits n := by
  cases source with
  | text room =>
      cases room with
      | zero => cases h
      | succ room =>
          cases h
          exact Nat.succ_le_succ_iff
  | value =>
      cases h
      exact Iff.rfl
  | buffer =>
      cases h
      exact Iff.rfl

theorem Admits.exists_enter {n : Nat} (h : source.Admits (n + 1)) :
    ∃ inner, source.enter = .ok inner ∧ inner.Admits n := by
  cases hsource : source.enter with
  | ok inner => exact ⟨inner, rfl, (admits_succ_of_enter hsource).mp h⟩
  | error e =>
      cases source with
      | text room =>
          cases room with
          | zero => exact absurd h (Nat.not_succ_le_zero n)
          | succ room => cases hsource
      | value => cases hsource
      | buffer => cases hsource

theorem admits_array_iff (h : source.enter = .ok inner) {items : List Json} :
    source.Admits (Json.array items).depth ↔ ∀ item ∈ items, inner.Admits item.depth := by
  rw [depth, admits_succ_of_enter h]
  cases inner with
  | text room => exact depthOfItems_le_iff
  | value => simp [Admits]
  | buffer => simp [Admits]

theorem admits_object_iff (h : source.enter = .ok inner) {fields : List (String × Json)} :
    source.Admits (Json.object fields).depth ↔ ∀ field ∈ fields, inner.Admits field.2.depth := by
  rw [depth, admits_succ_of_enter h]
  cases inner with
  | text room => exact depthOfFields_le_iff
  | value => simp [Admits]
  | buffer => simp [Admits]

end Source

/-- Induction on scans: the items of an array and the values in an object come first. -/
theorem Scan.induct {motive : Scan → Prop} (scalar : ∀ value, motive (.scalar value))
    (array : ∀ items tail, (∀ item ∈ items, motive item) → motive (.array items tail))
    (object : ∀ fields tail, (∀ field ∈ fields, motive field.2) → motive (.object fields tail))
    (broken : ∀ cause, motive (.broken cause)) : ∀ s, motive s
  | .scalar value => scalar value
  | .array items tail => array items tail fun item _ => induct scalar array object broken item
  | .object fields tail => object fields tail fun field _ =>
      induct scalar array object broken field.2
  | .broken cause => broken cause
termination_by s => s
decreasing_by
  · decreasing_trivial
  · have := List.sizeOf_lt_of_mem ‹field ∈ fields›
    have : sizeOf field = 1 + sizeOf field.1 + sizeOf field.2 := rfl
    simp only [Scan.object.sizeOf_spec]
    omega

theorem itemsToJson_eq_mapM (source : Source) (items : List Scan) :
    itemsToJson source items = items.mapM (Scan.toJson source) := by
  induction items with
  | nil => rfl
  | cons item items ih => rw [itemsToJson, ih, List.mapM_cons]

/-- Reads a field: its key must be well formed. -/
def readEntry {α : Type} (read : Scan → Except ReadError α) (field : ScannedKey × Scan) :
    Except ReadError (String × α) := do
  let key ← wellFormed field.1
  let value ← read field.2
  return (key, value)

theorem fieldsToJson_eq_mapM (source : Source) (fields : List (ScannedKey × Scan)) :
    fieldsToJson source fields = fields.mapM (readEntry (Scan.toJson source)) := by
  induction fields with
  | nil => rfl
  | cons field fields ih =>
      obtain ⟨key, value⟩ := field
      rw [fieldsToJson, ih, List.mapM_cons]
      simp only [readEntry, bind_assoc, pure_bind]

theorem readEntry_eq_ok_iff {α : Type} {read : Scan → Except ReadError α} {key : ScannedKey}
    {s : Scan} {entry : String × α} :
    readEntry read (key, s) = .ok entry ↔ key = .ok entry.1 ∧ read s = .ok entry.2 := by
  obtain ⟨name, value⟩ := entry
  cases key with
  | error cause => simp [readEntry, wellFormed, Except.mapError, bind, Except.bind]
  | ok name' =>
      cases h : read s <;>
        simp [readEntry, wellFormed, Except.mapError, bind, Except.bind, pure, Except.pure, h]

theorem Tail.check_eq_ok_iff {tail : Tail} {u : Unit} : tail.check = .ok u ↔ tail = .closed := by
  cases tail <;> simp [Tail.check]

/-- What is read has its fields in order and nests no deeper than its source allows. -/
theorem ordered_and_admits_of_toJson {s : Scan} {source : Source} {value : Json}
    (h : s.toJson source = .ok value) : value.Ordered ∧ source.Admits value.depth := by
  induction s using Scan.induct generalizing source value with
  | scalar scalar =>
      have hscalar : value.Ordered ∧ value.depth = 0 := by
        cases scalar with
        | null => cases h; exact ⟨rfl, rfl⟩
        | bool b => cases h; exact ⟨rfl, rfl⟩
        | number n =>
            obtain ⟨n, -, rfl⟩ := map_eq_ok_iff.mp h
            exact ⟨rfl, rfl⟩
        | string text =>
            obtain ⟨text, -, rfl⟩ := map_eq_ok_iff.mp h
            exact ⟨rfl, rfl⟩
      exact ⟨hscalar.1, hscalar.2 ▸ source.admits_zero⟩
  | array items tail ih =>
      simp only [Scan.toJson, itemsToJson_eq_mapM, bind_eq_ok_iff, pure_eq_ok_iff] at h
      obtain ⟨inner, henter, values, hitems, -, -, rfl⟩ := h
      have hvalues : ∀ value ∈ values, value.Ordered ∧ inner.Admits value.depth := by
        intro value hvalue
        obtain ⟨item, hitem, hread⟩ := exists_of_mem_mapM hitems hvalue
        exact ih item hitem hread
      exact ⟨.array fun value hvalue => (hvalues value hvalue).1,
        (Source.admits_array_iff henter).mpr fun value hvalue => (hvalues value hvalue).2⟩
  | object fields tail ih =>
      simp only [Scan.toJson, fieldsToJson_eq_mapM, bind_eq_ok_iff, pure_eq_ok_iff] at h
      obtain ⟨inner, henter, entries, hfields, -, -, rfl⟩ := h
      have hentries : ∀ entry ∈ (KeyMap.ofList entries).entries,
          entry.2.Ordered ∧ inner.Admits entry.2.depth := by
        intro entry hentry
        obtain ⟨⟨key, s⟩, hfield, hread⟩ :=
          exists_of_mem_mapM hfields (KeyMap.mem_of_mem_ofList hentry)
        exact ih _ hfield (readEntry_eq_ok_iff.mp hread).2
      refine ⟨.object fun value hvalue => ?_,
        (Source.admits_object_iff henter).mpr fun entry hentry => (hentries entry hentry).2⟩
      obtain ⟨entry, hentry, rfl⟩ := List.mem_map.mp hvalue
      exact (hentries entry hentry).1
  | broken cause => cases h

/-! ### Values read back -/

theorem scanItems_eq_map (items : List Json) : scanItems items = items.map Scan.ofJson := by
  induction items with
  | nil => rfl
  | cons item items ih => rw [scanItems, ih, List.map_cons]

theorem scanFields_eq_map (fields : List (String × Json)) :
    scanFields fields = fields.map fun field => (.ok field.1, .ofJson field.2) := by
  induction fields with
  | nil => rfl
  | cons field fields ih => rw [scanFields, ih, List.map_cons]

theorem skipItems_eq_ok {items : List Scan} (h : ∀ item ∈ items, item.skip = .ok ()) :
    skipItems items = .ok () := by
  induction items with
  | nil => rfl
  | cons item items ih =>
      obtain ⟨hitem, hitems⟩ := List.forall_mem_cons.mp h
      exact bind_eq_ok_iff.mpr ⟨(), hitem, ih hitems⟩

theorem skipFields_eq_ok {fields : List (ScannedKey × Scan)}
    (h : ∀ field ∈ fields, field.2.skip = .ok ()) : skipFields fields = .ok () := by
  induction fields with
  | nil => rfl
  | cons field fields ih =>
      obtain ⟨hfield, hfields⟩ := List.forall_mem_cons.mp h
      exact bind_eq_ok_iff.mpr ⟨(), hfield, ih hfields⟩

/-- Any value can be passed over. -/
theorem skip_ofJson (value : Json) : (Scan.ofJson value).skip = .ok () := by
  induction value using Json.induct with
  | null => rfl
  | bool b => rfl
  | number n => rfl
  | string text => rfl
  | array items ih =>
      have hitems : ∀ item ∈ scanItems items, item.skip = .ok () := by
        rw [scanItems_eq_map]
        exact List.forall_mem_map.mpr ih
      exact bind_eq_ok_iff.mpr ⟨(), skipItems_eq_ok hitems, rfl⟩
  | object fields ih =>
      have hfields : ∀ field ∈ scanFields fields, field.2.skip = .ok () := by
        rw [scanFields_eq_map]
        exact List.forall_mem_map.mpr ih
      exact bind_eq_ok_iff.mpr ⟨(), skipFields_eq_ok hfields, rfl⟩

/-- A value is read back just when its source allows its depth, and with its fields in order. -/
theorem toJson_ofJson_eq_ok_iff {value result : Json} {source : Source} :
    (Scan.ofJson value).toJson source = .ok result ↔
      source.Admits value.depth ∧ result = value.sorted := by
  have hscalar : ∀ {value result : Json} {source : Source},
      (Except.ok value : Except ReadError Json) = .ok result ↔
        source.Admits 0 ∧ result = value := by
    simp [Source.admits_zero, eq_comm]
  induction value using Json.induct generalizing source result with
  | null => exact hscalar
  | bool b => exact hscalar
  | number n => exact hscalar
  | string text => exact hscalar
  | array items ih =>
      simp only [Scan.ofJson, Scan.toJson, itemsToJson_eq_mapM, scanItems_eq_map, sorted_array,
        bind_eq_ok_iff, pure_eq_ok_iff, List.mapM_map]
      have hitems (inner : Source) (values : List Json) :
          items.mapM (Scan.toJson inner ∘ Scan.ofJson) = .ok values ↔
            (∀ item ∈ items, inner.Admits item.depth) ∧ values = items.map sorted :=
        mapM_eq_ok_iff_of_forall fun item hitem result => ih item hitem
      constructor
      · rintro ⟨inner, henter, values, hvalues, -, -, rfl⟩
        obtain ⟨hadmits, rfl⟩ := (hitems inner values).mp hvalues
        exact ⟨(Source.admits_array_iff henter).mpr hadmits, rfl⟩
      · rintro ⟨hadmits, rfl⟩
        obtain ⟨inner, henter, -⟩ := hadmits.exists_enter
        have hinner := (Source.admits_array_iff henter).mp hadmits
        exact ⟨inner, henter, _, (hitems inner _).mpr ⟨hinner, rfl⟩, (), rfl, rfl⟩
  | object fields ih =>
      simp only [Scan.ofJson, Scan.toJson, fieldsToJson_eq_mapM, scanFields_eq_map, sorted_object,
        bind_eq_ok_iff, pure_eq_ok_iff, List.mapM_map]
      have hfields (inner : Source) (entries : List (String × Json)) :
          (fields.mapM fun field =>
              readEntry (Scan.toJson inner) (.ok field.1, .ofJson field.2)) = .ok entries ↔
            (∀ field ∈ fields, inner.Admits field.2.depth) ∧
              entries = fields.map fun field => (field.1, field.2.sorted) :=
        mapM_eq_ok_iff_of_forall fun field hfield entry => by
          have hread : (Scan.ofJson field.2).toJson inner = .ok entry.2 ↔ _ := ih field hfield
          rw [readEntry_eq_ok_iff, hread, Except.ok.injEq, Prod.ext_iff]
          tauto
      constructor
      · rintro ⟨inner, henter, entries, hentries, -, -, rfl⟩
        obtain ⟨hadmits, rfl⟩ := (hfields inner entries).mp hentries
        exact ⟨(Source.admits_object_iff henter).mpr hadmits, rfl⟩
      · rintro ⟨hadmits, rfl⟩
        obtain ⟨inner, henter, -⟩ := hadmits.exists_enter
        have hinner := (Source.admits_object_iff henter).mp hadmits
        exact ⟨inner, henter, _, (hfields inner _).mpr ⟨hinner, rfl⟩, (), rfl, rfl⟩

end Json

end Dataflow

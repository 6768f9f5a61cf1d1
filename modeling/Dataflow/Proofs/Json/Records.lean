import Dataflow.Json.Record
import Dataflow.Proofs.Json.Values

/-! # Reading records

A record is read from an object just when every field is read from the only part that names it, or
has a value to fall back on, and what is left can be passed over. So the order of the parts does not
matter.
-/

namespace Dataflow.Json

variable {α : Type} {types : List Type}

/-- The value of a field that an object leaves out. -/
def Fallback.value? : Fallback α → Option α
  | .required => none
  | .inObject a => some a
  | .always a => some a

/-- The parts of an object whose keys are well formed. -/
def keyed (written : List (String × Scan)) : List (ScannedKey × Scan) :=
  written.map fun part => (.ok part.1, part.2)

theorem keyed_injective : Function.Injective keyed :=
  List.map_injective_iff.mpr fun _ _ h =>
    Prod.ext (Except.ok.inj (Prod.mk.inj h).1) (Prod.mk.inj h).2

/-- The fields of an object, whose values are arranged, as scans. -/
def Arrangement.scans (arrangement : Arrangement) (written : List (String × Json)) :
    List (String × Scan) :=
  written.map fun part => (part.1, .ofJson (arrangement.apply part.2))

@[simp] theorem Arrangement.scans_nil (arrangement : Arrangement) : arrangement.scans [] = [] :=
  rfl

@[simp] theorem Arrangement.scans_cons (arrangement : Arrangement) (key : String) (value : Json)
    (written : List (String × Json)) : arrangement.scans ((key, value) :: written) =
      (key, .ofJson (arrangement.apply value)) :: arrangement.scans written :=
  rfl

@[simp] theorem Arrangement.scans_append (arrangement : Arrangement)
    (written written' : List (String × Json)) :
    arrangement.scans (written ++ written') =
      arrangement.scans written ++ arrangement.scans written' :=
  List.map_append

/-- A field that may be left out has no other key than its own. -/
theorem map_fst_field?_sublist (key : String) (toJson : α → Json) (o : Option α) :
    ((field? key toJson o).map Prod.fst).Sublist [key] := by
  cases o with
  | none => exact List.nil_sublist _
  | some a => exact .refl _

namespace Field

@[simp] theorem isNamed_required (name key : String) (r : Reader α) :
    (required name r).isNamed key = decide (key = name) :=
  Bool.or_false _

@[simp] theorem isNamed_optional (name key : String) (r : Reader α) :
    (optional name r).isNamed key = decide (key = name) :=
  Bool.or_false _

@[simp] theorem isNamed_nullable (name key : String) (r : Reader α) :
    (nullable name r).isNamed key = decide (key = name) :=
  Bool.or_false _

@[simp] theorem isNamed_withDefault (name key : String) (r : Reader α) (a : α) :
    (withDefault name r a).isNamed key = decide (key = name) :=
  Bool.or_false _

@[simp] theorem reader_required (name : String) (r : Reader α) : (required name r).reader = r :=
  rfl

@[simp] theorem reader_withDefault (name : String) (r : Reader α) (a : α) :
    (withDefault name r a).reader = r :=
  rfl

@[simp] theorem value?_withDefault (name : String) (r : Reader α) (a : α) :
    (withDefault name r a).fallback.value? = some a :=
  rfl

/-- The parts of an object that name a field. -/
def own (field : Field α) (written : List (String × Scan)) : List (String × Scan) :=
  written.filter (field.isNamed ·.1)

/-- The parts of an object that do not name a field. -/
def others (field : Field α) (written : List (String × Scan)) : List (String × Scan) :=
  written.filter (!field.isNamed ·.1)

/-- No part of an object names a field. -/
def AbsentFrom (field : Field α) (written : List (String × Scan)) : Prop :=
  ∀ part ∈ written, ¬field.isNamed part.1 = true

@[simp] theorem absentFrom_nil (field : Field α) : field.AbsentFrom [] :=
  fun _ h => nomatch h

@[simp] theorem absentFrom_cons {field : Field α} {part : String × Scan}
    {written : List (String × Scan)} :
    field.AbsentFrom (part :: written) ↔
      field.isNamed part.1 = false ∧ field.AbsentFrom written := by
  simp [AbsentFrom]

@[simp] theorem absentFrom_append {field : Field α} {written written' : List (String × Scan)} :
    field.AbsentFrom (written ++ written') ↔
      field.AbsentFrom written ∧ field.AbsentFrom written' :=
  List.forall_mem_append

theorem absentFrom_scans_field? {β : Type} {field : Field α} {key : String}
    (h : field.isNamed key = false) (arrangement : Arrangement) (toJson : β → Json)
    (o : Option β) : field.AbsentFrom (arrangement.scans (field? key toJson o)) := by
  cases o with
  | none => exact field.absentFrom_nil
  | some b => exact absentFrom_cons.mpr ⟨h, field.absentFrom_nil⟩

theorem absentFrom_scans_unless {field : Field α} {key : String} (h : field.isNamed key = false)
    (arrangement : Arrangement) (leftOut : Bool) (value : Json) :
    field.AbsentFrom (arrangement.scans (if leftOut then [] else [(key, value)])) := by
  split <;> simp [h]

theorem AbsentFrom.own_eq_nil {field : Field α} {written : List (String × Scan)}
    (h : field.AbsentFrom written) : field.own written = [] :=
  List.filter_eq_nil_iff.mpr h

theorem AbsentFrom.others_eq_self {field : Field α} {written : List (String × Scan)}
    (h : field.AbsentFrom written) : field.others written = written :=
  List.filter_eq_self.mpr fun part hpart => by simp [h part hpart]

section

variable {field : Field α} {part : String × Scan} {written : List (String × Scan)}

theorem own_cons_of_named (h : field.isNamed part.1 = true) :
    field.own (part :: written) = part :: field.own written :=
  List.filter_cons_of_pos h

theorem others_cons_of_named (h : field.isNamed part.1 = true) :
    field.others (part :: written) = field.others written :=
  List.filter_cons_of_neg (by simp [h])

theorem own_cons_of_not_named (h : ¬field.isNamed part.1 = true) :
    field.own (part :: written) = field.own written :=
  List.filter_cons_of_neg h

theorem others_cons_of_not_named (h : ¬field.isNamed part.1 = true) :
    field.others (part :: written) = part :: field.others written :=
  List.filter_cons_of_pos (by simp [h])

end

/-- A field is read from the only part that names it, or has a value without one. -/
def Reads (field : Field α) (source : Source) (written : List (String × Scan)) (a : α) : Prop :=
  (∃ part, field.own written = [part] ∧ field.reader source part.2 = .ok a) ∨
    (field.own written = [] ∧ field.fallback.value? = some a)

/-- How the slot of a field is filled from the parts that name it. -/
def Fills (field : Field α) (source : Source) (parts : List (String × Scan)) :
    Option α → Option α → Prop
  | none, none => parts = []
  | none, some a => ∃ part, parts = [part] ∧ field.reader source part.2 = .ok a
  | some a, slot => parts = [] ∧ slot = some a

theorem fills_cons_iff {field : Field α} {source : Source} {part : String × Scan}
    {parts : List (String × Scan)} {slot slot' : Option α} :
    field.Fills source (part :: parts) slot slot' ↔
      slot = none ∧
        ∃ a, field.reader source part.2 = .ok a ∧ field.Fills source parts (some a) slot' := by
  cases slot with
  | some a => simp [Fills]
  | none =>
      cases slot' with
      | none => simp [Fills]
      | some a =>
          simp only [Fills, List.cons.injEq, true_and, Option.some.injEq]
          constructor
          · rintro ⟨_, ⟨rfl, rfl⟩, hread⟩
            exact ⟨a, hread, rfl, rfl⟩
          · rintro ⟨_, hread, rfl, rfl⟩
            exact ⟨part, ⟨rfl, rfl⟩, hread⟩

/-- What a field is read as follows from how its slot is filled. -/
theorem reads_iff_exists_fills {field : Field α} {source : Source} {written : List (String × Scan)}
    {a : α} : field.Reads source written a ↔
      ∃ slot, field.Fills source (field.own written) none slot ∧
        (slot <|> field.fallback.value?) = some a := by
  constructor
  · rintro (⟨part, hpart, hread⟩ | ⟨hnone, hfallback⟩)
    · exact ⟨some a, ⟨part, hpart, hread⟩, rfl⟩
    · exact ⟨none, hnone, hfallback⟩
  · rintro ⟨_ | b, hfills, hvalue⟩
    · exact .inr ⟨hfills, hvalue⟩
    · obtain rfl : b = a := Option.some.inj hvalue
      exact .inl hfills

end Field

namespace Fields

/-- The slot of the first field before the others. -/
def Slots.cons (slot : Option α) (slots : Slots types) : Slots (α :: types) :=
  (slot, slots)

/-- The values of no fields. -/
def Tuple.nil : Tuple [] :=
  ()

/-- The value of the first field before the others. -/
def Tuple.cons (a : α) (values : Tuple types) : Tuple (α :: types) :=
  (a, values)

/-- Every field is read from the parts of an object, and the other parts are passed over. -/
def Reads (source : Source) :
    {types : List Type} → Fields types → List (String × Scan) → Tuple types → Prop
  | _, .nil, written, _ => ∀ part ∈ written, part.2.skip = .ok ()
  | _, .cons field rest, written, (a, values) =>
    field.Reads source written a ∧ rest.Reads source (field.others written) values

section

variable {source : Source} {field : Field α} {rest : Fields types} {part : String × Scan}
  {written : List (String × Scan)} {slot slot' : Option α} {slots slots' : Slots types}

theorem slots_cons_inj :
    Slots.cons slot slots = Slots.cons slot' slots' ↔ slot = slot' ∧ slots = slots' :=
  Prod.mk.injEq .. ▸ Iff.rfl

theorem readFields_keyed_cons (fields : Fields types) :
    fields.readFields source (keyed (part :: written)) slots =
      (fields.offer source part.1 part.2 slots).bind fun
        | some slots => fields.readFields source (keyed written) slots
        | none => part.2.skip.bind fun _ => fields.readFields source (keyed written) slots := by
  rfl

theorem offer_cons (key : String) (s : Scan) :
    (Fields.cons field rest).offer source key s (Slots.cons slot slots) =
      if field.isNamed key then
        if slot.isSome then .error (.mismatch (.duplicateField field.name))
        else (field.reader source s).map fun a => some (Slots.cons (some a) slots)
      else (rest.offer source key s slots).map fun slots => slots.map (Slots.cons slot) :=
  rfl

theorem readFields_nil_eq_ok_iff {slots slots' : Slots []} :
    Fields.nil.readFields source (keyed written) slots = .ok slots' ↔
      ∀ part ∈ written, part.2.skip = .ok () := by
  induction written with
  | nil => exact iff_of_true rfl (by simp)
  | cons part written ih =>
      rw [readFields_keyed_cons, List.forall_mem_cons, ← ih]
      cases part.2.skip <;> simp [offer, Except.bind]

/-- The first field fills its slot from the parts that name it, the other fields are read from the
other parts. -/
theorem readFields_cons_eq_ok_iff :
    (Fields.cons field rest).readFields source (keyed written) (Slots.cons slot slots) =
        .ok (Slots.cons slot' slots') ↔
      field.Fills source (field.own written) slot slot' ∧
        rest.readFields source (keyed (field.others written)) slots = .ok slots' := by
  induction written generalizing slot slots with
  | nil =>
      simp only [keyed, List.map_nil, readFields, Field.own, Field.others, List.filter_nil,
        Except.ok.injEq, slots_cons_inj]
      cases slot <;> cases slot' <;> simp [Field.Fills, eq_comm]
  | cons part written ih =>
      rw [readFields_keyed_cons, offer_cons]
      by_cases hname : field.isNamed part.1
      · rw [Field.own_cons_of_named hname, Field.others_cons_of_named hname, if_pos hname,
          Field.fills_cons_iff]
        cases slot with
        | some a => simp [Except.bind]
        | none =>
            cases hread : field.reader source part.2 with
            | error e => simp [Except.map, Except.bind]
            | ok a => simp [Except.map, Except.bind, ih]
      · rw [Field.own_cons_of_not_named hname, Field.others_cons_of_not_named hname,
          readFields_keyed_cons, if_neg hname]
        cases rest.offer source part.1 part.2 slots with
        | error e => simp [Except.map, Except.bind]
        | ok found =>
            cases found with
            | some slots => exact ih
            | none =>
                cases hskip : part.2.skip with
                | error e => simp [Except.map, Except.bind]
                | ok _ => simpa [Except.map, Except.bind, hskip] using ih

theorem complete_cons : (Fields.cons field rest).complete (Slots.cons slot slots) =
    match slot <|> field.fallback.value? with
    | some a => (rest.complete slots).map (Tuple.cons a)
    | none => .error (.mismatch (.missingField field.name)) := by
  have hmap (a : α) : ((rest.complete slots).bind fun values => .ok (Tuple.cons a values)) =
      (rest.complete slots).map (Tuple.cons a) := by
    cases rest.complete slots <;> rfl
  obtain ⟨name, aliases, reader, fallback⟩ := field
  cases slot with
  | some a => exact hmap a
  | none =>
      cases fallback with
      | required => rfl
      | inObject a => exact hmap a
      | always a => exact hmap a

theorem complete_cons_eq_ok_iff {a : α} {values : Tuple types} :
    (Fields.cons field rest).complete (Slots.cons slot slots) = .ok (Tuple.cons a values) ↔
      (slot <|> field.fallback.value?) = some a ∧ rest.complete slots = .ok values := by
  rw [complete_cons]
  cases (slot <|> field.fallback.value?) with
  | none => simp
  | some b =>
      simp only [map_eq_ok_iff, Option.some.injEq]
      constructor
      · rintro ⟨values', hvalues, heq⟩
        obtain ⟨rfl, rfl⟩ := Prod.mk.inj heq
        exact ⟨rfl, hvalues⟩
      · rintro ⟨rfl, hvalues⟩
        exact ⟨values, hvalues, rfl⟩

end

/-- The parts of an object make a record just when every field is read from them. -/
theorem exists_readFields_iff {source : Source} {fields : Fields types}
    {written : List (String × Scan)} {values : Tuple types} :
    (∃ slots, fields.readFields source (keyed written) fields.noSlots = .ok slots ∧
      fields.complete slots = .ok values) ↔ fields.Reads source written values := by
  induction fields generalizing written with
  | nil =>
      constructor
      · rintro ⟨slots, hread, -⟩
        exact readFields_nil_eq_ok_iff.mp hread
      · intro h
        exact ⟨(), readFields_nil_eq_ok_iff.mpr h, rfl⟩
  | cons field rest ih =>
      obtain ⟨a, values⟩ := values
      constructor
      · rintro ⟨⟨slot, slots⟩, hread, hcomplete⟩
        obtain ⟨hfills, hrest⟩ := readFields_cons_eq_ok_iff.mp hread
        obtain ⟨ha, hvalues⟩ := complete_cons_eq_ok_iff.mp hcomplete
        exact ⟨Field.reads_iff_exists_fills.mpr ⟨slot, hfills, ha⟩, ih.mp ⟨slots, hrest, hvalues⟩⟩
      · rintro ⟨hfield, hrest⟩
        obtain ⟨slot, hfills, ha⟩ := Field.reads_iff_exists_fills.mp hfield
        obtain ⟨slots, hread, hvalues⟩ := ih.mpr hrest
        exact ⟨Slots.cons slot slots, readFields_cons_eq_ok_iff.mpr ⟨hfills, hread⟩,
          complete_cons_eq_ok_iff.mpr ⟨ha, hvalues⟩⟩

/-- Only well-formed keys are read. -/
theorem exists_keyed_of_readFields {source : Source} {fields : Fields types}
    {parts : List (ScannedKey × Scan)} {slots slots' : Slots types}
    (h : fields.readFields source parts slots = .ok slots') : ∃ written, parts = keyed written := by
  induction parts generalizing slots with
  | nil => exact ⟨[], rfl⟩
  | cons part parts ih =>
      obtain ⟨_ | key, s⟩ := part
      · cases h
      · obtain ⟨_, hkey, h⟩ := bind_eq_ok_iff.mp h
        cases hkey
        obtain ⟨found, -, hrest⟩ := bind_eq_ok_iff.mp h
        have hparts : ∃ written, parts = keyed written := by
          cases found with
          | some slots => exact ih hrest
          | none =>
              obtain ⟨_, -, hrest⟩ := bind_eq_ok_iff.mp hrest
              exact ih hrest
        obtain ⟨written, rfl⟩ := hparts
        exact ⟨(key, s) :: written, rfl⟩

/-- The order of the parts does not matter. -/
theorem Reads.perm {source : Source} {fields : Fields types} {values : Tuple types}
    {written written' : List (String × Scan)} (h : fields.Reads source written values)
    (hperm : written.Perm written') : fields.Reads source written' values := by
  induction fields generalizing written written' with
  | nil => exact fun part hpart => h part (hperm.mem_iff.mpr hpart)
  | cons field rest ih =>
      obtain ⟨a, values⟩ := values
      obtain ⟨hfield, hrest⟩ := h
      refine ⟨?_, ih hrest (hperm.filter _)⟩
      have hown : (field.own written).Perm (field.own written') := hperm.filter _
      rcases hfield with ⟨part, hpart, hread⟩ | ⟨hnone, hfallback⟩
      · exact .inl ⟨part, List.perm_singleton.mp (hpart ▸ hown.symm), hread⟩
      · exact .inr ⟨List.perm_nil.mp (hnone ▸ hown.symm), hfallback⟩

/-! ### Parts in the order of declaration -/

section

variable {source : Source} {field : Field α} {rest : Fields types} {part : String × Scan}
  {written : List (String × Scan)} {a : α} {values : Tuple types}

theorem reads_nil {values : Tuple []} : Fields.nil.Reads source [] values :=
  fun _ h => nomatch h

/-- A field that no part names has the value that it falls back on. -/
theorem reads_iff_of_absent (habsent : field.AbsentFrom written) :
    (Fields.cons field rest).Reads source written (Tuple.cons a values) ↔
      field.fallback.value? = some a ∧ rest.Reads source written values := by
  have hown := habsent.own_eq_nil
  have hothers := habsent.others_eq_self
  have hreads : field.Reads source written a ↔ field.fallback.value? = some a := by
    simp [Field.Reads, hown]
  change field.Reads source written a ∧ rest.Reads source (field.others written) values ↔ _
  rw [hreads, hothers]

/-- The first field is read from the first part, where no other part names it. -/
theorem reads_cons_iff (hname : field.isNamed part.1 = true) (habsent : field.AbsentFrom written) :
    (Fields.cons field rest).Reads source (part :: written) (Tuple.cons a values) ↔
      field.reader source part.2 = .ok a ∧ rest.Reads source written values := by
  have hown : field.own (part :: written) = [part] := by
    rw [Field.own_cons_of_named hname, habsent.own_eq_nil]
  have hothers : field.others (part :: written) = written := by
    rw [Field.others_cons_of_named hname, habsent.others_eq_self]
  have hreads : field.Reads source (part :: written) a ↔ field.reader source part.2 = .ok a := by
    simp [Field.Reads, hown]
  change field.Reads source (part :: written) a ∧
    rest.Reads source (field.others (part :: written)) values ↔ _
  rw [hreads, hothers]

/-- A field that is left out when there is nothing to write is read as what there was. -/
theorem reads_field?_iff {r : Reader α} {key : String} {toJson : α → Json} {o o' : Option α}
    {rest : Fields types} {values : Tuple types} (arrangement : Arrangement)
    (habsent : (Field.optional key r).AbsentFrom written)
    (hread : ∀ a, r.optional source (.ofJson (arrangement.apply (toJson a))) = .ok (some a)) :
    (Fields.cons (.optional key r) rest).Reads source
        (arrangement.scans (field? key toJson o) ++ written) (Tuple.cons o' values) ↔
      o' = o ∧ rest.Reads source written values := by
  cases o with
  | none =>
      refine (reads_iff_of_absent habsent).trans (and_congr_left fun _ => ?_)
      simp [Field.optional, Fallback.value?, eq_comm]
  | some a =>
      refine (reads_cons_iff (by simp [Field.optional, Field.isNamed]) habsent).trans
        (and_congr_left fun _ => ?_)
      simp [Field.optional, hread, eq_comm]

theorem reads_field?_last_iff {r : Reader α} {key : String} {toJson : α → Json} {o o' : Option α}
    (arrangement : Arrangement)
    (hread : ∀ a, r.optional source (.ofJson (arrangement.apply (toJson a))) = .ok (some a)) :
    (Fields.cons (.optional key r) .nil).Reads source (arrangement.scans (field? key toJson o))
      (Tuple.cons o' Tuple.nil) ↔ o' = o := by
  rw [← List.append_nil (arrangement.scans _),
    reads_field?_iff arrangement (Field.absentFrom_nil _) hread]
  exact and_iff_left reads_nil

/-- An object may leave out a field that may be null, whether or not an array may. -/
theorem reads_nullable_iff {key : String} {r : Reader α} {o : Option α} :
    (Fields.cons (.nullable key r) rest).Reads source written (Tuple.cons o values) ↔
      (Fields.cons (.optional key r) rest).Reads source written (Tuple.cons o values) :=
  Iff.rfl

/-- A map that is left out when it is empty is read as what it was. -/
theorem reads_unlessEmpty_iff {r : Reader (KeyMap α)} {key : String} {value : Json}
    {m m' : KeyMap α} {p : Prop} (arrangement : Arrangement) (hempty : m = .empty → p)
    (hread : r source (.ofJson (arrangement.apply value)) = .ok m' ↔ p ∧ m' = m) :
    (Fields.cons (.withDefault key r .empty) .nil).Reads source
        (arrangement.scans (if m.isEmpty then [] else [(key, value)]))
        (Tuple.cons m' Tuple.nil) ↔ p ∧ m' = m := by
  split
  next h =>
    obtain rfl : m = .empty := KeyMap.ext_entries (List.isEmpty_iff.mp h)
    rw [Arrangement.scans_nil, reads_iff_of_absent (Field.absentFrom_nil _),
      Field.value?_withDefault, Option.some.injEq, eq_comm, and_iff_left reads_nil]
    exact (and_iff_right (hempty rfl)).symm
  next =>
    rw [Arrangement.scans_cons, reads_cons_iff (by simp) (by simp), Field.reader_withDefault,
      hread]
    exact and_iff_left reads_nil

end

end Fields

namespace Reader

variable {source inner : Source} {name : String} {fields : Fields types}
  {values : Fields.Tuple types}

theorem fromFields_eq_ok_iff {parts : List (ScannedKey × Scan)} {tail : Tail} :
    fromFields source fields parts tail = .ok values ↔
      tail = .closed ∧ ∃ written, parts = keyed written ∧ fields.Reads source written values := by
  simp only [fromFields, bind_eq_ok_iff]
  constructor
  · rintro ⟨slots, hread, _, htail, hcomplete⟩
    obtain rfl := Tail.check_eq_ok_iff.mp htail
    obtain ⟨written, rfl⟩ := Fields.exists_keyed_of_readFields hread
    exact ⟨rfl, written, rfl, Fields.exists_readFields_iff.mp ⟨slots, hread, hcomplete⟩⟩
  · rintro ⟨rfl, written, rfl, hreads⟩
    obtain ⟨slots, hread, hcomplete⟩ := Fields.exists_readFields_iff.mpr hreads
    exact ⟨slots, hread, (), rfl, hcomplete⟩

/-- A record is read from an object just when every field is. -/
theorem record_object_eq_ok_iff_reads {written : List (String × Json)}
    (henter : source.enter = .ok inner) :
    record name fields source (.ofJson (.object written)) = .ok values ↔
      fields.Reads inner (Arrangement.asWritten.scans written) values := by
  have hkeyed : scanFields written = keyed (Arrangement.asWritten.scans written) := by
    simp [scanFields_eq_map, keyed, Arrangement.scans]
  rw [Scan.ofJson, hkeyed, record, henter]
  refine fromFields_eq_ok_iff.trans ⟨?_, fun h => ⟨rfl, _, rfl, h⟩⟩
  rintro ⟨-, parts, hparts, h⟩
  rwa [keyed_injective hparts]

/-- The fields of the object may stand in any arrangement. -/
theorem record_apply_object_eq_ok_iff (arrangement : Arrangement) {written : List (String × Json)}
    (hkeys : (written.map Prod.fst).Nodup) (henter : source.enter = .ok inner) :
    record name fields source (.ofJson (arrangement.apply (.object written))) = .ok values ↔
      fields.Reads inner (arrangement.scans written) values := by
  obtain ⟨written', happly, hperm⟩ := arrangement.apply_object written hkeys
  have hscans : (Arrangement.asWritten.scans written').Perm (arrangement.scans written) := by
    simpa [Arrangement.scans, Function.comp_def] using
      hperm.map fun part => (part.1, Scan.ofJson part.2)
  rw [happly, record_object_eq_ok_iff_reads henter]
  exact ⟨fun h => h.perm hscans, fun h => h.perm hscans.symm⟩

end Reader

/-! ### Arrays of fields -/

theorem Fields.readItems_cons {source : Source} {field : Field α} {rest : Fields types}
    {wanted : String} {tail : Tail} {count : Nat} {item : Scan} {items left : List Scan} {a : α}
    {values : Tuple types} (hitem : field.reader source item = .ok a)
    (hitems : rest.readItems source wanted tail (count + 1) items = .ok (values, left)) :
    (Fields.cons field rest).readItems source wanted tail count (item :: items) =
      .ok (Tuple.cons a values, left) := by
  rw [readItems, hitem]
  refine bind_eq_ok_iff.mpr ⟨a, rfl, bind_eq_ok_iff.mpr ⟨(values, left), hitems, rfl⟩⟩

theorem Reader.tuple_array {source inner : Source} {name : String} {fields : Fields types}
    {items : List Scan} {values : Fields.Tuple types} (henter : source.enter = .ok inner)
    (h : fields.readItems inner (name ++ " with " ++ elements fields.count) .closed 0 items =
      .ok (values, [])) : tuple name fields source (.array items .closed) = .ok values := by
  rw [tuple, henter]
  refine bind_eq_ok_iff.mpr ⟨inner, rfl, bind_eq_ok_iff.mpr ⟨(values, []), h, ?_⟩⟩
  exact bind_eq_ok_iff.mpr ⟨(), rfl, rfl⟩

/-! ### What is read -/

/-- A field has a value that its reader has read, or falls back on it. -/
def Field.Yields (field : Field α) (source : Source) (a : α) : Prop :=
  (∃ s, field.reader source s = .ok a) ∨ field.fallback.value? = some a

/-- Every field has a value that its reader has read, or falls back on it. -/
def Fields.Yields (source : Source) : {types : List Type} → Fields types → Tuple types → Prop
  | _, .nil, _ => True
  | _, .cons field rest, (a, values) => field.Yields source a ∧ rest.Yields source values

namespace Fields

variable {source : Source} {fields : Fields types} {values : Tuple types}

theorem Reads.yields {written : List (String × Scan)} (h : fields.Reads source written values) :
    fields.Yields source values := by
  induction fields generalizing written with
  | nil => trivial
  | cons field rest ih =>
      obtain ⟨a, values⟩ := values
      refine ⟨?_, ih h.2⟩
      rcases h.1 with ⟨part, -, hread⟩ | ⟨-, hfallback⟩
      · exact .inl ⟨part.2, hread⟩
      · exact .inr hfallback

theorem yields_of_readItems {wanted : String} {tail : Tail} {count : Nat} {items left : List Scan}
    (h : fields.readItems source wanted tail count items = .ok (values, left)) :
    fields.Yields source values := by
  induction fields generalizing count items left with
  | nil => trivial
  | cons field rest ih =>
      cases items with
      | nil =>
          obtain ⟨-, -, h⟩ := bind_eq_ok_iff.mp h
          split at h
          next a hfallback =>
            obtain ⟨⟨others, left'⟩, hothers, h⟩ := bind_eq_ok_iff.mp h
            cases h
            exact ⟨.inr (by rw [hfallback]; rfl), ih hothers⟩
          next => cases h
      | cons item items =>
          obtain ⟨a, hread, h⟩ := bind_eq_ok_iff.mp h
          obtain ⟨⟨others, left'⟩, hothers, h⟩ := bind_eq_ok_iff.mp h
          cases h
          exact ⟨.inl ⟨item, hread⟩, ih hothers⟩

end Fields

theorem Reader.yields_of_record {source : Source} {name : String} {fields : Fields types}
    {values : Fields.Tuple types} {s : Scan} (h : record name fields source s = .ok values) :
    ∃ inner, source.enter = .ok inner ∧ fields.Yields inner values := by
  cases s with
  | scalar value =>
      obtain ⟨_, -, h⟩ := bind_eq_ok_iff.mp h
      cases h
  | array items tail =>
      obtain ⟨inner, henter, h⟩ := bind_eq_ok_iff.mp h
      obtain ⟨⟨values', left⟩, hitems, h⟩ := bind_eq_ok_iff.mp h
      obtain ⟨_, -, h⟩ := bind_eq_ok_iff.mp h
      cases h
      exact ⟨inner, henter, Fields.yields_of_readItems hitems⟩
  | object parts tail =>
      obtain ⟨inner, henter, h⟩ := bind_eq_ok_iff.mp h
      obtain ⟨-, written, -, hreads⟩ := fromFields_eq_ok_iff.mp h
      exact ⟨inner, henter, hreads.yields⟩
  | broken cause => cases h

end Dataflow.Json

import Dataflow.Proofs.Json.Readers
import Dataflow.Proofs.Json.Records

/-! # Records by name and by place

In an object a field is found under one of its names, in an array it stands at its place. Where no
two fields share a name, each field is found on its own, whatever else the object holds. Every value
of an object can be passed over, so what stands under other keys does not matter.
-/

namespace Dataflow.Json

variable {α : Type} {types : List Type}

/-- The values of an object under some keys, in their order. -/
def valuesUnder (names : List String) (written : List (String × Json)) : List Json :=
  (written.filter (·.1 ∈ names)).map Prod.snd

/-- An object without the fields under some keys. -/
def without (names : List String) (written : List (String × Json)) : List (String × Json) :=
  written.filter (·.1 ∉ names)

@[simp] theorem valuesUnder_nil (names : List String) : valuesUnder names [] = [] :=
  rfl

@[simp] theorem valuesUnder_cons (names : List String) (key : String) (value : Json)
    (written : List (String × Json)) : valuesUnder names ((key, value) :: written) =
      if key ∈ names then value :: valuesUnder names written else valuesUnder names written := by
  by_cases h : key ∈ names <;> simp [valuesUnder, h]

theorem valuesUnder_without {names others : List String} (h : ∀ name ∈ names, name ∉ others)
    (written : List (String × Json)) :
    valuesUnder names (without others written) = valuesUnder names written := by
  have hfilter : (without others written).filter (·.1 ∈ names) =
      written.filter (·.1 ∈ names) := by
    rw [without, List.filter_filter]
    refine List.filter_congr fun field _ => ?_
    simp only [← Bool.decide_and, decide_eq_decide]
    exact and_iff_left_of_imp (h field.1)
  rw [valuesUnder, hfilter, valuesUnder]

theorem valuesUnder_without_self (names : List String) (written : List (String × Json)) :
    valuesUnder names (without names written) = [] := by
  simp [valuesUnder, without]

/-- What need not be there stands under a key, once, or null does, or nothing stands there. -/
def OptionUnder (toJson : α → Json) (key : String) (written : List (String × Json))
    (o : Option α) : Prop :=
  valuesUnder [key] written = [ofOption toJson o] ∨ (valuesUnder [key] written = [] ∧ o = none)

/-- Two fields under the same keys leave no room for one value. -/
theorem eq_of_valuesUnder_eq_singleton {names : List String} {written : List (String × Json)}
    {value : Json} (h : valuesUnder names written = [value]) {field field' : String × Json}
    (hfield : field ∈ written) (hname : field.1 ∈ names) (hfield' : field' ∈ written)
    (hname' : field'.1 ∈ names) : field = field' := by
  obtain ⟨only, honly, -⟩ := List.map_eq_singleton_iff.mp h
  have honly_of {field : String × Json} (hmem : field ∈ written) (hname : field.1 ∈ names) :
      field = only := by
    have hfilter : field ∈ written.filter (·.1 ∈ names) :=
      List.mem_filter.mpr ⟨hmem, decide_eq_true hname⟩
    rwa [honly, List.mem_singleton] at hfilter
  rw [honly_of hfield hname, honly_of hfield' hname']

namespace Field

/-- The keys that name a field. -/
def names (field : Field α) : List String :=
  field.name :: field.aliases

theorem isNamed_eq_decide (field : Field α) (key : String) :
    field.isNamed key = decide (key ∈ field.names) := by
  simp [isNamed, names, Bool.decide_or]

/-- A field is found in an object under one of its names, once, or is left out. -/
def Finds (field : Field α) (source : Source) (written : List (String × Json)) (a : α) : Prop :=
  (∃ value, valuesUnder field.names written = [value] ∧
      field.reader source (.ofJson value) = .ok a) ∨
    (valuesUnder field.names written = [] ∧ field.fallback.value? = some a)

section

variable {source : Source} {written : List (String × Json)} {a : α}

theorem own_scans (field : Field α) (arrangement : Arrangement) :
    field.own (arrangement.scans written) =
      arrangement.scans (written.filter (·.1 ∈ field.names)) := by
  rw [own, Arrangement.scans, List.filter_map]
  exact congrArg _ (List.filter_congr fun part _ => field.isNamed_eq_decide part.1)

theorem others_scans (field : Field α) (arrangement : Arrangement) :
    field.others (arrangement.scans written) =
      arrangement.scans (without field.names written) := by
  rw [others, Arrangement.scans, List.filter_map]
  refine congrArg _ (List.filter_congr fun part _ => ?_)
  simp [isNamed_eq_decide]

theorem reads_scans_iff {field : Field α} :
    field.Reads source (Arrangement.asWritten.scans written) a ↔
      field.Finds source written a := by
  rw [Reads, Finds, own_scans, valuesUnder]
  cases written.filter (·.1 ∈ field.names) with
  | nil => simp
  | cons part parts =>
      obtain ⟨key, value⟩ := part
      cases parts with
      | nil => simp
      | cons next parts => simp [Arrangement.scans]

theorem finds_required_iff {name : String} {r : Reader α} :
    (required name r).Finds source written a ↔
      ∃ value, valuesUnder [name] written = [value] ∧ r source (.ofJson value) = .ok a := by
  simp [Finds, required, names, Fallback.value?]

theorem finds_either_iff {name second : String} {r : Reader α} :
    (either name second r).Finds source written a ↔
      ∃ value, valuesUnder [name, second] written = [value] ∧
        r source (.ofJson value) = .ok a := by
  simp [Finds, either, names, Fallback.value?]

theorem finds_withDefault_iff {name : String} {r : Reader α} {default : α} :
    (withDefault name r default).Finds source written a ↔
      (∃ value, valuesUnder [name] written = [value] ∧ r source (.ofJson value) = .ok a) ∨
        (valuesUnder [name] written = [] ∧ default = a) := by
  simp [Finds, withDefault, names, Fallback.value?]

/-- Where a value is read as what it is written of, so is one that need not be there. -/
theorem finds_optional_iff {name : String} {r : Reader α} {toJson : α → Json} {o : Option α}
    (hread : ∀ value a, r source (.ofJson value) = .ok a ↔ value = toJson a)
    (hnull : ∀ a, toJson a ≠ .null) :
    (optional name r).Finds source written o ↔ OptionUnder toJson name written o := by
  have hdefault : optional name r = withDefault name r.optional none := rfl
  have hoption (value : Json) :
      r.optional source (.ofJson value) = .ok o ↔ value = ofOption toJson o :=
    Reader.optional_eq_ok_iff_ofOption (hread value) hnull
  rw [hdefault, finds_withDefault_iff, OptionUnder]
  simp only [hoption, exists_eq_right, @eq_comm _ none o]

theorem finds_string_iff {key text : String} :
    (required key Reader.string).Finds source written text ↔
      valuesUnder [key] written = [.string text] := by
  simp [finds_required_iff, Reader.string_eq_ok_iff]

theorem finds_optional_string_iff {key : String} {o : Option String} :
    (optional key Reader.string).Finds source written o ↔ OptionUnder .string key written o :=
  finds_optional_iff (fun _ _ => Reader.string_eq_ok_iff) nofun

/-- In an object there is no difference between a field that may be null and one that an array may
leave out as well. -/
theorem finds_nullable_iff {name : String} {r : Reader α} {o : Option α} :
    (nullable name r).Finds source written o ↔ (optional name r).Finds source written o :=
  Iff.rfl

end

end Field

/-- What stands under other keys does not matter. -/
theorem Field.finds_without_iff {field : Field α} {source : Source}
    {written : List (String × Json)} {a : α} {others : List String}
    (h : ∀ name ∈ field.names, name ∉ others) :
    field.Finds source (without others written) a ↔ field.Finds source written a := by
  rw [Finds, Finds, valuesUnder_without h]

namespace Fields

/-- The keys that name any of the fields. -/
def names : {types : List Type} → Fields types → List String
  | _, .nil => []
  | _, .cons field rest => field.names ++ rest.names

/-- Every field is found in an object. -/
def Finds (source : Source) :
    {types : List Type} → Fields types → List (String × Json) → Tuple types → Prop
  | _, .nil, _, _ => True
  | _, .cons field rest, written, (a, values) =>
    field.Finds source written a ∧ rest.Finds source written values

/-- Every field is read at its place in an array, which may end before fields that are not needed
and holds nothing behind the fields. -/
def Takes (source : Source) :
    {types : List Type} → Fields types → List Json → Tuple types → Prop
  | _, .nil, items, _ => items = []
  | _, .cons field rest, [], (a, values) =>
    field.fallback = .always a ∧ rest.Takes source [] values
  | _, .cons field rest, item :: items, (a, values) =>
    field.reader source (.ofJson item) = .ok a ∧ rest.Takes source items values

variable {source : Source} {fields : Fields types} {rest : Fields types} {field : Field α}
  {written : List (String × Json)} {items : List Json} {a : α} {values : Tuple types}

theorem finds_cons_iff : (Fields.cons field rest).Finds source written (Tuple.cons a values) ↔
    field.Finds source written a ∧ rest.Finds source written values :=
  Iff.rfl

theorem finds_nil (written : List (String × Json)) (values : Tuple []) :
    Fields.nil.Finds source written values :=
  trivial

theorem finds_without_iff {others : List String} (h : ∀ name ∈ fields.names, name ∉ others) :
    fields.Finds source (without others written) values ↔ fields.Finds source written values := by
  induction fields with
  | nil => exact Iff.rfl
  | cons field rest ih =>
      obtain ⟨a, values⟩ := values
      obtain ⟨hfield, hrest⟩ := List.forall_mem_append.mp h
      exact and_congr (Field.finds_without_iff hfield) (ih hrest)

/-- Fields that share no name are read just when each is found. -/
theorem reads_scans_iff_finds (h : fields.names.Nodup) :
    fields.Reads source (Arrangement.asWritten.scans written) values ↔
      fields.Finds source written values := by
  induction fields generalizing written with
  | nil =>
      refine iff_of_true (List.forall_mem_map.mpr fun part _ => ?_) trivial
      exact skip_ofJson part.2
  | cons field rest ih =>
      obtain ⟨a, values⟩ := values
      obtain ⟨-, hrest, hdisjoint⟩ := List.nodup_append.mp h
      have hother : ∀ name ∈ rest.names, name ∉ field.names :=
        fun name hname hfield => hdisjoint name hfield name hname rfl
      calc (Fields.cons field rest).Reads source (Arrangement.asWritten.scans written) (a, values)
        _ ↔ field.Finds source written a ∧
            rest.Finds source (without field.names written) values := by
          rw [Reads, Field.reads_scans_iff, Field.others_scans, ih hrest]
        _ ↔ field.Finds source written a ∧ rest.Finds source written values := by
          rw [finds_without_iff hother]

theorem takes_nil_iff {values : Tuple []} : Fields.nil.Takes source items values ↔ items = [] := by
  cases items <;> exact Iff.rfl

/-- A field that an array may not leave out is read from the first item. -/
theorem takes_cons_iff_of_ne (h : ∀ b, field.fallback ≠ .always b) :
    (Fields.cons field rest).Takes source items (Tuple.cons a values) ↔
      ∃ item left, items = item :: left ∧ field.reader source (.ofJson item) = .ok a ∧
        rest.Takes source left values := by
  cases items with
  | nil => simp [Takes, Tuple.cons, h]
  | cons item items => simp [Takes, Tuple.cons]

theorem takes_required_iff {name : String} {r : Reader α} :
    (Fields.cons (.required name r) rest).Takes source items (Tuple.cons a values) ↔
      ∃ item left, items = item :: left ∧ r source (.ofJson item) = .ok a ∧
        rest.Takes source left values :=
  takes_cons_iff_of_ne nofun

theorem takes_either_iff {name second : String} {r : Reader α} :
    (Fields.cons (.either name second r) rest).Takes source items (Tuple.cons a values) ↔
      ∃ item left, items = item :: left ∧ r source (.ofJson item) = .ok a ∧
        rest.Takes source left values :=
  takes_cons_iff_of_ne nofun

theorem takes_nullable_iff {name : String} {r : Reader α} {o : Option α} :
    (Fields.cons (.nullable name r) rest).Takes source items (Tuple.cons o values) ↔
      ∃ item left, items = item :: left ∧ r.optional source (.ofJson item) = .ok o ∧
        rest.Takes source left values :=
  takes_cons_iff_of_ne nofun

/-- A field that is not needed is read from the first item, if there is one. -/
theorem takes_withDefault_iff {name : String} {r : Reader α} {default : α} :
    (Fields.cons (.withDefault name r default) rest).Takes source items (Tuple.cons a values) ↔
      (∃ item left, items = item :: left ∧ r source (.ofJson item) = .ok a ∧
          rest.Takes source left values) ∨
        (items = [] ∧ default = a ∧ rest.Takes source [] values) := by
  cases items with
  | nil => simp [Takes, Tuple.cons, Field.withDefault]
  | cons item items => simp [Takes, Tuple.cons, Field.withDefault]

theorem takes_optional_iff {name : String} {r : Reader α} {o : Option α} :
    (Fields.cons (.optional name r) rest).Takes source items (Tuple.cons o values) ↔
      (∃ item left, items = item :: left ∧ r.optional source (.ofJson item) = .ok o ∧
          rest.Takes source left values) ∨
        (items = [] ∧ none = o ∧ rest.Takes source [] values) :=
  takes_withDefault_iff

/-- The items of an array are all read just when every field is read at its place. -/
theorem readItems_eq_ok_iff_takes {wanted : String} {count : Nat} :
    fields.readItems source wanted .closed count (items.map .ofJson) = .ok (values, []) ↔
      fields.Takes source items values := by
  induction fields generalizing count items with
  | nil =>
      cases items with
      | nil => exact iff_of_true rfl rfl
      | cons item items => exact iff_of_false nofun nofun
  | cons field rest ih =>
      obtain ⟨a, values⟩ := values
      cases items with
      | nil =>
          constructor
          · intro h
            obtain ⟨-, -, h⟩ := bind_eq_ok_iff.mp h
            split at h
            next b hfallback =>
              obtain ⟨⟨others, left⟩, hothers, h⟩ := bind_eq_ok_iff.mp h
              cases h
              exact ⟨hfallback, ih.mp hothers⟩
            next => cases h
          · rintro ⟨hfallback, hrest⟩
            rw [List.map_nil, readItems, hfallback]
            refine bind_eq_ok_iff.mpr ⟨(), rfl, bind_eq_ok_iff.mpr ⟨(values, []), ?_, rfl⟩⟩
            exact ih.mpr hrest
      | cons item items =>
          constructor
          · intro h
            obtain ⟨b, hitem, h⟩ := bind_eq_ok_iff.mp h
            obtain ⟨⟨others, left⟩, hothers, h⟩ := bind_eq_ok_iff.mp h
            cases h
            exact ⟨hitem, ih.mp hothers⟩
          · rintro ⟨hitem, hrest⟩
            exact readItems_cons hitem (ih.mpr hrest)

end Fields

namespace Reader

variable {source inner : Source} {name : String} {fields : Fields types}
  {values : Fields.Tuple types} {value : Json}

theorem endOfItems_eq_ok_iff {asked : Nat} {left : List Scan} {u : Unit} :
    endOfItems source asked left .closed = .ok u ↔ left = [] := by
  cases left with
  | nil => simp [endOfItems, Tail.check]
  | cons item left => cases source <;> simp [endOfItems]

theorem fromItems_eq_ok_iff {items : List Json} :
    fromItems source name fields (items.map .ofJson) .closed = .ok values ↔
      fields.Takes source items values := by
  rw [← Fields.readItems_eq_ok_iff_takes]
  constructor
  · intro h
    obtain ⟨⟨values', left⟩, hitems, h⟩ := bind_eq_ok_iff.mp h
    obtain ⟨_, hend, h⟩ := bind_eq_ok_iff.mp h
    obtain rfl := endOfItems_eq_ok_iff.mp hend
    cases h
    exact hitems
  · intro hitems
    exact bind_eq_ok_iff.mpr ⟨(values, []), hitems, rfl⟩

/-- A record is read from an array by the places of its fields. -/
theorem record_array_eq_ok_iff (henter : source.enter = .ok inner) {items : List Json} :
    record name fields source (.ofJson (.array items)) = .ok values ↔
      fields.Takes inner items values := by
  rw [Scan.ofJson, scanItems_eq_map, record, henter]
  exact fromItems_eq_ok_iff

/-- A record is read from an object by the names of its fields. -/
theorem record_object_eq_ok_iff (hnames : fields.names.Nodup) (henter : source.enter = .ok inner)
    {written : List (String × Json)} :
    record name fields source (.ofJson (.object written)) = .ok values ↔
      fields.Finds inner written values := by
  rw [record_object_eq_ok_iff_reads henter, Fields.reads_scans_iff_finds hnames]

/-- A record is read from nothing else. -/
theorem record_ofJson_eq_ok_iff (hnames : fields.names.Nodup) (henter : source.enter = .ok inner) :
    record name fields source (.ofJson value) = .ok values ↔
      (∃ items, value = .array items ∧ fields.Takes inner items values) ∨
        ∃ written, value = .object written ∧ fields.Finds inner written values := by
  cases value with
  | array items => simpa using record_array_eq_ok_iff henter
  | object written => simpa using record_object_eq_ok_iff hnames henter
  | null => simp [record, Scan.ofJson, wrongType_ne_ok]
  | bool b => simp [record, Scan.ofJson, wrongType_ne_ok]
  | number n => simp [record, Scan.ofJson, wrongType_ne_ok]
  | string text => simp [record, Scan.ofJson, wrongType_ne_ok]

/-- A record may be read from an object only. -/
theorem objectOnly_ofJson_eq_ok_iff (hnames : fields.names.Nodup)
    (henter : source.enter = .ok inner) :
    objectOnly name fields source (.ofJson value) = .ok values ↔
      ∃ written, value = .object written ∧ fields.Finds inner written values := by
  cases value with
  | object written =>
      have hread : objectOnly name fields source (.ofJson (.object written)) = .ok values ↔
          fields.Finds inner written values :=
        @record_object_eq_ok_iff _ _ _ name _ _ hnames henter _
      simpa using hread
  | array items => simp [objectOnly, Scan.ofJson, wrongType_ne_ok]
  | null => simp [objectOnly, Scan.ofJson, wrongType_ne_ok]
  | bool b => simp [objectOnly, Scan.ofJson, wrongType_ne_ok]
  | number n => simp [objectOnly, Scan.ofJson, wrongType_ne_ok]
  | string text => simp [objectOnly, Scan.ofJson, wrongType_ne_ok]

/-- A tuple is read from an array only. -/
theorem tuple_ofJson_eq_ok_iff (henter : source.enter = .ok inner) :
    tuple name fields source (.ofJson value) = .ok values ↔
      ∃ items, value = .array items ∧ fields.Takes inner items values := by
  cases value with
  | array items =>
      have hread : tuple name fields source (.ofJson (.array items)) = .ok values ↔
          fields.Takes inner items values := by
        rw [Scan.ofJson, scanItems_eq_map, tuple, henter]
        exact fromItems_eq_ok_iff
      simpa using hread
  | object written => simp [tuple, Scan.ofJson, wrongType_ne_ok]
  | null => simp [tuple, Scan.ofJson, wrongType_ne_ok]
  | bool b => simp [tuple, Scan.ofJson, wrongType_ne_ok]
  | number n => simp [tuple, Scan.ofJson, wrongType_ne_ok]
  | string text => simp [tuple, Scan.ofJson, wrongType_ne_ok]

/-- Where one form reads whatever any of them reads, and reads it as the same, that form decides. -/
theorem oneOf_eq_ok_iff_of_mem {type : String} {forms : List (Reader α)} {s : Scan} {a : α}
    {r : Reader α} (hmem : r ∈ forms)
    (hforms : ∀ form ∈ forms, ∀ b, form .buffer s = .ok b → r .buffer s = .ok b) :
    oneOf type forms source s = .ok a ↔
      (∃ value, s.toJson source = .ok value) ∧ r .buffer s = .ok a := by
  have hfits (form : Reader α) (b : α) :
      (form .buffer s).toOption = some b ↔ form .buffer s = .ok b := by
    cases form .buffer s <;> simp [Except.toOption]
  have hfound (b : α) (h : forms.findSome? (fun form => (form .buffer s).toOption) = some b) :
      r .buffer s = .ok b := by
    obtain ⟨form, hform, hread⟩ := List.exists_of_findSome?_eq_some h
    exact hforms form hform b ((hfits form b).mp hread)
  rw [oneOf, bind_eq_ok_iff]
  refine exists_and_right.trans (and_congr_right fun _ => ?_)
  split
  next b hfind =>
    rw [hfound b hfind]
    exact Iff.rfl
  next hnone =>
    refine iff_of_false (fun h => by cases h) fun hread => ?_
    have hmissed := List.findSome?_eq_none_iff.mp hnone r hmem
    rw [(hfits r a).mpr hread] at hmissed
    cases hmissed

/-- Of two forms the second one counts where the first one does not fit. -/
theorem oneOf_pair_eq_ok_iff {type : String} {first second : Reader α} {s : Scan} {a : α} :
    oneOf type [first, second] source s = .ok a ↔
      (∃ value, s.toJson source = .ok value) ∧ (first .buffer s = .ok a ∨
        ((∀ b, first .buffer s ≠ .ok b) ∧ second .buffer s = .ok a)) := by
  rw [oneOf, bind_eq_ok_iff]
  refine exists_and_right.trans (and_congr_right fun _ => ?_)
  cases hfirst : first .buffer s with
  | ok b => simp [hfirst, Except.toOption, pure, Except.pure]
  | error e =>
      cases hsecond : second .buffer s with
      | ok b => simp [hfirst, hsecond, Except.toOption, pure, Except.pure]
      | error e' =>
          simp [hfirst, hsecond, Except.toOption, throw, throwThe, MonadExceptOf.throw]

end Reader

end Dataflow.Json

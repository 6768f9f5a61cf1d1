import Dataflow.Proofs.Json.Values

/-! # Reading parts back

The readers that records are made of give back what is written for them. Values under names are read
as an object is, so they are read back just when the object is.
-/

namespace Dataflow

namespace Json

theorem map_of_map_json (m : Values) : (m.map Datum.json).map Datum.of = m :=
  KeyMap.ext_entries (by simp [KeyMap.map, Function.comp_def])

theorem ofMap_injective : Function.Injective ofMap := by
  intro m m' h
  have hmap : m.map Datum.json = m'.map Datum.json := KeyMap.ext_entries (Json.object.inj h)
  rw [← map_of_map_json m, hmap, map_of_map_json]

/-- Keeping the values of a map in memory puts the fields of its object in order. -/
theorem ofMap_map_of (m : KeyMap Json) :
    ofMap (m.map Datum.of) = (Json.object m.entries).sorted := by
  have hmap : (m.map Datum.of).map Datum.json = m.map sorted :=
    KeyMap.ext_entries (List.map_map ..)
  have hsorted := KeyMap.ofList_entries (m.map sorted)
  rw [ofMap, hmap, sorted_object]
  exact congrArg (fun m : KeyMap Json => object m.entries) hsorted.symm

namespace Reader

variable {α β : Type} {source inner : Source}

theorem map_eq_ok_iff {r : Reader α} {f : α → β} {s : Scan} {b : β} :
    r.map f source s = .ok b ↔ ∃ a, r source s = .ok a ∧ f a = b :=
  Dataflow.map_eq_ok_iff

/-- Where results can be changed back, the result tells what was read. -/
theorem map_eq_ok_iff_of_inverse {r : Reader α} {f : α → β} {g : β → α} {s : Scan} {b : β}
    (hfg : ∀ b, f (g b) = b) (hgf : ∀ a, g (f a) = a) :
    r.map f source s = .ok b ↔ r source s = .ok (g b) := by
  rw [map_eq_ok_iff]
  constructor
  · rintro ⟨a, hread, rfl⟩
    rwa [hgf]
  · exact fun hread => ⟨_, hread, hfg b⟩

theorem map_wrongType (f : α → β) (wanted : String) (s : Scan) :
    (wrongType wanted s).map f = wrongType wanted s := by
  rw [wrongType, wrongType]
  cases s.found <;> rfl

theorem wrongType_ne_ok {wanted : String} {s : Scan} {a : α} : wrongType wanted s ≠ .ok a := by
  intro h
  obtain ⟨_, -, h⟩ := bind_eq_ok_iff.mp h
  cases h

/-- Only a text is read as one. -/
theorem stringAs_eq_ok_iff {wanted text : String} {value : Json} :
    stringAs wanted source (.ofJson value) = .ok text ↔ value = .string text := by
  cases value with
  | string text' =>
      have hread : stringAs wanted source (.ofJson (.string text')) = .ok text' := rfl
      rw [hread, Except.ok.injEq, Json.string.injEq]
  | null => exact iff_of_false wrongType_ne_ok nofun
  | bool b => exact iff_of_false wrongType_ne_ok nofun
  | number n => exact iff_of_false wrongType_ne_ok nofun
  | array items => exact iff_of_false wrongType_ne_ok nofun
  | object fields => exact iff_of_false wrongType_ne_ok nofun

theorem string_eq_ok_iff {text : String} {value : Json} :
    Reader.string source (.ofJson value) = .ok text ↔ value = .string text :=
  stringAs_eq_ok_iff

@[simp] theorem string_ofJson (text : String) :
    Reader.string source (.ofJson (.string text)) = .ok text :=
  rfl

theorem natural_ofUInt64 (n : UInt64) (wanted : String) :
    natural UInt64.size wanted source (.ofJson (.ofUInt64 n)) = .ok n.toNat :=
  if_pos n.toNat_lt

theorem natural_eq_ok_iff {bound n : Nat} {wanted : String} {value : Json} :
    natural bound wanted source (.ofJson value) = .ok n ↔
      ∃ m : UInt64, value = .ofUInt64 m ∧ m.toNat < bound ∧ m.toNat = n := by
  cases value with
  | number number =>
      cases number with
      | natural m =>
          have hread : natural bound wanted source (.ofJson (.number (.natural m))) =
              if m.toNat < bound then .ok m.toNat
              else .error (.mismatch (.wrongValue (.integer m.toNat) wanted)) :=
            rfl
          rw [hread]
          split
          next hlt => simp [Json.ofUInt64, hlt]
          next hge => simp [Json.ofUInt64, hge]
      | negative below => exact iff_of_false nofun nofun
      | float f => exact iff_of_false nofun nofun
  | null => exact iff_of_false nofun nofun
  | bool b => exact iff_of_false nofun nofun
  | string text => exact iff_of_false nofun nofun
  | array items => exact iff_of_false nofun nofun
  | object fields => exact iff_of_false nofun nofun

/-- Only an unsigned number of 64 bits is read as one. -/
theorem map_natural_eq_ok_iff {wanted : String} {value : Json} {n : UInt64} :
    (natural UInt64.size wanted).map UInt64.ofNat source (.ofJson value) = .ok n ↔
      value = .ofUInt64 n := by
  rw [map_eq_ok_iff]
  constructor
  · rintro ⟨_, hread, rfl⟩
    obtain ⟨m, rfl, -, rfl⟩ := natural_eq_ok_iff.mp hread
    rw [UInt64.ofNat_toNat]
  · rintro rfl
    exact ⟨n.toNat, natural_ofUInt64 n wanted, UInt64.ofNat_toNat⟩

theorem uint64_eq_ok_iff {value : Json} {n : UInt64} :
    Reader.uint64 source (.ofJson value) = .ok n ↔ value = .ofUInt64 n :=
  map_natural_eq_ok_iff

theorem index_eq_ok_iff {value : Json} {n : UInt64} :
    Reader.index source (.ofJson value) = .ok n ↔ value = .ofUInt64 n :=
  map_natural_eq_ok_iff

/-- Only an unsigned number of 32 bits is read as one. -/
theorem uint32_eq_ok_iff {value : Json} {n : UInt32} :
    Reader.uint32 source (.ofJson value) = .ok n ↔ value = .ofNat n.toNat := by
  have hsize : UInt32.size ≤ UInt64.size := by decide
  rw [Reader.uint32, map_eq_ok_iff]
  constructor
  · rintro ⟨_, hread, rfl⟩
    obtain ⟨m, rfl, hlt, rfl⟩ := natural_eq_ok_iff.mp hread
    rw [UInt32.toNat_ofNat_of_lt' hlt, Json.ofNat, UInt64.ofNat_toNat, Json.ofUInt64]
  · rintro rfl
    have htoNat : (UInt64.ofNat n.toNat).toNat = n.toNat :=
      UInt64.toNat_ofNat_of_lt' (Nat.lt_of_lt_of_le n.toNat_lt hsize)
    refine ⟨n.toNat, natural_eq_ok_iff.mpr ⟨_, rfl, ?_, htoNat⟩, UInt32.ofNat_toNat⟩
    rw [htoNat]
    exact n.toNat_lt

@[simp] theorem uint64_ofUInt64 (n : UInt64) :
    Reader.uint64 source (.ofJson (.ofUInt64 n)) = .ok n :=
  uint64_eq_ok_iff.mpr rfl

@[simp] theorem index_ofUInt64 (n : UInt64) :
    Reader.index source (.ofJson (.ofUInt64 n)) = .ok n :=
  index_eq_ok_iff.mpr rfl

/-- A value that was read ahead is read whole, with its fields in order. -/
theorem json_buffer_eq_ok_iff {value result : Json} :
    Reader.json .buffer (.ofJson value) = .ok result ↔ value.sorted = result := by
  rw [Reader.json, toJson_ofJson_eq_ok_iff, eq_comm]
  exact and_iff_right trivial

/-- What is not null is read as a value. -/
theorem optional_eq_map {r : Reader α} {s : Scan} (h : s ≠ .scalar .null) :
    r.optional source s = (r source s).map some := by
  unfold Reader.optional
  split
  next => exact absurd rfl h
  next => rfl

theorem ofJson_ne_null {value : Json} (h : value ≠ .null) :
    Scan.ofJson value ≠ .scalar .null := by
  cases value <;> simp_all [Scan.ofJson]

/-- Null is read as nothing, and any other value as something. -/
theorem optional_eq_ok_iff {r : Reader α} {value : Json} {o : Option α} :
    r.optional source (.ofJson value) = .ok o ↔
      (value = .null ∧ o = none) ∨
        (value ≠ .null ∧ ∃ a, r source (.ofJson value) = .ok a ∧ o = some a) := by
  by_cases h : value = .null
  · subst h
    simp [Reader.optional, Scan.ofJson, eq_comm]
  · rw [optional_eq_map (ofJson_ne_null h), Dataflow.map_eq_ok_iff]
    simp [h, eq_comm]

/-- Where a value is read as what it is written of, null or a value is. -/
theorem optional_eq_ok_iff_ofOption {r : Reader α} {toJson : α → Json} {value : Json}
    {o : Option α} (hread : ∀ a, r source (.ofJson value) = .ok a ↔ value = toJson a)
    (hnull : ∀ a, toJson a ≠ .null) :
    r.optional source (.ofJson value) = .ok o ↔ value = Json.ofOption toJson o := by
  rw [optional_eq_ok_iff]
  cases o with
  | none => simp [Json.ofOption]
  | some a =>
      simp only [hread, Json.ofOption, Option.some.injEq, reduceCtorEq, and_false, false_or]
      constructor
      · rintro ⟨-, _, rfl, rfl⟩
        rfl
      · rintro rfl
        exact ⟨hnull a, a, rfl, rfl⟩

theorem optional_string_eq_ok_iff {value : Json} {o : Option String} :
    Reader.string.optional source (.ofJson value) = .ok o ↔ value = Json.ofOption .string o :=
  optional_eq_ok_iff_ofOption (fun _ => string_eq_ok_iff) nofun

@[simp] theorem optional_string_ofJson (text : String) :
    Reader.string.optional source (.ofJson (.string text)) = .ok (some text) :=
  rfl

@[simp] theorem optional_uint64_ofUInt64 (n : UInt64) :
    Reader.uint64.optional source (.ofJson (.ofUInt64 n)) = .ok (some n) := by
  rw [optional_eq_map (by simp [Json.ofUInt64, Scan.ofJson]), uint64_ofUInt64]
  rfl

/-- The first form counts if it fits. -/
theorem oneOf_eq_ok_of_first {type : String} {form : Reader α} {forms : List (Reader α)} {s : Scan}
    {value : Json} (hvalue : s.toJson source = .ok value) {a : α} (h : form .buffer s = .ok a) :
    oneOf type (form :: forms) source s = .ok a := by
  simp [oneOf, hvalue, h, Except.toOption, bind, Except.bind, pure, Except.pure]

/-- The items of an array are read one by one. -/
theorem list_array_eq_ok_iff {r : Reader α} {items : List Json} {as : List α}
    (henter : source.enter = .ok inner) :
    r.list source (.ofJson (.array items)) = .ok as ↔
      List.Forall₂ (fun item a => r inner (.ofJson item) = .ok a) items as := by
  have hlist : r.list source (.ofJson (.array items)) =
      items.mapM fun item => r inner (.ofJson item) := by
    rw [Scan.ofJson, Reader.list, henter, scanItems_eq_map]
    change (items.map Scan.ofJson).mapM (r inner) >>= pure = _
    rw [bind_pure, List.mapM_map]
    rfl
  rw [hlist, mapM_eq_ok_iff]

/-- Only an array is read as a list. -/
theorem list_ofJson_eq_ok_iff {r : Reader α} {value : Json} {as : List α}
    (henter : source.enter = .ok inner) :
    r.list source (.ofJson value) = .ok as ↔
      ∃ items, value = .array items ∧
        List.Forall₂ (fun item a => r inner (.ofJson item) = .ok a) items as := by
  cases value with
  | array items => simpa using list_array_eq_ok_iff henter
  | null => simp [Reader.list, Scan.ofJson, wrongType_ne_ok]
  | bool b => simp [Reader.list, Scan.ofJson, wrongType_ne_ok]
  | number n => simp [Reader.list, Scan.ofJson, wrongType_ne_ok]
  | string text => simp [Reader.list, Scan.ofJson, wrongType_ne_ok]
  | object fields => simp [Reader.list, Scan.ofJson, wrongType_ne_ok]

theorem list_string_eq_ok_iff {value : Json} {texts : List String}
    (henter : source.enter = .ok inner) :
    Reader.string.list source (.ofJson value) = .ok texts ↔ value = .ofStrings texts := by
  simp only [list_ofJson_eq_ok_iff henter, string_eq_ok_iff, Json.ofStrings]
  have hitems (items : List Json) :
      List.Forall₂ (fun item text => item = .string text) items texts ↔
        items = texts.map .string := by
    rw [← List.forall₂_map_right_iff (R := Eq), List.forall₂_eq_eq_eq]
  constructor
  · rintro ⟨items, rfl, htexts⟩
    rw [(hitems items).mp htexts]
  · rintro rfl
    exact ⟨_, rfl, (hitems _).mpr rfl⟩

/-- The fields of an object are read one by one, and the last of a key counts. -/
theorem keyMap_object_eq_ok_iff {r : Reader α} {written : List (String × Json)} {m : KeyMap α}
    (henter : source.enter = .ok inner) :
    r.keyMap source (.ofJson (.object written)) = .ok m ↔
      ∃ entries, List.Forall₂ (fun field entry => field.1 = entry.1 ∧
        r inner (.ofJson field.2) = .ok entry.2) written entries ∧ KeyMap.ofList entries = m := by
  have hmap : r.keyMap source (.ofJson (.object written)) =
      (written.mapM fun field => readEntry (r inner) (.ok field.1, .ofJson field.2)) >>=
        fun entries => pure (KeyMap.ofList entries) := by
    rw [Scan.ofJson, Reader.keyMap, henter, scanFields_eq_map]
    change (List.map _ written).mapM (readEntry (r inner)) >>= _ = _
    rw [List.mapM_map]
    rfl
  have hentry (field : String × Json) (entry : String × α) :
      readEntry (r inner) (.ok field.1, .ofJson field.2) = .ok entry ↔
        field.1 = entry.1 ∧ r inner (.ofJson field.2) = .ok entry.2 := by
    rw [readEntry_eq_ok_iff, Except.ok.injEq]
  simp only [hmap, bind_eq_ok_iff, pure_eq_ok_iff, mapM_eq_ok_iff, hentry]

section

variable {r : Reader α} {toJson : α → Json} {as : List α}

/-- An array of what can be read back is read back just when every item is. -/
theorem list_apply_array_eq_ok_iff {p : α → Prop} (arrangement : Arrangement)
    (henter : source.enter = .ok inner)
    (h : ∀ a ∈ as, ∀ b, r inner (.ofJson (arrangement.apply (toJson a))) = .ok b ↔ p a ∧ b = a)
    {bs : List α} :
    r.list source (.ofJson (arrangement.apply (.array (as.map toJson)))) = .ok bs ↔
      (∀ a ∈ as, p a) ∧ bs = as := by
  rw [arrangement.apply_array, List.map_map, list_array_eq_ok_iff henter, List.forall₂_map_left_iff,
    ← mapM_eq_ok_iff]
  exact (mapM_eq_ok_iff_of_forall h).trans (by rw [List.map_id'])

theorem list_apply_array (arrangement : Arrangement) (henter : source.enter = .ok inner)
    (h : ∀ a ∈ as, r inner (.ofJson (arrangement.apply (toJson a))) = .ok a) :
    r.list source (.ofJson (arrangement.apply (.array (as.map toJson)))) = .ok as := by
  refine (list_apply_array_eq_ok_iff (p := fun _ => True) arrangement henter ?_).mpr
    ⟨fun _ _ => trivial, rfl⟩
  intro a ha b
  simp [h a ha, eq_comm]

end

theorem exists_of_mem_list {r : Reader α} {s : Scan} {as : List α} (h : r.list source s = .ok as) :
    ∃ inner, source.enter = .ok inner ∧ ∀ a ∈ as, ∃ item, r inner item = .ok a := by
  unfold Reader.list at h
  split at h
  next items tail =>
    obtain ⟨inner, henter, h⟩ := bind_eq_ok_iff.mp h
    obtain ⟨as', hitems, h⟩ := bind_eq_ok_iff.mp h
    obtain ⟨_, -, heq⟩ := bind_eq_ok_iff.mp h
    cases heq
    refine ⟨inner, henter, fun a ha => ?_⟩
    obtain ⟨item, -, hread⟩ := exists_of_mem_mapM hitems ha
    exact ⟨item, hread⟩
  next =>
    obtain ⟨_, -, h⟩ := bind_eq_ok_iff.mp h
    cases h

theorem eq_ok_of_readText {r : Reader α} {text : String} {a : α} (h : r.readText text = .ok a) :
    ∃ s, r .document s = .ok a := by
  unfold Reader.readText at h
  generalize scanText text = scanned at h
  obtain ⟨s, trailing⟩ := scanned
  obtain ⟨a', hread, h⟩ := bind_eq_ok_iff.mp h
  cases trailing with
  | true => cases h
  | false =>
      cases h
      exact ⟨s, hread⟩

/-- Values under names are read as the object of them. -/
theorem keyMap_json_eq_ok_iff {s : Scan} {m : KeyMap Json} :
    Reader.keyMap Reader.json source s = .ok m ↔
      (∃ fields tail, s = .object fields tail) ∧ s.toJson source = .ok (.object m.entries) := by
  cases s with
  | scalar value =>
      simp [Reader.keyMap, wrongType, bind_eq_ok_iff]
  | array items tail => simp [Reader.keyMap, wrongType, bind_eq_ok_iff]
  | broken cause => simp [Reader.keyMap, wrongType, bind_eq_ok_iff]
  | object fields tail =>
      have hentries (entries : List (String × Json)) : KeyMap.ofList entries = m ↔
          Json.object (KeyMap.ofList entries).entries = .object m.entries :=
        ⟨fun h => h ▸ rfl, fun h => KeyMap.ext_entries (Json.object.inj h)⟩
      simp only [Reader.keyMap, Scan.toJson, fieldsToJson_eq_mapM, bind_eq_ok_iff, pure_eq_ok_iff,
        hentries]
      exact (and_iff_right ⟨_, _, rfl⟩).symm

/-! ### Values in memory -/

/-- A value in memory is read as the value that it is. -/
theorem datum_eq_ok_iff {s : Scan} {d : Datum} :
    Reader.datum source s = .ok d ↔ s.toJson source = .ok d.json := by
  rw [Reader.datum, map_eq_ok_iff]
  constructor
  · rintro ⟨value, hread, rfl⟩
    have hordered : value.sorted = value := (ordered_and_admits_of_toJson hread).1
    exact hread.trans (congrArg Except.ok hordered.symm)
  · exact fun hread => ⟨d.json, hread, d.of_json⟩

theorem readEntry_map {read : Scan → Except ReadError α} {f : α → β}
    (field : ScannedKey × Scan) : readEntry (fun s => (read s).map f) field =
      (readEntry read field).map fun entry => (entry.1, f entry.2) := by
  obtain ⟨key, s⟩ := field
  rw [readEntry, readEntry]
  cases key with
  | error cause => rfl
  | ok key => cases hread : read s <;> rfl

/-- Values that are changed one by one under their names are the values of a changed map. -/
theorem keyMap_map {r : Reader α} {f : α → β} {s : Scan} :
    Reader.keyMap (r.map f) source s = (Reader.keyMap r source s).map (KeyMap.map f) := by
  cases s with
  | scalar value => exact (map_wrongType ..).symm
  | array items tail => exact (map_wrongType ..).symm
  | broken cause => exact (map_wrongType ..).symm
  | object fields tail =>
      have hentries (inner : Source) : fields.mapM (readEntry ((r.map f) inner)) =
          (fields.mapM (readEntry (r inner))).map (List.map fun entry => (entry.1, f entry.2)) := by
        rw [← mapM_map_result]
        exact congrArg (List.mapM · fields) (funext readEntry_map)
      change (source.enter >>= fun inner => fields.mapM (readEntry ((r.map f) inner)) >>= _) =
        (source.enter >>= fun inner => fields.mapM (readEntry (r inner)) >>= _).map _
      cases source.enter with
      | error e => rfl
      | ok inner =>
          change (fields.mapM (readEntry ((r.map f) inner)) >>= _) =
            (fields.mapM (readEntry (r inner)) >>= _).map _
          rw [hentries]
          cases fields.mapM (readEntry (r inner)) with
          | error e => rfl
          | ok entries =>
              cases tail with
              | closed => exact congrArg Except.ok (KeyMap.map_ofList ..).symm
              | broken cause => rfl

/-- Values under names are read as the object of them. -/
theorem keyMap_datum_eq_ok_iff {s : Scan} {m : Values} :
    Reader.keyMap Reader.datum source s = .ok m ↔
      (∃ fields tail, s = .object fields tail) ∧ s.toJson source = .ok (.ofMap m) := by
  rw [Reader.datum, keyMap_map, Dataflow.map_eq_ok_iff]
  constructor
  · rintro ⟨m, hread, rfl⟩
    obtain ⟨hobject, hjson⟩ := keyMap_json_eq_ok_iff.mp hread
    have hordered : (Json.object m.entries).sorted = .object m.entries :=
      (ordered_and_admits_of_toJson hjson).1
    rw [ofMap_map_of, hordered]
    exact ⟨hobject, hjson⟩
  · rintro ⟨hobject, hjson⟩
    exact ⟨m.map Datum.json, keyMap_json_eq_ok_iff.mpr ⟨hobject, hjson⟩, map_of_map_json m⟩

/-- What is read under names nests no deeper than its source allows. -/
theorem admits_of_keyMap_datum {s : Scan} {m : Values}
    (h : Reader.keyMap Reader.datum source s = .ok m) : source.Admits (Json.ofMap m).depth :=
  (ordered_and_admits_of_toJson (keyMap_datum_eq_ok_iff.mp h).2).2

/-- Values are read back just when their source allows their depth. -/
theorem keyMap_datum_ofMap_eq_ok_iff {m m' : Values} :
    Reader.keyMap Reader.datum source (.ofJson (.ofMap m)) = .ok m' ↔
      source.Admits (Json.ofMap m).depth ∧ m' = m := by
  rw [keyMap_datum_eq_ok_iff, toJson_ofJson_eq_ok_iff, ordered_ofMap m, ofMap_injective.eq_iff]
  exact and_iff_right ⟨_, _, rfl⟩

end Reader

end Json

end Dataflow

import Dataflow.Json.Datum
import Mathlib.Data.List.Induction
import Mathlib.Data.List.Nodup
import Mathlib.Data.List.Perm.Basic

/-! # The order of fields

A value has the fields of its objects in some order, a value in memory has them in ascending order.
Putting them in order permutes the fields of every object that has no key twice, and changes nothing
where they are in order already.
-/

namespace Dataflow

namespace KeyMap

variable {α : Type}

theorem nodup_keys (m : KeyMap α) : (m.entries.map Prod.fst).Nodup :=
  List.pairwise_map.mpr (m.ascending.imp fun hlt => String.ne_of_lt hlt)

theorem setEntry_perm {key : String} {value : α} {entries : List (String × α)}
    (h : key ∉ entries.map Prod.fst) :
    (setEntry key value entries).Perm ((key, value) :: entries) := by
  induction entries with
  | nil => exact .refl _
  | cons head rest ih =>
      simp only [List.map_cons, List.mem_cons, not_or] at h
      rw [setEntry, if_neg h.1]
      split
      · exact .refl _
      · exact ((ih h.2).cons head).trans (.swap _ _ _)

theorem ofList_concat (entries : List (String × α)) (entry : String × α) :
    ofList (entries ++ [entry]) = (ofList entries).insert entry.1 entry.2 := by
  simp [ofList]

theorem map_insert {β : Type} (f : α → β) (m : KeyMap α) (key : String) (value : α) :
    (m.insert key value).map f = (m.map f).insert key (f value) := by
  have hentries (entries : List (String × α)) :
      (setEntry key value entries).map (fun entry => (entry.1, f entry.2)) =
        setEntry key (f value) (entries.map fun entry => (entry.1, f entry.2)) := by
    induction entries with
    | nil => rfl
    | cons head rest ih =>
        simp only [setEntry, List.map_cons]
        split
        · rfl
        · split
          · rfl
          · rw [List.map_cons, ih]
  exact ext_entries (hentries m.entries)

theorem map_ofList {β : Type} (f : α → β) (entries : List (String × α)) :
    (ofList entries).map f = ofList (entries.map fun entry => (entry.1, f entry.2)) := by
  induction entries using List.reverseRecOn with
  | nil => rfl
  | append_singleton entries entry ih =>
      rw [ofList_concat, map_insert, ih, List.map_append, List.map_singleton, ofList_concat]

/-- Entries that have no key twice are put in order. -/
theorem ofList_perm {entries : List (String × α)} (h : (entries.map Prod.fst).Nodup) :
    (ofList entries).entries.Perm entries := by
  induction entries using List.reverseRecOn with
  | nil => exact .refl _
  | append_singleton entries last ih =>
      rw [List.map_append, List.nodup_append] at h
      obtain ⟨hentries, -, hlast⟩ := h
      have hnew : last.1 ∉ (ofList entries).entries.map Prod.fst := by
        intro hmem
        obtain ⟨entry, hentry, heq⟩ := List.mem_map.mp hmem
        exact hlast _ (List.mem_map_of_mem (mem_of_mem_ofList hentry)) _ (by simp) heq
      rw [ofList_concat]
      calc (setEntry last.1 last.2 (ofList entries).entries).Perm _ := setEntry_perm hnew
        _ |>.Perm (last :: entries) := (ih hentries).cons last
        _ |>.Perm (entries ++ [last]) := (List.perm_append_singleton last entries).symm

/-- Two maps of the same entries are the same. -/
theorem ext_of_perm {m m' : KeyMap α} (h : m.entries.Perm m'.entries) : m = m' := by
  refine ext_entries (h.eq_of_pairwise ?_ m.ascending m'.ascending)
  intro a b _ _ hab hba
  exact absurd (String.lt_trans hab hba) (String.lt_irrefl _)

theorem get?_eq_some_iff {m : KeyMap α} {key : String} {value : α} :
    m.get? key = some value ↔ (key, value) ∈ m.entries := by
  rw [get?, Option.map_eq_some_iff]
  constructor
  · rintro ⟨entry, hfind, rfl⟩
    obtain rfl : entry.1 = key := by simpa using List.find?_some hfind
    exact List.mem_of_find?_eq_some hfind
  · intro hmem
    have hsome : (m.entries.find? (·.1 = key)).isSome := by
      simpa using ⟨value, hmem⟩
    obtain ⟨entry, hfind⟩ := Option.isSome_iff_exists.mp hsome
    have hkey : entry.1 = key := by simpa using List.find?_some hfind
    have hentry := List.inj_on_of_nodup_map m.nodup_keys (List.mem_of_find?_eq_some hfind) hmem hkey
    exact ⟨entry, hfind, congrArg Prod.snd hentry⟩

/-- Two maps with the same look-ups are the same. -/
theorem ext_get? {m m' : KeyMap α} (h : ∀ key, m.get? key = m'.get? key) : m = m' := by
  refine ext_of_perm ((List.perm_ext_iff_of_nodup (.of_map _ m.nodup_keys)
    (.of_map _ m'.nodup_keys)).mpr fun entry => ?_)
  rw [← get?_eq_some_iff, ← get?_eq_some_iff, h]

/-- Of several values under one key the last one counts. -/
theorem get?_ofList (entries : List (String × α)) (key : String) :
    (ofList entries).get? key = (entries.reverse.find? (·.1 = key)).map (·.2) := by
  induction entries using List.reverseRecOn with
  | nil => rfl
  | append_singleton entries entry ih =>
      rw [ofList_concat, get?_insert, List.reverse_concat, ih]
      by_cases hkey : key = entry.1
      · simp [hkey]
      · simp [hkey, Ne.symm hkey]

end KeyMap

namespace Json

/-- A way of arranging the fields of objects, which leaves values alone that are in order. -/
structure Arrangement where
  apply : Json → Json
  apply_of_ordered : ∀ value : Json, value.Ordered → apply value = value
  apply_array : ∀ items, apply (.array items) = .array (items.map apply)
  apply_object : ∀ fields : List (String × Json), (fields.map Prod.fst).Nodup →
    ∃ fields', apply (.object fields) = .object fields' ∧
      fields'.Perm (fields.map fun field => (field.1, apply field.2))

namespace Arrangement

/-- Fields stay in the order in which they are written. -/
def asWritten : Arrangement where
  apply := id
  apply_of_ordered _ _ := rfl
  apply_array items := by simp
  apply_object fields _ := ⟨fields, rfl, by simp⟩

@[simp] theorem asWritten_apply (value : Json) : asWritten.apply value = value :=
  rfl

/-- Fields are put in ascending order. -/
def ascending : Arrangement where
  apply := sorted
  apply_of_ordered _ h := h
  apply_array := sorted_array
  apply_object fields h :=
    ⟨_, sorted_object fields, KeyMap.ofList_perm (by simpa [Function.comp_def] using h)⟩

variable (a : Arrangement)

/-- Values in memory are in order as they are. -/
@[simp] theorem apply_ofMap (m : Values) : a.apply (.ofMap m) = .ofMap m :=
  a.apply_of_ordered _ (ordered_ofMap m)

@[simp] theorem apply_null : a.apply .null = .null :=
  a.apply_of_ordered _ rfl

@[simp] theorem apply_number (value : Number) : a.apply (.number value) = .number value :=
  a.apply_of_ordered _ rfl

@[simp] theorem apply_ofUInt64 (n : UInt64) : a.apply (.ofUInt64 n) = .ofUInt64 n :=
  a.apply_number _

@[simp] theorem apply_string (value : String) : a.apply (.string value) = .string value :=
  a.apply_of_ordered _ rfl

end Arrangement

end Json

end Dataflow

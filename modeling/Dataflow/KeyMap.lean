/-! # Maps from texts, in ascending order of their keys

A map is its list of entries, each key once, ordered by code points. Two maps with the same
look-ups are the same list, so the order in which entries were inserted cannot be seen.
-/

namespace Dataflow

/-- A finite map from texts. -/
structure KeyMap (α : Type) where
  entries : List (String × α)
  ascending : entries.Pairwise fun a b => a.1 < b.1

namespace KeyMap

variable {α β : Type}

/-- The entries with `key` set to `value`, in their order. -/
def setEntry (key : String) (value : α) : List (String × α) → List (String × α)
  | [] => [(key, value)]
  | entry :: rest =>
    if key < entry.1 then (key, value) :: entry :: rest
    else if key = entry.1 then (key, value) :: rest
    else entry :: setEntry key value rest

theorem mem_setEntry {key : String} {value : α} {entry : String × α}
    {entries : List (String × α)} (h : entry ∈ setEntry key value entries) :
    entry = (key, value) ∨ entry ∈ entries := by
  induction entries with
  | nil => simpa [setEntry] using h
  | cons head rest ih =>
      simp only [setEntry] at h
      split at h
      · simpa using h
      · split at h
        · rcases List.mem_cons.mp h with h | h
          · exact .inl h
          · exact .inr (List.mem_cons_of_mem _ h)
        · rcases List.mem_cons.mp h with h | h
          · exact .inr (h ▸ List.mem_cons_self)
          · exact (ih h).imp_right (List.mem_cons_of_mem _)

theorem setEntry_ascending {key : String} {value : α} {entries : List (String × α)}
    (h : entries.Pairwise fun a b => a.1 < b.1) :
    (setEntry key value entries).Pairwise fun a b => a.1 < b.1 := by
  induction entries with
  | nil => simp [setEntry]
  | cons head rest ih =>
      obtain ⟨hhead, hrest⟩ := List.pairwise_cons.mp h
      simp only [setEntry]
      split
      next hlt =>
        refine List.pairwise_cons.mpr ⟨fun entry hentry => ?_, h⟩
        rcases List.mem_cons.mp hentry with rfl | hentry
        · exact hlt
        · exact String.lt_trans hlt (hhead entry hentry)
      next hnot =>
        split
        next heq =>
          exact List.pairwise_cons.mpr ⟨fun entry hentry => heq ▸ hhead entry hentry, hrest⟩
        next hne =>
          refine List.pairwise_cons.mpr ⟨fun entry hentry => ?_, ih hrest⟩
          rcases mem_setEntry hentry with rfl | hentry
          · have hle : head.1 ≤ key := String.not_lt.mp hnot
            exact Classical.byContradiction fun h =>
              hne (String.le_antisymm (String.not_lt.mp h) hle)
          · exact hhead entry hentry

/-- The map without entries. -/
def empty : KeyMap α := ⟨[], .nil⟩

/-- The map with `key` set to `value`. -/
def insert (m : KeyMap α) (key : String) (value : α) : KeyMap α :=
  ⟨setEntry key value m.entries, setEntry_ascending m.ascending⟩

/-- The value under a key. -/
def get? (m : KeyMap α) (key : String) : Option α :=
  (m.entries.find? (·.1 = key)).map (·.2)

/-- Whether a key has a value. -/
def contains (m : KeyMap α) (key : String) : Bool :=
  (m.get? key).isSome

/-- The keys in ascending order. -/
def keys (m : KeyMap α) : List String :=
  m.entries.map (·.1)

/-- The values in ascending order of their keys. -/
def values (m : KeyMap α) : List α :=
  m.entries.map (·.2)

/-- Whether the map has no entry. -/
def isEmpty (m : KeyMap α) : Bool :=
  m.entries.isEmpty

/-- Setting a key changes the value under that key only. -/
theorem get?_insert (m : KeyMap α) (key other : String) (value : α) :
    (m.insert key value).get? other = if other = key then some value else m.get? other := by
  simp only [get?, insert]
  induction m.entries with
  | nil => by_cases h : other = key <;> simp [setEntry, h, eq_comm]
  | cons head rest ih =>
      simp only [setEntry]
      split
      · by_cases h : other = key <;> simp [h, eq_comm]
      · split
        next heq => by_cases h : other = key <;> simp [← heq, h, eq_comm]
        next hne =>
          by_cases h : head.1 = other
          · have hother : other ≠ key := fun heq => hne (heq.symm.trans h.symm)
            simp [h, hother]
          · simpa [h] using ih

theorem get?_insert_self (m : KeyMap α) (key : String) (value : α) :
    (m.insert key value).get? key = some value := by
  rw [get?_insert, if_pos rfl]

theorem get?_insert_of_ne (m : KeyMap α) {key other : String} (h : other ≠ key) (value : α) :
    (m.insert key value).get? other = m.get? other := by
  rw [get?_insert, if_neg h]

theorem mem_keys_iff {m : KeyMap α} {key : String} : key ∈ m.keys ↔ m.contains key = true := by
  simp [keys, contains, get?]

/-- The map of a list of entries, in which a later entry replaces an earlier one of the same key. -/
def ofList (entries : List (String × α)) : KeyMap α :=
  entries.foldl (fun m entry => m.insert entry.1 entry.2) empty

theorem ext_entries {m m' : KeyMap α} (h : m.entries = m'.entries) : m = m' := by
  cases m
  cases m'
  cases h
  rfl

theorem mem_foldl_insert {m : KeyMap α} {entries : List (String × α)} {entry : String × α}
    (h : entry ∈ (entries.foldl (fun m entry => m.insert entry.1 entry.2) m).entries) :
    entry ∈ m.entries ∨ entry ∈ entries := by
  induction entries generalizing m with
  | nil => exact .inl h
  | cons head rest ih =>
      rcases ih h with h | h
      · rcases mem_setEntry h with rfl | h
        · exact .inr List.mem_cons_self
        · exact .inl h
      · exact .inr (List.mem_cons_of_mem _ h)

theorem mem_of_mem_ofList {entries : List (String × α)} {entry : String × α}
    (h : entry ∈ (ofList entries).entries) : entry ∈ entries :=
  (mem_foldl_insert h).resolve_left List.not_mem_nil

/-- A key above all others comes last. -/
theorem setEntry_eq_append {key : String} {value : α} {entries : List (String × α)}
    (h : ∀ entry ∈ entries, entry.1 < key) :
    setEntry key value entries = entries ++ [(key, value)] := by
  induction entries with
  | nil => rfl
  | cons head rest ih =>
      obtain ⟨hhead, hrest⟩ := List.forall_mem_cons.mp h
      rw [setEntry, if_neg (String.lt_asymm hhead), if_neg (String.ne_of_lt hhead).symm, ih hrest,
        List.cons_append]

theorem foldl_insert_entries {m : KeyMap α} {entries : List (String × α)}
    (h : (m.entries ++ entries).Pairwise fun a b => a.1 < b.1) :
    (entries.foldl (fun m entry => m.insert entry.1 entry.2) m).entries = m.entries ++ entries := by
  induction entries generalizing m with
  | nil => rw [List.append_nil]; rfl
  | cons head rest ih =>
      have hlast : (m.insert head.1 head.2).entries = m.entries ++ [head] :=
        setEntry_eq_append fun entry hentry =>
          (List.pairwise_append.mp h).2.2 entry hentry head List.mem_cons_self
      have happend : (m.insert head.1 head.2).entries ++ rest = m.entries ++ head :: rest := by
        rw [hlast, List.append_assoc, List.singleton_append]
      rw [List.foldl_cons, ih (happend ▸ h), happend]

/-- A map is made of its entries. -/
@[simp] theorem ofList_entries (m : KeyMap α) : ofList m.entries = m :=
  ext_entries (foldl_insert_entries m.ascending)

/-- The map with a function applied to every value. -/
def map (f : α → β) (m : KeyMap α) : KeyMap β :=
  ⟨m.entries.map fun entry => (entry.1, f entry.2), by
    rw [List.pairwise_map]
    exact m.ascending⟩

instance [BEq α] : BEq (KeyMap α) := ⟨fun a b => a.entries == b.entries⟩

instance : Inhabited (KeyMap α) := ⟨empty⟩

end KeyMap

end Dataflow

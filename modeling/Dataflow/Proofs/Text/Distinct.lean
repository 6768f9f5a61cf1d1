import Dataflow.Text.Distinct
import Mathlib.Data.Finset.Card
import Mathlib.Data.Finset.Range
import Std.Data.String.ToNat

/-! # Distinct names and their numbers

A name that is taken is looked for with a number. Finitely many names are taken and different
numbers make different names, so the search ends. The names that come of it are as many as there
were, differ from each other, and are the names themselves where nothing has to be told apart.
-/

namespace Dataflow.Text

variable {taken : List String} {name : String}

theorem numbered_injective (name : String) : Function.Injective (numbered name) := by
  intro m n h
  have hdigits : toString m = toString n := by
    simpa [numbered, String.append_assoc] using h
  exact Nat.repr_inj.mp hdigits

/-- Of one number more than there are names taken, one makes a name that is free. -/
theorem exists_numbered_notMem (taken : List String) (name : String) :
    ∃ n, 2 ≤ n ∧ n < 2 + (taken.length + 1) ∧ numbered name n ∉ taken := by
  -- Otherwise all these names are taken, and they are one more than the taken ones.
  by_contra hall
  push Not at hall
  have hsubset : (Finset.range (taken.length + 1)).image (fun k => numbered name (2 + k)) ⊆
      taken.toFinset := by
    intro candidate hcandidate
    obtain ⟨k, hk, rfl⟩ := Finset.mem_image.mp hcandidate
    have hk := Finset.mem_range.mp hk
    exact List.mem_toFinset.mpr (hall (2 + k) (by omega) (by omega))
  have hinjective : Function.Injective fun k => numbered name (2 + k) := fun i j h =>
    Nat.add_left_cancel (numbered_injective name h)
  have hcard := (Finset.card_le_card hsubset).trans taken.toFinset_card_le
  rw [Finset.card_image_of_injective _ hinjective, Finset.card_range] at hcard
  omega

/-- What becomes of a name beside those that are taken: it stays if it is free, else it gets the
least number from two on with which it is. -/
inductive Freshened (taken : List String) (name : String) : String → Prop where
  | kept (hfree : name ∉ taken) : Freshened taken name name
  | counted (n : Nat) (htaken : name ∈ taken) (htwo : 2 ≤ n) (hfree : numbered name n ∉ taken)
      (hleast : ∀ k, 2 ≤ k → k < n → numbered name k ∈ taken) :
      Freshened taken name (numbered name n)

theorem Freshened.notMem {result : String} (h : Freshened taken name result) : result ∉ taken := by
  cases h with
  | kept hfree => exact hfree
  | counted n _ _ hfree _ => exact hfree

/-- A name that is free stays. -/
theorem fresh_of_notMem (h : name ∉ taken) : fresh taken name = name :=
  if_neg (by simpa using h)

/-- The search among finitely many numbers finds the least of all numbers. -/
theorem freshened_fresh (taken : List String) (name : String) :
    Freshened taken name (fresh taken name) := by
  by_cases hmem : name ∈ taken
  · obtain ⟨m, htwo, hbound, hfree⟩ := exists_numbered_notMem taken name
    have hfound : ((List.range' 2 (taken.length + 1)).find?
        ((!taken.contains ·) ∘ numbered name)).isSome := by
      rw [List.find?_isSome]
      exact ⟨m, List.mem_range'_1.mpr ⟨htwo, hbound⟩, by simpa using hfree⟩
    obtain ⟨n, hn⟩ := Option.isSome_iff_exists.mp hfound
    have hfresh : fresh taken name = numbered name n := by
      rw [fresh, if_pos (by simpa using hmem), List.find?_map, hn]
      rfl
    obtain ⟨hnotMem, hrange, hleast⟩ := List.find?_range'_eq_some.mp hn
    rw [hfresh]
    refine .counted n hmem (List.mem_range'_1.mp hrange).1 (by simpa using hnotMem) ?_
    exact fun k hk hkn => by simpa using hleast k hk hkn
  · rw [fresh_of_notMem hmem]
    exact .kept hmem

/-! ### Names one after the other -/

@[simp] theorem length_distinctFrom (taken names : List String) :
    (distinctFrom taken names).length = names.length := by
  induction names generalizing taken with
  | nil => rfl
  | cons name names ih => simp [distinctFrom, ih]

/-- What comes later is not among those that were taken before. -/
theorem notMem_of_mem_distinctFrom {names : List String} {result : String}
    (h : result ∈ distinctFrom taken names) : result ∉ taken := by
  induction names generalizing taken with
  | nil => cases h
  | cons name names ih =>
      rcases List.mem_cons.mp h with rfl | h
      · exact (freshened_fresh taken name).notMem
      · exact fun hmem => ih h (List.mem_cons_of_mem _ hmem)

theorem nodup_distinctFrom (taken names : List String) : (distinctFrom taken names).Nodup := by
  induction names generalizing taken with
  | nil => exact List.nodup_nil
  | cons name names ih =>
      refine List.nodup_cons.mpr ⟨fun hmem => ?_, ih _⟩
      exact notMem_of_mem_distinctFrom hmem List.mem_cons_self

/-- Names that are free and differ from each other stay. -/
theorem distinctFrom_eq_self {names : List String} (hnodup : names.Nodup)
    (hfree : ∀ name ∈ names, name ∉ taken) : distinctFrom taken names = names := by
  induction names generalizing taken with
  | nil => rfl
  | cons name names ih =>
      obtain ⟨hnot, hnodup⟩ := List.nodup_cons.mp hnodup
      have hname := fresh_of_notMem (hfree name List.mem_cons_self)
      have hrest : distinctFrom (name :: taken) names = names := by
        refine ih hnodup fun other hother hmem => ?_
        rcases List.mem_cons.mp hmem with rfl | hmem
        · exact hnot hother
        · exact hfree other (List.mem_cons_of_mem _ hother) hmem
      rw [distinctFrom, hname, hrest]

theorem Freshened.congr {other : List String} {result : String}
    (h : Freshened taken name result) (hmem : ∀ name, name ∈ taken ↔ name ∈ other) :
    Freshened other name result := by
  cases h with
  | kept hfree => exact .kept (mt (hmem _).mpr hfree)
  | counted n htaken htwo hfree hleast =>
      exact .counted n ((hmem _).mp htaken) htwo (mt (hmem _).mpr hfree)
        fun k hk hkn => (hmem _).mp (hleast k hk hkn)

/-- The names that a name has to differ from are those that were taken before and those that were
made of the names in front of it. -/
theorem freshened_of_getElem? {names : List String} {i : Nat} {result : String}
    (hname : names[i]? = some name) (hresult : (distinctFrom taken names)[i]? = some result) :
    Freshened (taken ++ (distinctFrom taken names).take i) name result := by
  induction names generalizing taken i with
  | nil => cases hname
  | cons first names ih =>
      cases i with
      | zero =>
          cases hname
          cases hresult
          simpa using freshened_fresh taken name
      | succ i =>
          -- The first result is taken now, and it stands in front of all others.
          refine (ih hname hresult).congr fun other => ?_
          simp [distinctFrom, or_left_comm]

/-! ### All names together -/

/-- How names are told apart. -/
structure ToldApart (names results : List String) : Prop where
  length_eq : results.length = names.length
  nodup : results.Nodup
  /-- Only the results in front of a name count for it. -/
  freshened : ∀ (i : Nat) (name result : String), names[i]? = some name →
    results[i]? = some result → Freshened (results.take i) name result
  unchanged : names.Nodup → results = names

theorem toldApart_distinct (names : List String) : ToldApart names (distinct names) where
  length_eq := length_distinctFrom [] names
  nodup := nodup_distinctFrom [] names
  freshened := fun _ _ _ hname hresult => by
    simpa [distinct] using freshened_of_getElem? hname hresult
  unchanged := fun hnodup => distinctFrom_eq_self hnodup (by simp)

example : distinct ["x", "x", "x_2", "y"] = ["x", "x_2", "x_2_2", "y"] := by decide +kernel

end Dataflow.Text

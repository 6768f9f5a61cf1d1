import Dataflow.Graph.Layering
import Dataflow.Proofs.Reachability
import Mathlib.Data.List.Sort

/-! # What peeling keeps true

After every round the degree of a place is the number of its edges from places that have not been
taken, and the next layer is what has no such edges. So a place is taken in the round whose number
is the length of the longest way to it, and what is never taken lies behind a cycle.
-/

namespace Dataflow

open Relation

variable {edges : List Edge} {count : Nat} {done layer : List Nat} {degrees : Degrees}

/-- An edge leads from one place to another. -/
def Precedes (edges : List Edge) (source target : Nat) : Prop :=
  (source, target) ∈ edges

/-- The number of edges into a place from places that are not done. -/
def openDegree (edges : List Edge) (done : List Nat) (place : Nat) : Nat :=
  edges.countP fun edge => decide (edge.2 = place ∧ edge.1 ∉ done)

theorem openDegree_pos {place : Nat} :
    0 < openDegree edges done place ↔ ∃ source, Precedes edges source place ∧ source ∉ done := by
  simp only [openDegree, List.countP_pos_iff, decide_eq_true_eq, Prod.exists]
  constructor
  · rintro ⟨source, _, hedge, rfl, hsource⟩
    exact ⟨source, hedge, hsource⟩
  · rintro ⟨source, hedge, hsource⟩
    exact ⟨source, place, hedge, rfl, hsource⟩

/-- The edges that leave a place are no longer open once it is done. -/
theorem openDegree_concat {source : Nat} (hsource : source ∉ done) (place : Nat) :
    openDegree edges (done ++ [source]) place + (successors edges source).count place =
      openDegree edges done place := by
  simp only [openDegree, successors]
  induction edges with
  | nil => rfl
  | cons edge edges ih =>
      simp only [List.countP_cons, List.filter_cons]
      by_cases hs : edge.1 = source <;> by_cases ht : edge.2 = place <;>
        simp [hs, ht, hsource] at ih ⊢ <;> omega

theorem openDegree_append (hlayer : layer.Nodup) (hdone : ∀ place ∈ layer, place ∉ done)
    (place : Nat) :
    openDegree edges (done ++ layer) place + (layer.flatMap (successors edges)).count place =
      openDegree edges done place := by
  induction layer generalizing done with
  | nil => simp
  | cons head tail ih =>
      obtain ⟨hhead, htail⟩ := List.nodup_cons.mp hlayer
      have hrest : ∀ place ∈ tail, place ∉ done ++ [head] := by
        intro place hplace hmem
        rcases List.mem_append.mp hmem with hmem | hmem
        · exact hdone place (List.mem_cons_of_mem _ hplace) hmem
        · exact hhead (List.mem_singleton.mp hmem ▸ hplace)
      have hhere : openDegree edges (done ++ [head]) place + (successors edges head).count place =
          openDegree edges done place := openDegree_concat (hdone head List.mem_cons_self) place
      have := ih htail hrest
      rw [List.append_assoc, List.singleton_append] at this
      rw [List.flatMap_cons, List.count_append]
      omega

/-! ### One round -/

theorem Degrees.degreeOf_ofEdges {place : Nat} (hplace : place < count) :
    (Degrees.ofEdges count edges).degreeOf place = openDegree edges [] place := by
  simp [Degrees.degreeOf, Degrees.ofEdges, openDegree, hplace]

theorem Degrees.degreeOf_of_length_le {place : Nat} (hplace : degrees.length ≤ place) :
    degrees.degreeOf place = 0 := by
  simp [Degrees.degreeOf, hplace]

namespace Cut

theorem degreeOf_remove (c : Cut) (target place : Nat) :
    (c.remove target).degrees.degreeOf place =
      c.degrees.degreeOf place - if target = place then 1 else 0 := by
  simp only [remove, Degrees.degreeOf, List.getElem?_set]
  by_cases heq : target = place
  · subst heq
    by_cases hlt : target < c.degrees.length
    · simp [hlt]
    · simp [hlt]
  · simp [heq]

theorem count_freed_remove (c : Cut) (target place : Nat) :
    (c.remove target).freed.count place =
      c.freed.count place + if target = place ∧ c.degrees.degreeOf place = 1 then 1 else 0 := by
  simp only [remove]
  by_cases heq : target = place
  · subst heq
    split <;> simp_all
  · split <;> simp [heq]

theorem length_foldl_remove (targets : List Nat) (c : Cut) :
    (targets.foldl remove c).degrees.length = c.degrees.length := by
  induction targets generalizing c with
  | nil => rfl
  | cons target targets ih => rw [List.foldl_cons, ih, remove, List.length_set]

/-- Every edge that is removed lowers the degree of its target by one. -/
theorem degreeOf_foldl_remove (targets : List Nat) (c : Cut) (place : Nat) :
    (targets.foldl remove c).degrees.degreeOf place =
      c.degrees.degreeOf place - targets.count place := by
  induction targets generalizing c with
  | nil => simp
  | cons target targets ih =>
      rw [List.foldl_cons, ih, degreeOf_remove, List.count_cons]
      by_cases heq : target = place
      · simp only [heq, if_true, beq_self_eq_true]
        omega
      · simp [heq]

/-- A place is freed once, by the edge that takes its degree to zero. -/
theorem count_freed_foldl_remove (targets : List Nat) (c : Cut) (place : Nat) :
    (targets.foldl remove c).freed.count place = c.freed.count place +
      if 0 < c.degrees.degreeOf place ∧ c.degrees.degreeOf place ≤ targets.count place
      then 1 else 0 := by
  induction targets generalizing c with
  | nil =>
      have hnever : ¬ (0 < c.degrees.degreeOf place ∧ c.degrees.degreeOf place ≤ 0) := by omega
      rw [List.count_nil, if_neg hnever, List.foldl_nil, Nat.add_zero]
  | cons target targets ih =>
      rw [List.foldl_cons, ih, degreeOf_remove, count_freed_remove, List.count_cons]
      by_cases heq : target = place
      · simp only [heq, if_true, true_and, beq_self_eq_true]
        split_ifs <;> omega
      · simp [heq]

theorem length_ofLayer (edges : List Edge) (degrees : Degrees) (layer : List Nat) :
    (ofLayer edges degrees layer).degrees.length = degrees.length :=
  length_foldl_remove _ ⟨degrees, []⟩

theorem degreeOf_ofLayer (edges : List Edge) (degrees : Degrees) (layer : List Nat) (place : Nat) :
    (ofLayer edges degrees layer).degrees.degreeOf place =
      degrees.degreeOf place - (layer.flatMap (successors edges)).count place :=
  degreeOf_foldl_remove _ ⟨degrees, []⟩ place

theorem count_freed_ofLayer (edges : List Edge) (degrees : Degrees) (layer : List Nat)
    (place : Nat) :
    (ofLayer edges degrees layer).freed.count place =
      if 0 < degrees.degreeOf place ∧
        degrees.degreeOf place ≤ (layer.flatMap (successors edges)).count place
      then 1 else 0 := by
  have h := count_freed_foldl_remove (layer.flatMap (successors edges)) ⟨degrees, []⟩ place
  rwa [List.count_nil, Nat.zero_add] at h

end Cut

/-! ### Between the rounds -/

/-- What holds before every round: `done` are the places of all rounds so far and `layer` those of
the next one. -/
structure Peeling (edges : List Edge) (count : Nat) (done : List Nat) (degrees : Degrees)
    (layer : List Nat) : Prop where
  length_degrees : degrees.length = count
  degreeOf_eq : ∀ place < count, degrees.degreeOf place = openDegree edges done place
  done_closed : ∀ place ∈ done, place < count ∧ degrees.degreeOf place = 0
  mem_layer : ∀ place, place ∈ layer ↔
    place < count ∧ place ∉ done ∧ degrees.degreeOf place = 0
  layer_sorted : layer.Pairwise (· < ·)

namespace Peeling

theorem start (edges : List Edge) (count : Nat) :
    Peeling edges count [] (Degrees.ofEdges count edges)
      ((List.range count).filter ((Degrees.ofEdges count edges).degreeOf · = 0)) where
  length_degrees := by simp [Degrees.ofEdges]
  degreeOf_eq place hplace := Degrees.degreeOf_ofEdges hplace
  done_closed place hplace := by simp at hplace
  mem_layer place := by simp
  layer_sorted := List.Pairwise.filter _ List.pairwise_lt_range

/-- No edge is removed that is not there. -/
theorem count_successors_le (h : Peeling edges count done degrees layer) {place : Nat}
    (hplace : place < count) :
    degrees.degreeOf place = openDegree edges (done ++ layer) place +
      (layer.flatMap (successors edges)).count place := by
  rw [h.degreeOf_eq place hplace]
  exact (openDegree_append h.layer_sorted.nodup
    (fun place hmem => ((h.mem_layer place).mp hmem).2.1) place).symm

theorem count_freed (h : Peeling edges count done degrees layer) (place : Nat) :
    (Cut.ofLayer edges degrees layer).freed.count place =
      if place < count ∧ place ∉ done ++ layer ∧
        (Cut.ofLayer edges degrees layer).degrees.degreeOf place = 0 then 1 else 0 := by
  rw [Cut.count_freed_ofLayer, Cut.degreeOf_ofLayer]
  refine if_congr ?_ rfl rfl
  rw [List.mem_append]
  constructor
  · rintro ⟨hpos, hle⟩
    -- Out of range every degree is zero, so nothing is freed there.
    have hplace : place < count := by
      by_contra hge
      rw [Degrees.degreeOf_of_length_le (by rw [h.length_degrees]; omega)] at hpos
      omega
    refine ⟨hplace, ?_, by omega⟩
    rintro (hmem | hmem)
    · have := (h.done_closed place hmem).2
      omega
    · have := ((h.mem_layer place).mp hmem).2.2
      omega
  · rintro ⟨hplace, hnot, hzero⟩
    rw [not_or] at hnot
    have hpos : degrees.degreeOf place ≠ 0 := fun hzero =>
      hnot.2 ((h.mem_layer place).mpr ⟨hplace, hnot.1, hzero⟩)
    omega

/-- A round leads from one layer to the next. -/
theorem next (h : Peeling edges count done degrees layer) :
    Peeling edges count (done ++ layer) (Cut.ofLayer edges degrees layer).degrees
      ((Cut.ofLayer edges degrees layer).freed.mergeSort fun a b => decide (a ≤ b)) where
  length_degrees := by rw [Cut.length_ofLayer, h.length_degrees]
  degreeOf_eq place hplace := by
    rw [Cut.degreeOf_ofLayer, h.count_successors_le hplace]
    omega
  done_closed place hplace := by
    rw [Cut.degreeOf_ofLayer]
    rcases List.mem_append.mp hplace with hmem | hmem
    · have := h.done_closed place hmem
      exact ⟨this.1, by omega⟩
    · have := (h.mem_layer place).mp hmem
      exact ⟨this.1, by omega⟩
  mem_layer place := by
    rw [(List.mergeSort_perm _ _).mem_iff, ← List.count_pos_iff, h.count_freed]
    split_ifs with hfree
    · exact iff_of_true Nat.one_pos hfree
    · exact iff_of_false (Nat.lt_irrefl 0) hfree
  layer_sorted := by
    have hnodup : ((Cut.ofLayer edges degrees layer).freed.mergeSort
        fun a b => decide (a ≤ b)).Nodup := by
      rw [(List.mergeSort_perm _ _).nodup_iff, List.nodup_iff_count_le_one]
      intro place
      rw [h.count_freed]
      split_ifs <;> omega
    have hsorted := List.pairwise_mergeSort' (· ≤ ·) (Cut.ofLayer edges degrees layer).freed
    exact (hsorted.and hnodup).imp fun ⟨hle, hne⟩ => Nat.lt_of_le_of_ne hle hne

end Peeling

/-! ### All rounds -/

namespace Peeling

/-- What every round hands on from the rounds after it holds of all rounds together. -/
theorem peel_induction {motive : List Nat → Degrees → List Nat → Layering → Prop}
    (stop : ∀ done degrees, Peeling edges count done degrees [] →
      motive done degrees [] ⟨[], degrees⟩)
    (round : ∀ done degrees layer degrees' layer' rest, layer ≠ [] →
      Peeling edges count done degrees layer → Peeling edges count (done ++ layer) degrees' layer' →
      motive (done ++ layer) degrees' layer' rest →
      motive done degrees layer ⟨layer :: rest.layers, rest.degrees⟩)
    (h : Peeling edges count done degrees layer) :
    motive done degrees layer (Layering.peel edges degrees layer) := by
  fun_induction Layering.peel edges degrees layer generalizing done with
  | case1 degrees => exact stop done degrees h
  | case2 =>
      rename_i layer hlayer cut rest ih
      exact round _ _ layer _ _ rest hlayer h h.next (ih h.next)

/-- Peeling ends with all layers done and no further layer. -/
theorem peel_done (h : Peeling edges count done degrees layer) :
    Peeling edges count (done ++ (Layering.peel edges degrees layer).layers.flatten)
      (Layering.peel edges degrees layer).degrees [] := by
  refine peel_induction (motive := fun done _ _ result =>
    Peeling edges count (done ++ result.layers.flatten) result.degrees []) ?_ ?_ h
  · intro done degrees hstop
    simpa using hstop
  · intro done degrees layer _ _ rest _ _ _ ih
    simpa using ih

theorem peel_layers (h : Peeling edges count done degrees layer) :
    ∀ places ∈ (Layering.peel edges degrees layer).layers,
      places ≠ [] ∧ places.Pairwise (· < ·) := by
  refine peel_induction (motive := fun _ _ _ result =>
    ∀ places ∈ result.layers, places ≠ [] ∧ places.Pairwise (· < ·)) ?_ ?_ h
  · intro done degrees _ places hplaces
    cases hplaces
  · intro done degrees layer _ _ rest hlayer hround _ ih places hplaces
    rcases List.mem_cons.mp hplaces with rfl | hplaces
    · exact ⟨hlayer, hround.layer_sorted⟩
    · exact ih places hplaces

/-- No place is taken twice. -/
theorem peel_nodup (h : Peeling edges count done degrees layer) (hdone : done.Nodup) :
    (done ++ (Layering.peel edges degrees layer).layers.flatten).Nodup := by
  refine peel_induction (motive := fun done _ _ result =>
    done.Nodup → (done ++ result.layers.flatten).Nodup) ?_ ?_ h hdone
  · intro done degrees _ hdone
    simpa using hdone
  · intro done degrees layer _ _ rest _ hround _ ih hdone
    rw [List.flatten_cons, ← List.append_assoc]
    apply ih
    -- A layer has no place that is done already.
    refine List.nodup_append.mpr ⟨hdone, hround.layer_sorted.nodup, ?_⟩
    rintro place hmem _ hlayer rfl
    exact ((hround.mem_layer place).mp hlayer).2.1 hmem

end Peeling

/-! ### Layers and longest ways -/

/-- The number of edges on the longest way to a place. -/
def IsDepth (edges : List Edge) (place depth : Nat) : Prop :=
  IsGreatest {n | StepsTo (Precedes edges) n place} depth

/-- Before a round, no way to a place that is done has as many edges as rounds have passed, and
there is such a way to every other place. -/
structure Ranked (edges : List Edge) (count : Nat) (done : List Nat) (round : Nat) : Prop where
  early : ∀ place ∈ done, ∀ n, StepsTo (Precedes edges) n place → n < round
  late : ∀ place < count, place ∉ done → StepsTo (Precedes edges) round place

namespace Peeling

/-- A place that is not done has an open predecessor, unless it is in the layer. -/
theorem exists_open_predecessor (h : Peeling edges count done degrees layer) {place : Nat}
    (hplace : place < count) (hdone : place ∉ done) (hlayer : place ∉ layer) :
    ∃ source, Precedes edges source place ∧ source ∉ done := by
  rw [← openDegree_pos, ← h.degreeOf_eq place hplace]
  exact Nat.pos_of_ne_zero fun hzero => hlayer ((h.mem_layer place).mpr ⟨hplace, hdone, hzero⟩)

theorem source_mem_done (h : Peeling edges count done degrees layer) {source place : Nat}
    (hedge : Precedes edges source place) (hplace : place ∈ layer) : source ∈ done := by
  obtain ⟨hlt, -, hzero⟩ := (h.mem_layer place).mp hplace
  by_contra hopen
  have hpos := openDegree_pos.mpr ⟨source, hedge, hopen⟩
  rw [← h.degreeOf_eq place hlt] at hpos
  omega

theorem isDepth_of_mem_layer (h : Peeling edges count done degrees layer) {round : Nat}
    (hranked : Ranked edges count done round) {place : Nat} (hplace : place ∈ layer) :
    IsDepth edges place round := by
  obtain ⟨hlt, hdone, -⟩ := (h.mem_layer place).mp hplace
  refine ⟨hranked.late place hlt hdone, ?_⟩
  intro n hsteps
  cases hsteps with
  | start => omega
  | step hsteps hedge => exact hranked.early _ (h.source_mem_done hedge hplace) _ hsteps

theorem ranked_next (h : Peeling edges count done degrees layer)
    (hrange : ∀ edge ∈ edges, edge.1 < count ∧ edge.2 < count) {round : Nat}
    (hranked : Ranked edges count done round) :
    Ranked edges count (done ++ layer) (round + 1) where
  early place hplace n hsteps := by
    rcases List.mem_append.mp hplace with hmem | hmem
    · exact Nat.lt_succ_of_lt (hranked.early place hmem n hsteps)
    · exact Nat.lt_succ_of_le ((h.isDepth_of_mem_layer hranked hmem).2 hsteps)
  late place hplace hnot := by
    rw [List.mem_append, not_or] at hnot
    obtain ⟨source, hedge, hsource⟩ := h.exists_open_predecessor hplace hnot.1 hnot.2
    exact .step (hranked.late source (hrange _ hedge).1 hsource) hedge

/-- A place is in the layer of its depth. -/
theorem isDepth_of_mem_peel (h : Peeling edges count done degrees layer)
    (hrange : ∀ edge ∈ edges, edge.1 < count ∧ edge.2 < count) {round : Nat}
    (hranked : Ranked edges count done round) {i : Nat} {places : List Nat}
    (hplaces : (Layering.peel edges degrees layer).layers[i]? = some places) {place : Nat}
    (hplace : place ∈ places) : IsDepth edges place (round + i) := by
  refine peel_induction (motive := fun done _ _ result => ∀ round i,
    Ranked edges count done round → result.layers[i]? = some places →
      IsDepth edges place (round + i)) ?_ ?_ h round i hranked hplaces
  · intro done degrees _ round i _ hplaces
    simp at hplaces
  · intro done degrees layer _ _ rest _ hround _ ih round i hranked hplaces
    cases i with
    | zero =>
        rw [List.getElem?_cons_zero, Option.some.injEq] at hplaces
        exact hround.isDepth_of_mem_layer hranked (hplaces ▸ hplace)
    | succ i =>
        rw [List.getElem?_cons_succ] at hplaces
        have := ih (round + 1) i (hround.ranked_next hrange hranked) hplaces
        rwa [Nat.add_assoc, Nat.add_comm 1] at this

end Peeling

end Dataflow

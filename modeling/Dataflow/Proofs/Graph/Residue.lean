import Dataflow.Proofs.Graph.Peeling

/-! # What peeling and pruning leave

Peeling leaves what lies behind a cycle, and pruning that keeps of it what lies before a cycle. What
is left in the end are the places on cycles and on ways from one cycle to another.
-/

namespace Dataflow

open Relation

variable {edges : List Edge} {count : Nat}

/-- On a cycle, or on a way from one cycle to another. -/
def BetweenCycles {α : Type} (r : α → α → Prop) (a : α) : Prop :=
  (∃ b, TransGen r b b ∧ ReflTransGen r b a) ∧ ∃ c, ReflTransGen r a c ∧ TransGen r c c

theorem betweenCycles_of_cycle {α : Type} {r : α → α → Prop} {a : α} (h : TransGen r a a) :
    BetweenCycles r a :=
  ⟨⟨a, h, .refl⟩, ⟨a, .refl, h⟩⟩

/-- What lies between cycles has a successor that lies between cycles. -/
theorem BetweenCycles.exists_successor {α : Type} {r : α → α → Prop} {a : α}
    (h : BetweenCycles r a) : ∃ b, BetweenCycles r b ∧ r a b := by
  obtain ⟨⟨first, hfirst, hbefore⟩, last, hafter, hlast⟩ := h
  have hstep : ∃ b, r a b ∧ ReflTransGen r b last := by
    rcases hafter.cases_head with rfl | hstep
    · exact TransGen.head'_iff.mp hlast
    · exact hstep
  obtain ⟨b, hab, hrest⟩ := hstep
  exact ⟨b, ⟨⟨first, hfirst, hbefore.tail hab⟩, ⟨last, hrest, hlast⟩⟩, hab⟩

/-! ### Peeling -/

/-- The layers of some edges between so many places. -/
def layersOf (count : Nat) (edges : List Edge) : Layering :=
  .peel edges (Degrees.ofEdges count edges)
    ((List.range count).filter ((Degrees.ofEdges count edges).degreeOf · = 0))

/-- The places of all layers. -/
def Layering.taken (l : Layering) : List Nat :=
  l.layers.flatten

theorem layersOf_done (count : Nat) (edges : List Edge) :
    Peeling edges count (layersOf count edges).taken (layersOf count edges).degrees [] :=
  (Peeling.start edges count).peel_done

theorem nodup_taken (count : Nat) (edges : List Edge) : (layersOf count edges).taken.Nodup :=
  (Peeling.start edges count).peel_nodup List.nodup_nil

theorem isDepth_of_mem_layersOf (hrange : ∀ edge ∈ edges, edge.1 < count ∧ edge.2 < count) {i : Nat}
    {places : List Nat} (hplaces : (layersOf count edges).layers[i]? = some places) {place : Nat}
    (hplace : place ∈ places) : IsDepth edges place i := by
  have hranked : Ranked edges count [] 0 := ⟨by simp, fun place _ _ => .start place⟩
  have := (Peeling.start edges count).isDepth_of_mem_peel hrange hranked hplaces hplace
  rwa [Nat.zero_add] at this

theorem exists_isDepth_of_mem_taken (hrange : ∀ edge ∈ edges, edge.1 < count ∧ edge.2 < count)
    {place : Nat} (hplace : place ∈ (layersOf count edges).taken) :
    ∃ depth, IsDepth edges place depth := by
  obtain ⟨places, hplaces, hmem⟩ := List.mem_flatten.mp hplace
  obtain ⟨i, hi⟩ := List.mem_iff_getElem?.mp hplaces
  exact ⟨i, isDepth_of_mem_layersOf hrange hi hmem⟩

/-- The degree that is left at the end tells whether a place has been taken. -/
theorem degreeOf_pos_iff_not_mem_taken {place : Nat} (hplace : place < count) :
    0 < (layersOf count edges).degrees.degreeOf place ↔
      place ∉ (layersOf count edges).taken := by
  have hdone := layersOf_done count edges
  constructor
  · intro hpos hmem
    have := (hdone.done_closed place hmem).2
    omega
  · intro hnot
    refine Nat.pos_of_ne_zero fun hzero => ?_
    exact List.not_mem_nil ((hdone.mem_layer place).mpr ⟨hplace, hnot, hzero⟩)

/-- What is not taken lies behind a cycle. -/
theorem not_mem_taken_iff (hrange : ∀ edge ∈ edges, edge.1 < count ∧ edge.2 < count) {place : Nat}
    (hplace : place < count) : place ∉ (layersOf count edges).taken ↔
      ∃ a, TransGen (Precedes edges) a a ∧ ReflTransGen (Precedes edges) a place := by
  constructor
  · intro hnot
    -- When peeling has stopped, every place that is left has a predecessor that is left.
    let left : Set Nat := {p | p < count ∧ p ∉ (layersOf count edges).taken}
    have hfinite : left.Finite := (Set.finite_lt_nat count).subset fun p hp => hp.1
    have hpred : ∀ b ∈ left, ∃ a ∈ left, Precedes edges a b := by
      rintro b ⟨hb, hnot⟩
      obtain ⟨a, hedge, ha⟩ :=
        (layersOf_done count edges).exists_open_predecessor hb hnot List.not_mem_nil
      exact ⟨a, ⟨(hrange _ hedge).1, ha⟩, hedge⟩
    obtain ⟨a, -, hcycle, hbefore⟩ := exists_cycle_before hfinite hpred ⟨hplace, hnot⟩
    exact ⟨a, hcycle, hbefore⟩
  · rintro ⟨a, hcycle, hbefore⟩ hmem
    -- A place that was taken has a depth, and the ways round a cycle have no bound.
    obtain ⟨depth, hdepth⟩ := exists_isDepth_of_mem_taken hrange hmem
    exact StepsTo.not_cycle_of_bounded (fun n hsteps => hdepth.2 hsteps) hbefore hcycle

/-! ### Pruning -/

theorem hasSuccessorIn_eq_true {places : List Nat} {place : Nat} :
    hasSuccessorIn edges places place = true ↔
      ∃ successor ∈ places, Precedes edges place successor := by
  simp only [hasSuccessorIn, successors, List.any_eq_true, List.mem_map, List.mem_filter,
    decide_eq_true_eq, List.contains_iff_mem, Precedes, Prod.exists]
  constructor
  · rintro ⟨_, ⟨_, _, ⟨hedge, rfl⟩, rfl⟩, hmem⟩
    exact ⟨_, hmem, hedge⟩
  · rintro ⟨successor, hmem, hedge⟩
    exact ⟨successor, ⟨place, successor, ⟨hedge, rfl⟩, rfl⟩, hmem⟩

/-- A pass drops no place of a set in which everything has a successor. -/
theorem subset_foldl_dropUnsupported {s : Set Nat} (hs : ∀ a ∈ s, ∃ b ∈ s, Precedes edges a b)
    (places : List Nat) {left : List Nat} (hleft : ∀ a ∈ s, a ∈ left) :
    ∀ a ∈ s, a ∈ places.foldl (dropUnsupported edges) left := by
  induction places generalizing left with
  | nil => exact hleft
  | cons place places ih =>
      apply ih
      intro a ha
      unfold dropUnsupported
      split
      · exact hleft a ha
      next hunsupported =>
        refine (List.mem_erase_of_ne ?_).mpr (hleft a ha)
        rintro rfl
        obtain ⟨b, hb, hedge⟩ := hs a ha
        exact hunsupported (hasSuccessorIn_eq_true.mpr ⟨b, hleft b hb, hedge⟩)

theorem exists_successor_of_dropUnsupported_eq {left : List Nat} {place : Nat}
    (h : dropUnsupported edges left place = left) (hplace : place ∈ left) :
    ∃ successor ∈ left, Precedes edges place successor := by
  unfold dropUnsupported at h
  split at h
  next hsupported => exact hasSuccessorIn_eq_true.mp hsupported
  next =>
    have := List.length_erase_of_mem hplace
    have := List.length_pos_of_mem hplace
    rw [h] at *
    omega

/-- Where a pass drops nothing, everything it has come to has a successor. -/
theorem exists_successor_of_length_eq {places left : List Nat}
    (h : (places.foldl (dropUnsupported edges) left).length = left.length) :
    ∀ a ∈ places, a ∈ left → ∃ b ∈ left, Precedes edges a b := by
  induction places with
  | nil =>
      intro a ha
      cases ha
  | cons place places ih =>
      rw [List.foldl_cons] at h
      have hrest := foldl_dropUnsupported_sublist edges places (dropUnsupported edges left place)
      have hfirst := dropUnsupported_sublist edges left place
      -- What one step drops, no later step puts back.
      have hkept : dropUnsupported edges left place = left :=
        hfirst.eq_of_length (Nat.le_antisymm hfirst.length_le (h ▸ hrest.length_le))
      rw [hkept] at h
      intro a ha hmem
      rcases List.mem_cons.mp ha with rfl | ha
      · exact exists_successor_of_dropUnsupported_eq hkept hmem
      · exact ih h a ha hmem

theorem prune_sublist (edges : List Edge) (places : List Nat) :
    (prune edges places).Sublist places := by
  fun_induction prune edges places with
  | case1 places _ => exact .refl _
  | case2 places _ ih => exact ih.trans (foldl_dropUnsupported_sublist edges places places)

theorem exists_successor_of_mem_prune {places : List Nat} :
    ∀ a ∈ prune edges places, ∃ b ∈ prune edges places, Precedes edges a b := by
  fun_induction prune edges places with
  | case1 places hlength =>
      intro a ha
      exact exists_successor_of_length_eq hlength a ha ha
  | case2 places _ ih => exact ih

/-- Pruning leaves the greatest set in which everything has a successor. -/
theorem subset_prune {s : Set Nat} (hs : ∀ a ∈ s, ∃ b ∈ s, Precedes edges a b)
    {places : List Nat} (hplaces : ∀ a ∈ s, a ∈ places) : ∀ a ∈ s, a ∈ prune edges places := by
  fun_induction prune edges places with
  | case1 places _ => exact hplaces
  | case2 places _ ih => exact ih (subset_foldl_dropUnsupported hs places hplaces)

/-! ### Both together -/

/-- The places that are left at the end. -/
def residue (count : Nat) (edges : List Edge) : List Nat :=
  prune edges ((List.range count).filter (0 < (layersOf count edges).degrees.degreeOf ·))

theorem residue_sublist (count : Nat) (edges : List Edge) :
    (residue count edges).Sublist (List.range count) :=
  (prune_sublist _ _).trans List.filter_sublist

theorem mem_residue_iff (hrange : ∀ edge ∈ edges, edge.1 < count ∧ edge.2 < count) {place : Nat} :
    place ∈ residue count edges ↔ BetweenCycles (Precedes edges) place := by
  have hlt : ∀ a, BetweenCycles (Precedes edges) a → a < count := by
    intro a ha
    obtain ⟨b, -, hedge⟩ := ha.exists_successor
    exact (hrange _ hedge).1
  have hleft : ∀ a < count, 0 < (layersOf count edges).degrees.degreeOf a ↔
      ∃ b, TransGen (Precedes edges) b b ∧ ReflTransGen (Precedes edges) b a :=
    fun a ha => (degreeOf_pos_iff_not_mem_taken ha).trans (not_mem_taken_iff hrange ha)
  constructor
  · intro hmem
    have hbefore := (prune_sublist _ _).subset hmem
    rw [List.mem_filter, List.mem_range, decide_eq_true_eq] at hbefore
    have hfinite : {a | a ∈ residue count edges}.Finite := List.finite_toSet _
    obtain ⟨c, -, hcycle, hafter⟩ :=
      exists_cycle_after hfinite exists_successor_of_mem_prune hmem
    exact ⟨(hleft place hbefore.1).mp hbefore.2, c, hafter, hcycle⟩
  · refine subset_prune (s := {a | BetweenCycles (Precedes edges) a})
      (fun a ha => BetweenCycles.exists_successor ha) (fun a ha => ?_) place
    rw [List.mem_filter, List.mem_range, decide_eq_true_eq]
    exact ⟨hlt a ha, (hleft a (hlt a ha)).mpr ha.1⟩

end Dataflow

import Dataflow.Graph.Staging
import Dataflow.Proofs.Graph.Lookup
import Dataflow.Proofs.Graph.Residue
import Dataflow.Proofs.Graph.Writers
import Mathlib.Data.List.Permutation

/-! # Graphs without defects

Each of the three kinds of defect is absent under a condition of its own: links have both their
ends, inputs have one writer, and no node feeds itself. The report of cycles is exact on every
graph, whatever else is wrong with it.
-/

namespace Dataflow

open Relation

namespace Graph

/-- A node is there and has an output at a place. -/
def HasOutput (g : Graph) (id : NodeId) (output : UInt64) : Prop :=
  ∃ node ∈ g.nodes, node.id = id ∧ output.toNat < node.outputs.length

/-- A node is there and has an input at a place. -/
def HasInput (g : Graph) (id : NodeId) (input : UInt64) : Prop :=
  ∃ node ∈ g.nodes, node.id = id ∧ input.toNat < node.inputs.length

variable {g : Graph}

/-! ### Links -/

theorem dangling?_eq_none_iff (hg : g.nodeIds.Nodup) {sockets : Node → Nat} {id : NodeId}
    {index : UInt64} : g.dangling? sockets id index = none ↔
      ∃ node ∈ g.nodes, node.id = id ∧ index.toNat < sockets node := by
  unfold dangling?
  cases hnode : g.node? id with
  | none =>
      refine iff_of_false (by simp) ?_
      rintro ⟨node, hmem, rfl, -⟩
      exact node?_eq_none_iff.mp hnode (List.mem_map_of_mem hmem)
  | some node =>
      obtain ⟨hmem, hid⟩ := (node?_eq_some_iff hg).mp hnode
      constructor
      · intro h
        exact ⟨node, hmem, hid, by simpa using h⟩
      · rintro ⟨other, hother, rfl, hlt⟩
        obtain rfl := List.inj_on_of_nodup_map hg hmem hother hid
        simpa using hlt

theorem danglingEnds_eq_nil_iff (hg : g.nodeIds.Nodup) {link : Link} :
    g.danglingEnds link = [] ↔
      g.HasOutput link.source link.output ∧ g.HasInput link.target link.input := by
  rw [danglingEnds, List.append_eq_nil_iff, Option.toList_eq_nil_iff, Option.toList_eq_nil_iff,
    Option.map_eq_none_iff, Option.map_eq_none_iff, dangling?_eq_none_iff hg,
    dangling?_eq_none_iff hg]
  rfl

theorem cycle_not_mem_danglingEnds {link : Link} {ids : List NodeId} :
    .cycle ids ∉ g.danglingEnds link := by
  simp [danglingEnds]

/-! ### Writers -/

theorem contestedInputs_eq_nil_iff : g.contestedInputs = [] ↔ (g.links.map Link.slot).Nodup := by
  rw [contestedInputs_eq, List.filterMap_eq_nil_iff, List.nodup_iff_count_le_one]
  constructor
  · intro h slot
    by_cases hslot : slot ∈ g.links.map Link.slot
    · have := h slot (List.mem_eraseDups.mpr hslot)
      simpa [length_writers] using this
    · rw [List.count_eq_zero_of_not_mem hslot]
      exact Nat.zero_le 1
  · intro h slot _
    have := h slot
    simpa [length_writers] using this

theorem cycle_not_mem_contestedInputs {ids : List NodeId} : .cycle ids ∉ g.contestedInputs := by
  simp only [contestedInputs_eq, List.mem_filterMap, not_exists, not_and]
  intro slot _
  split <;> simp

/-! ### Cycles -/

theorem edges_in_range (hg : g.nodeIds.Nodup) :
    ∀ edge ∈ g.edges, edge.1 < g.nodes.length ∧ edge.2 < g.nodes.length :=
  fun _ => lt_of_mem_edges hg

theorem cyclicNodes_eq_map (g : Graph) :
    g.cyclicNodes = (residue g.nodes.length g.edges).map g.idAt :=
  idsAt_eq_map fun _ hplace => List.mem_range.mp ((residue_sublist _ _).subset hplace)

theorem cyclicNodes_sublist (g : Graph) : g.cyclicNodes.Sublist g.nodeIds := by
  rw [cyclicNodes_eq_map, ← map_idAt_range]
  exact (residue_sublist _ _).map g.idAt

theorem betweenCycles_precedes_iff (hg : g.nodeIds.Nodup) {place : Nat}
    (hplace : place < g.nodes.length) :
    BetweenCycles (Precedes g.edges) place ↔ BetweenCycles g.Feeds (g.idAt place) := by
  constructor
  · rintro ⟨⟨a, hcycle, hbefore⟩, b, hafter, hcycle'⟩
    exact ⟨⟨g.idAt a, TransGen.lift g.idAt (feeds_of_precedes hg) _ _ hcycle,
        ReflTransGen.lift g.idAt (feeds_of_precedes hg) _ _ hbefore⟩,
      g.idAt b, ReflTransGen.lift g.idAt (feeds_of_precedes hg) _ _ hafter,
      TransGen.lift g.idAt (feeds_of_precedes hg) _ _ hcycle'⟩
  · rintro ⟨⟨a, hcycle, hbefore⟩, b, hafter, hcycle'⟩
    have hplace := placeOf_idAt hg hplace
    refine ⟨⟨g.placeOf a, TransGen.lift g.placeOf (precedes_of_feeds hg) _ _ hcycle, ?_⟩,
      g.placeOf b, ?_, TransGen.lift g.placeOf (precedes_of_feeds hg) _ _ hcycle'⟩
    · rw [← hplace]
      exact ReflTransGen.lift g.placeOf (precedes_of_feeds hg) _ _ hbefore
    · rw [← hplace]
      exact ReflTransGen.lift g.placeOf (precedes_of_feeds hg) _ _ hafter

/-- The report of cycles has exactly the nodes on cycles and between them. -/
theorem mem_cyclicNodes_iff (hg : g.nodeIds.Nodup) {id : NodeId} :
    id ∈ g.cyclicNodes ↔ BetweenCycles g.Feeds id := by
  rw [cyclicNodes_eq_map, List.mem_map]
  constructor
  · rintro ⟨place, hplace, rfl⟩
    have hlt := List.mem_range.mp ((residue_sublist _ _).subset hplace)
    exact (betweenCycles_precedes_iff hg hlt).mp ((mem_residue_iff (edges_in_range hg)).mp hplace)
  · intro h
    obtain ⟨-, -, hid, -⟩ := h.exists_successor
    refine ⟨g.placeOf id, ?_, idAt_placeOf hg hid⟩
    rw [mem_residue_iff (edges_in_range hg), betweenCycles_precedes_iff hg (placeOf_lt hg hid),
      idAt_placeOf hg hid]
    exact h

theorem cyclicNodes_eq_nil_iff (hg : g.nodeIds.Nodup) :
    g.cyclicNodes = [] ↔ ∀ id, ¬ TransGen g.Feeds id id := by
  rw [List.eq_nil_iff_forall_not_mem]
  constructor
  · intro h id hcycle
    exact h id ((mem_cyclicNodes_iff hg).mpr (betweenCycles_of_cycle hcycle))
  · intro h id hmem
    obtain ⟨⟨a, hcycle, -⟩, -⟩ := (mem_cyclicNodes_iff hg).mp hmem
    exact h a hcycle

/-! ### All defects -/

/-- A graph that can be run. -/
structure Valid (g : Graph) : Prop where
  ends : ∀ link ∈ g.links,
    g.HasOutput link.source link.output ∧ g.HasInput link.target link.input
  writers : (g.links.map Link.slot).Nodup
  acyclic : ∀ id, ¬ TransGen g.Feeds id id

theorem cycleDefects_eq_nil_iff (hg : g.nodeIds.Nodup) :
    g.cycleDefects = [] ↔ ∀ id, ¬ TransGen g.Feeds id id := by
  rw [← cyclicNodes_eq_nil_iff hg]
  cases h : g.cyclicNodes <;> simp [cycleDefects, h]

/-- Where no input is contested and nothing feeds itself, only ends can dangle. -/
theorem validate_eq_flatMap_danglingEnds (hg : g.nodeIds.Nodup)
    (hwriters : (g.links.map Link.slot).Nodup) (hacyclic : ∀ id, ¬ TransGen g.Feeds id id) :
    g.validate = g.links.flatMap g.danglingEnds := by
  rw [validate, contestedInputs_eq_nil_iff.mpr hwriters, (cycleDefects_eq_nil_iff hg).mpr hacyclic,
    List.append_nil, List.append_nil]

theorem validate_eq_nil_iff (hg : g.nodeIds.Nodup) : g.validate = [] ↔ g.Valid := by
  rw [validate, List.append_eq_nil_iff, List.append_eq_nil_iff, List.flatMap_eq_nil_iff,
    contestedInputs_eq_nil_iff, cycleDefects_eq_nil_iff hg]
  constructor
  · rintro ⟨⟨hends, hwriters⟩, hacyclic⟩
    exact ⟨fun link hlink => (danglingEnds_eq_nil_iff hg).mp (hends link hlink), hwriters, hacyclic⟩
  · rintro ⟨hends, hwriters, hacyclic⟩
    exact ⟨⟨fun link hlink => (danglingEnds_eq_nil_iff hg).mpr (hends link hlink), hwriters⟩,
      hacyclic⟩

/-- On every graph there is a report of cycles just when there is a cycle. It comes last, there is
no second one, and it lists the nodes on cycles and between cycles in the order of insertion. -/
theorem validate_cycles_exact {g : Graph} (hg : g.Reachable) :
    ((∃ ids, .cycle ids ∈ g.validate) ↔ ∃ id, TransGen g.Feeds id id) ∧
      ∃ others : List Defect, (∀ ids, .cycle ids ∉ others) ∧
        (g.validate = others ∨
          ∃ ids, g.validate = others ++ [.cycle ids] ∧ ids.Nodup ∧ ids.Sublist g.nodeIds ∧
            ∀ id, id ∈ ids ↔
              (∃ a, TransGen g.Feeds a a ∧ ReflTransGen g.Feeds a id) ∧
                ∃ b, ReflTransGen g.Feeds id b ∧ TransGen g.Feeds b b) := by
  have hnodup := hg.wellKept.nodup_nodeIds
  have hothers : ∀ ids, .cycle ids ∉ g.links.flatMap g.danglingEnds ++ g.contestedInputs := by
    intro ids hmem
    rcases List.mem_append.mp hmem with hmem | hmem
    · obtain ⟨link, -, hmem⟩ := List.mem_flatMap.mp hmem
      exact cycle_not_mem_danglingEnds hmem
    · exact cycle_not_mem_contestedInputs hmem
  have hnone := cyclicNodes_eq_nil_iff hnodup
  by_cases hnil : g.cyclicNodes = []
  · have hvalidate : g.validate = g.links.flatMap g.danglingEnds ++ g.contestedInputs := by
      simp [validate, cycleDefects, hnil]
    refine ⟨iff_of_false ?_ ?_, _, hothers, .inl hvalidate⟩
    · rintro ⟨ids, hmem⟩
      exact hothers ids (hvalidate ▸ hmem)
    · rintro ⟨id, hcycle⟩
      exact hnone.mp hnil id hcycle
  · have hvalidate : g.validate =
        g.links.flatMap g.danglingEnds ++ g.contestedInputs ++ [.cycle g.cyclicNodes] := by
      simp [validate, cycleDefects, hnil]
    refine ⟨iff_of_true ⟨g.cyclicNodes, by simp [hvalidate]⟩ ?_, _, hothers, .inr
      ⟨g.cyclicNodes, hvalidate, hnodup.sublist g.cyclicNodes_sublist, g.cyclicNodes_sublist,
        fun id => mem_cyclicNodes_iff hnodup⟩⟩
    by_contra hacyclic
    exact hnil (hnone.mpr fun id hcycle => hacyclic ⟨id, hcycle⟩)

/-- Two nodes that feed themselves, one node between them and one behind both. -/
def loops : Graph :=
  let nodes := (((empty.withNode ["a"]).withNode ["a"]).withNode ["a", "b"]).withNode ["a"]
  let links := ((nodes.withLink ⟨1⟩ ⟨1⟩ 0).withLink ⟨1⟩ ⟨2⟩ 0).withLink ⟨2⟩ ⟨3⟩ 0
  (links.withLink ⟨3⟩ ⟨3⟩ 1).withLink ⟨3⟩ ⟨4⟩ 0

theorem loops_reachable : loops.Reachable := by
  iterate 5 refine Reachable.withLink ?_ (by decide)
  iterate 4 refine Reachable.withNode ?_ (by decide)
  exact .empty

theorem loops_cycles_exact :
    BetweenCycles loops.Feeds ⟨2⟩ ∧ ¬ BetweenCycles loops.Feeds ⟨4⟩ := by
  have hvalidate : loops.validate = [] ++ [.cycle [⟨1⟩, ⟨2⟩, ⟨3⟩]] := by cbv
  obtain ⟨-, others, hothers, hnone | ⟨ids, hids, -, -, hmem⟩⟩ :=
    validate_cycles_exact loops_reachable
  · exact absurd (hnone ▸ hvalidate ▸ List.mem_singleton_self _) (hothers [⟨1⟩, ⟨2⟩, ⟨3⟩])
  · obtain ⟨-, hcycle⟩ := List.append_inj' (hvalidate.symm.trans hids) rfl
    obtain rfl : [⟨1⟩, ⟨2⟩, ⟨3⟩] = ids := by simpa using hcycle
    exact ⟨(hmem ⟨2⟩).mp (by decide), fun h => absurd ((hmem ⟨4⟩).mpr h) (by decide)⟩

end Graph

end Dataflow

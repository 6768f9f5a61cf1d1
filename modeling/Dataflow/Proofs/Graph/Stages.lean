import Dataflow.Proofs.Graph.Validity

/-! # Stages are layers of longest paths

A graph has stages just when it is valid. Then every node is in one stage, whose number is the
length of the longest path of links that ends at the node.
-/

namespace Dataflow

open Relation

namespace Graph

variable {g : Graph}

/-- Every node is in the stage of its depth, and stages keep the order of insertion. -/
structure StagedBy (g : Graph) (s : Staging) : Prop where
  nodup : s.stages.flatten.Nodup
  perm : s.stages.flatten.Perm g.nodeIds
  stages : ∀ ids ∈ s.stages, ids ≠ [] ∧ ids.Sublist g.nodeIds
  depth : ∀ i ids, s.stages[i]? = some ids → ∀ id ∈ ids, IsGreatest {n | StepsTo g.Feeds n id} i

theorem layer_lt {places : List Nat} (hplaces : places ∈ g.layering.layers) :
    ∀ place ∈ places, place < g.nodes.length := by
  intro place hplace
  have hdone := layersOf_done g.nodes.length g.edges
  exact (hdone.done_closed place (List.mem_flatten.mpr ⟨places, hplaces, hplace⟩)).1

theorem layer_sublist_range {places : List Nat} (hplaces : places ∈ g.layering.layers) :
    places.Sublist (List.range g.nodes.length) := by
  have hsorted := ((Peeling.start g.edges g.nodes.length).peel_layers places hplaces).2
  have hsubset : places ⊆ List.range g.nodes.length :=
    fun place hplace => List.mem_range.mpr (layer_lt hplaces place hplace)
  exact List.sublist_of_subperm_of_pairwise (List.subperm_of_subset hsorted.nodup hsubset) hsorted
    List.pairwise_lt_range

/-- Without cycles every place is taken, and none twice. -/
theorem taken_perm_range (hg : g.nodeIds.Nodup) (hacyclic : ∀ id, ¬ TransGen g.Feeds id id) :
    g.layering.taken.Perm (List.range g.nodes.length) := by
  apply (List.perm_ext_iff_of_nodup (nodup_taken _ _) List.nodup_range).mpr
  intro place
  constructor
  · intro hmem
    obtain ⟨places, hplaces, hmem⟩ := List.mem_flatten.mp hmem
    exact (layer_sublist_range hplaces).subset hmem
  · intro hmem
    have hlt := List.mem_range.mp hmem
    by_contra hnot
    obtain ⟨a, hcycle, -⟩ := (not_mem_taken_iff (edges_in_range hg) hlt).mp hnot
    exact hacyclic _ (TransGen.lift g.idAt (feeds_of_precedes hg) _ _ hcycle)

theorem map_idsAt_layers (g : Graph) :
    g.layering.layers.map g.idsAt = g.layering.layers.map (List.map g.idAt) :=
  List.map_congr_left fun _ hplaces => idsAt_eq_map (layer_lt hplaces)

theorem isGreatest_of_mem_layer (hg : g.nodeIds.Nodup) {i : Nat} {places : List Nat}
    (hplaces : g.layering.layers[i]? = some places) {place : Nat} (hplace : place ∈ places) :
    IsGreatest {n | StepsTo g.Feeds n (g.idAt place)} i := by
  have hlt := layer_lt (List.mem_of_getElem? hplaces) place hplace
  have hdepth := isDepth_of_mem_layersOf (edges_in_range hg) hplaces hplace
  refine ⟨(stepsTo_precedes_iff hg hlt).mp hdepth.1, fun n hsteps => ?_⟩
  exact hdepth.2 ((stepsTo_precedes_iff hg hlt).mpr hsteps)

theorem stagedBy_layering (hg : g.nodeIds.Nodup) (hacyclic : ∀ id, ¬ TransGen g.Feeds id id) :
    g.StagedBy ⟨g.layering.layers.map g.idsAt⟩ := by
  have hperm : (g.layering.layers.map g.idsAt).flatten.Perm g.nodeIds := by
    rw [map_idsAt_layers, ← List.map_flatten, ← map_idAt_range]
    exact (taken_perm_range hg hacyclic).map g.idAt
  refine ⟨hperm.nodup_iff.mpr hg, hperm, ?_, ?_⟩
  · intro ids hids
    -- A stage keeps the order of its places, which is the order of insertion.
    rw [map_idsAt_layers] at hids
    obtain ⟨places, hplaces, rfl⟩ := List.mem_map.mp hids
    constructor
    · have := ((Peeling.start g.edges g.nodes.length).peel_layers places hplaces).1
      simpa using this
    · rw [← map_idAt_range]
      exact (layer_sublist_range hplaces).map g.idAt
  · intro i ids hids id hid
    rw [map_idsAt_layers, List.getElem?_map, Option.map_eq_some_iff] at hids
    obtain ⟨places, hplaces, rfl⟩ := hids
    obtain ⟨place, hplace, rfl⟩ := List.mem_map.mp hid
    exact isGreatest_of_mem_layer hg hplaces hplace

theorem staging_eq_ok_iff (hg : g.nodeIds.Nodup) {s : Staging} :
    g.staging = .ok s ↔ g.Valid ∧ s = ⟨g.layering.layers.map g.idsAt⟩ := by
  rw [staging, ← validate_eq_nil_iff hg]
  cases g.validate with
  | nil => simp [eq_comm]
  | cons defect defects => simp

theorem staging_eq_error_iff {defects : List Defect} :
    g.staging = .error defects ↔ g.validate ≠ [] ∧ defects = g.validate := by
  rw [staging]
  cases g.validate with
  | nil => simp
  | cons defect defects => simp [eq_comm]

theorem StagedBy.stageOf? {s : Staging} (hs : g.StagedBy s) {i : Nat} {ids : List NodeId}
    (hids : s.stages[i]? = some ids) {id : NodeId} (hid : id ∈ ids) : s.stageOf? id = some i := by
  obtain ⟨hlt, rfl⟩ := List.getElem?_eq_some_iff.mp hids
  refine List.findIdx?_eq_some_iff_getElem.mpr ⟨hlt, by simpa using hid, fun j hj => ?_⟩
  -- A node in two stages would have two depths.
  intro hmem
  have hearlier := hs.depth j s.stages[j] (List.getElem?_eq_getElem _) id (by simpa using hmem)
  have hsame := hearlier.unique (hs.depth i s.stages[i] (List.getElem?_eq_getElem _) id hid)
  omega

theorem StagedBy.exists_stage {s : Staging} (hs : g.StagedBy s) {id : NodeId}
    (hid : id ∈ g.nodeIds) :
    ∃ (i : Nat) (ids : List NodeId), s.stages[i]? = some ids ∧ id ∈ ids := by
  obtain ⟨ids, hids, hmem⟩ := List.mem_flatten.mp (hs.perm.mem_iff.mpr hid)
  obtain ⟨i, hi⟩ := List.mem_iff_getElem?.mp hids
  exact ⟨i, ids, hi, hmem⟩

/-- A node that feeds another one is in an earlier stage. -/
theorem StagedBy.lt_of_feeds {s : Staging} (hs : g.StagedBy s) {a b : NodeId} (h : g.Feeds a b)
    {i j : Nat} {ids ids' : List NodeId} (hi : s.stages[i]? = some ids) (ha : a ∈ ids)
    (hj : s.stages[j]? = some ids') (hb : b ∈ ids') : i < j :=
  Nat.lt_of_succ_le ((hs.depth j ids' hj b hb).2 (StepsTo.step (hs.depth i ids hi a ha).1 h))

theorem Valid.feeds {g : Graph} (hvalid : g.Valid) {link : Link} (hlink : link ∈ g.links) :
    g.Feeds link.source link.target := by
  obtain ⟨⟨source, hsource, hs, -⟩, target, htarget, ht, -⟩ := hvalid.ends link hlink
  exact ⟨hs ▸ List.mem_map_of_mem hsource, ht ▸ List.mem_map_of_mem htarget, link, hlink, rfl, rfl⟩

/-- Stages are the layers of longest paths: there are some just when links have their ends, inputs
have one writer and nothing feeds itself. Then all nodes are staged once, every link leads to a
later stage, a stage has the number of links on the longest path to each of its nodes, and its nodes
keep the order of insertion. Otherwise there is the list of defects, which is not empty. -/
theorem staging_exact {g : Graph} (hg : g.Reachable) :
    ((∃ s, g.staging = .ok s) ↔
      (∀ link ∈ g.links,
        g.HasOutput link.source link.output ∧ g.HasInput link.target link.input) ∧
        (g.links.map Link.slot).Nodup ∧ ∀ id ∈ g.nodeIds, ¬ TransGen g.Feeds id id) ∧
      (∀ s, g.staging = .ok s →
        s.stages.flatten.Nodup ∧ s.stages.flatten.Perm g.nodeIds ∧
          (∀ ids ∈ s.stages, ids ≠ [] ∧ ids.Sublist g.nodeIds) ∧
          (∀ link ∈ g.links, ∃ i j,
            s.stageOf? link.source = some i ∧ s.stageOf? link.target = some j ∧ i < j) ∧
          ∀ id ∈ g.nodeIds, ∃ i,
            s.stageOf? id = some i ∧ IsGreatest {n | StepsTo g.Feeds n id} i) ∧
      ∀ defects, g.staging = .error defects → defects ≠ [] ∧ defects = g.validate := by
  have hnodup := hg.wellKept.nodup_nodeIds
  refine ⟨?_, ?_, ?_⟩
  · constructor
    · rintro ⟨s, hs⟩
      obtain ⟨hvalid, -⟩ := (staging_eq_ok_iff hnodup).mp hs
      exact ⟨hvalid.ends, hvalid.writers, fun id _ => hvalid.acyclic id⟩
    · rintro ⟨hends, hwriters, hacyclic⟩
      refine ⟨_, (staging_eq_ok_iff hnodup).mpr ⟨⟨hends, hwriters, fun id hcycle => ?_⟩, rfl⟩⟩
      obtain ⟨b, hstep, -⟩ := TransGen.head'_iff.mp hcycle
      exact hacyclic id hstep.1 hcycle
  · intro s hs
    obtain ⟨hvalid, rfl⟩ := (staging_eq_ok_iff hnodup).mp hs
    have hstaged := stagedBy_layering hnodup hvalid.acyclic
    refine ⟨hstaged.nodup, hstaged.perm, hstaged.stages, ?_, ?_⟩
    · intro link hlink
      have hfeeds := hvalid.feeds hlink
      obtain ⟨i, ids, hi, ha⟩ := hstaged.exists_stage hfeeds.1
      obtain ⟨j, ids', hj, hb⟩ := hstaged.exists_stage hfeeds.2.1
      exact ⟨i, j, hstaged.stageOf? hi ha, hstaged.stageOf? hj hb,
        hstaged.lt_of_feeds hfeeds hi ha hj hb⟩
    · intro id hid
      obtain ⟨i, ids, hi, hmem⟩ := hstaged.exists_stage hid
      exact ⟨i, hstaged.stageOf? hi hmem, hstaged.depth i ids hi id hmem⟩
  · intro defects hdefects
    obtain ⟨hne, rfl⟩ := staging_eq_error_iff.mp hdefects
    exact ⟨hne, rfl⟩

theorem staging_diamond : diamond.staging = .ok ⟨[[⟨1⟩], [⟨2⟩, ⟨3⟩], [⟨4⟩]]⟩ := by
  cbv

theorem diamond_staging_exact : IsGreatest {n | StepsTo diamond.Feeds n ⟨4⟩} 2 := by
  obtain ⟨-, -, -, -, hdepth⟩ := (staging_exact diamond_reachable).2.1 _ staging_diamond
  obtain ⟨i, hi, hgreatest⟩ := hdepth ⟨4⟩ (by decide)
  obtain rfl : 2 = i := Option.some.inj hi
  exact hgreatest

end Graph

end Dataflow

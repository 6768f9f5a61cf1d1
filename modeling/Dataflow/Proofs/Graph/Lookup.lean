import Dataflow.Proofs.Graph.Peeling
import Dataflow.Proofs.Graph.Store

/-! # Nodes by their ids and by their places

Where ids are distinct, an id has one place and a place has one id. Feeding a node is a relation
between ids; the edges that layering works with are the same relation between places.
-/

namespace Dataflow

namespace Graph

/-- A link leads from one node of the graph to another one, or to the same. -/
def Feeds (g : Graph) (a b : NodeId) : Prop :=
  a ∈ g.nodeIds ∧ b ∈ g.nodeIds ∧ ∃ link ∈ g.links, link.source = a ∧ link.target = b

/-- The place of a node, if it is in the graph. -/
def placeOf (g : Graph) (id : NodeId) : Nat :=
  (g.position? id).getD 0

/-- The id at a place, if there is one. -/
def idAt (g : Graph) (place : Nat) : NodeId :=
  g.nodeIds[place]?.getD ⟨0⟩

variable {g : Graph}

@[simp] theorem length_nodeIds (g : Graph) : g.nodeIds.length = g.nodes.length := by
  simp [nodeIds]

theorem node?_eq_none_iff {id : NodeId} : g.node? id = none ↔ id ∉ g.nodeIds := by
  simp [node?, nodeIds]

theorem node?_eq_some_iff (hg : g.nodeIds.Nodup) {id : NodeId} {node : Node} :
    g.node? id = some node ↔ node ∈ g.nodes ∧ node.id = id := by
  constructor
  · intro h
    exact ⟨List.mem_of_find?_eq_some h, by simpa using List.find?_some h⟩
  · rintro ⟨hmem, rfl⟩
    cases hfind : g.node? node.id with
    | none => exact absurd (List.mem_map_of_mem hmem) (node?_eq_none_iff.mp hfind)
    | some found =>
        have hid : found.id = node.id := by simpa using List.find?_some hfind
        rw [List.inj_on_of_nodup_map hg (List.mem_of_find?_eq_some hfind) hmem hid]

theorem incomingLink?_eq_none_iff {id : NodeId} {input : UInt64} :
    g.incomingLink? id input = none ↔ ∀ link ∈ g.links, link.slot ≠ (id, input) := by
  simp [incomingLink?]

theorem incomingLink?_eq_some_iff (hwriters : (g.links.map Link.slot).Nodup) {id : NodeId}
    {input : UInt64} {link : Link} :
    g.incomingLink? id input = some link ↔ link ∈ g.links ∧ link.slot = (id, input) := by
  constructor
  · intro h
    exact ⟨List.mem_of_find?_eq_some h, by simpa using List.find?_some h⟩
  · rintro ⟨hlink, hslot⟩
    cases hfind : g.incomingLink? id input with
    | none => exact absurd hslot (incomingLink?_eq_none_iff.mp hfind link hlink)
    | some found =>
        have hfound : found.slot = (id, input) := by simpa using List.find?_some hfind
        rw [List.inj_on_of_nodup_map hwriters (List.mem_of_find?_eq_some hfind) hlink
          (hfound.trans hslot.symm)]

theorem position?_eq_some_iff (hg : g.nodeIds.Nodup) {id : NodeId} {place : Nat} :
    g.position? id = some place ↔ g.nodeIds[place]? = some id := by
  have hidx : g.position? id = g.nodeIds.findIdx? (· = id) := by
    simp [position?, nodeIds, List.findIdx?_map, Function.comp_def]
  rw [hidx]
  constructor
  · intro h
    obtain ⟨hlt, hplace, -⟩ := List.findIdx?_eq_some_iff_getElem.mp h
    rw [List.getElem?_eq_getElem hlt]
    simpa using hplace
  · intro h
    obtain ⟨hlt, rfl⟩ := List.getElem?_eq_some_iff.mp h
    refine List.findIdx?_eq_some_iff_getElem.mpr ⟨hlt, by simp, fun other hother => ?_⟩
    have hne : other ≠ place := Nat.ne_of_lt hother
    simpa [List.Nodup.getElem_inj_iff hg] using hne

theorem position?_eq_some_placeOf (hg : g.nodeIds.Nodup) {id : NodeId} (hid : id ∈ g.nodeIds) :
    g.position? id = some (g.placeOf id) := by
  obtain ⟨place, hplace⟩ := List.mem_iff_getElem?.mp hid
  have hposition := (position?_eq_some_iff hg).mpr hplace
  simp [placeOf, hposition]

theorem placeOf_lt (hg : g.nodeIds.Nodup) {id : NodeId} (hid : id ∈ g.nodeIds) :
    g.placeOf id < g.nodes.length := by
  have hplace := (position?_eq_some_iff hg).mp (position?_eq_some_placeOf hg hid)
  obtain ⟨hlt, -⟩ := List.getElem?_eq_some_iff.mp hplace
  simpa using hlt

@[simp] theorem idAt_placeOf (hg : g.nodeIds.Nodup) {id : NodeId} (hid : id ∈ g.nodeIds) :
    g.idAt (g.placeOf id) = id := by
  simp [idAt, (position?_eq_some_iff hg).mp (position?_eq_some_placeOf hg hid)]

theorem getElem?_nodeIds {place : Nat} (hplace : place < g.nodes.length) :
    g.nodeIds[place]? = some (g.idAt place) := by
  have hlt : place < g.nodeIds.length := by simpa using hplace
  rw [idAt, List.getElem?_eq_getElem hlt, Option.getD_some]

theorem idAt_mem {place : Nat} (hplace : place < g.nodes.length) : g.idAt place ∈ g.nodeIds :=
  List.mem_of_getElem? (getElem?_nodeIds hplace)

theorem placeOf_idAt (hg : g.nodeIds.Nodup) {place : Nat} (hplace : place < g.nodes.length) :
    g.placeOf (g.idAt place) = place := by
  simp [placeOf, (position?_eq_some_iff hg).mpr (getElem?_nodeIds hplace)]

/-! ### Edges -/

theorem mem_edges_iff {source target : Nat} :
    (source, target) ∈ g.edges ↔ ∃ link ∈ g.links,
      g.position? link.source = some source ∧ g.position? link.target = some target := by
  simp only [edges, List.mem_filterMap]
  refine exists_congr fun link => and_congr_right fun _ => ?_
  cases g.position? link.source <;> cases g.position? link.target <;>
    simp [bind, Option.bind, pure]

theorem lt_of_mem_edges (hg : g.nodeIds.Nodup) {edge : Edge} (h : edge ∈ g.edges) :
    edge.1 < g.nodes.length ∧ edge.2 < g.nodes.length := by
  obtain ⟨link, -, hsource, htarget⟩ := mem_edges_iff.mp h
  have hsource := (List.getElem?_eq_some_iff.mp ((position?_eq_some_iff hg).mp hsource)).1
  have htarget := (List.getElem?_eq_some_iff.mp ((position?_eq_some_iff hg).mp htarget)).1
  exact ⟨by simpa using hsource, by simpa using htarget⟩

theorem precedes_of_feeds (hg : g.nodeIds.Nodup) (a b : NodeId) (h : g.Feeds a b) :
    Precedes g.edges (g.placeOf a) (g.placeOf b) := by
  obtain ⟨ha, hb, link, hlink, rfl, rfl⟩ := h
  exact mem_edges_iff.mpr
    ⟨link, hlink, position?_eq_some_placeOf hg ha, position?_eq_some_placeOf hg hb⟩

theorem feeds_of_precedes (hg : g.nodeIds.Nodup) (source target : Nat)
    (h : Precedes g.edges source target) : g.Feeds (g.idAt source) (g.idAt target) := by
  obtain ⟨hsource, htarget⟩ := lt_of_mem_edges hg h
  obtain ⟨link, hlink, hs, ht⟩ := mem_edges_iff.mp h
  rw [position?_eq_some_iff hg, getElem?_nodeIds hsource, Option.some.injEq] at hs
  rw [position?_eq_some_iff hg, getElem?_nodeIds htarget, Option.some.injEq] at ht
  exact ⟨idAt_mem hsource, idAt_mem htarget, link, hlink, hs.symm, ht.symm⟩

theorem stepsTo_precedes_iff (hg : g.nodeIds.Nodup) {n place : Nat}
    (hplace : place < g.nodes.length) :
    StepsTo (Precedes g.edges) n place ↔ StepsTo g.Feeds n (g.idAt place) := by
  constructor
  · exact StepsTo.map (feeds_of_precedes hg)
  · intro h
    have hmap := h.map (precedes_of_feeds hg)
    rwa [placeOf_idAt hg hplace] at hmap

/-! ### Several places at once -/

theorem idsAt_eq_map {places : List Nat} (h : ∀ place ∈ places, place < g.nodes.length) :
    g.idsAt places = places.map g.idAt := by
  rw [idsAt, ← List.filterMap_eq_map]
  exact List.filterMap_congr fun place hplace => getElem?_nodeIds (h place hplace)

theorem map_idAt_range : (List.range g.nodes.length).map g.idAt = g.nodeIds := by
  apply List.ext_getElem?
  intro place
  by_cases hplace : place < g.nodes.length
  · rw [getElem?_nodeIds hplace]
    simp [hplace]
  · simp [hplace]

end Graph

end Dataflow

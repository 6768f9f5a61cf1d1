import Dataflow.Proofs.Dependencies
import Dataflow.Proofs.Document.Loading
import Dataflow.Proofs.Document.Saving
import Dataflow.Proofs.Graph.Defects

/-! # What a document is saved as

A document that is loaded and saved comes back as it was but for its counters and its marks. The
marks of a socket are the ids of its links. They are not read when a document is loaded, and they
are made anew from the links. In a graph without defects every link leaves one mark at each of its
ends.
-/

namespace Dataflow

namespace Document

/-- An entry of a socket without its marks. -/
def SocketEntry.bare (entry : SocketEntry) : SocketEntry :=
  { entry with link := none, links := none }

/-- The ids of links that a socket is marked with. -/
def SocketEntry.marks (entry : SocketEntry) : List UInt64 :=
  entry.link.toList ++ entry.links.getD []

/-- An entry of a node without the marks of its sockets. -/
def NodeEntry.bare (entry : NodeEntry) : NodeEntry :=
  { entry with
    inputs := entry.inputs.map SocketEntry.bare
    outputs := entry.outputs.map SocketEntry.bare }

/-- An input is marked with the first link of a document that ends at it, and an output with all
links of the document that start from it. -/
structure NodeEntry.MarkedBy (entry : NodeEntry) (d : Document) : Prop where
  inputs : ∀ (place : Nat) (socket : SocketEntry), entry.inputs[place]? = some socket →
    socket.link = (d.links.find? fun link =>
      link.target = entry.id ∧ link.input = UInt64.ofNat place).map LinkEntry.id ∧
    socket.links = none
  outputs : ∀ (place : Nat) (socket : SocketEntry), entry.outputs[place]? = some socket →
    socket.link = none ∧
    socket.links =
      let ids := (d.links.filter fun link =>
        link.source = entry.id ∧ link.output.toNat = place).map LinkEntry.id
      if ids = [] then none else some ids

end Document

open Document

/-- The entry of a socket without links. -/
def Socket.entry (socket : Socket) : SocketEntry :=
  ⟨socket.name, socket.typeHint, none, none⟩

/-- The entries of the sockets of a node for an end. -/
def LinkEnd.entries : LinkEnd → NodeEntry → List SocketEntry
  | .source, entry => entry.outputs
  | .target, entry => entry.inputs

/-- A document without marks. -/
def Document.bare (d : Document) : Document :=
  { d with nodes := d.nodes.map NodeEntry.bare }

/-- The marks at the sockets for an end. -/
def Document.marks (d : Document) (linkEnd : LinkEnd) : List UInt64 :=
  d.nodes.flatMap fun entry => (linkEnd.entries entry).flatMap SocketEntry.marks

namespace Graph

variable {g : Graph}

/-! ### Entries -/

theorem bare_nodeEntry_node (g : Graph) (entry : NodeEntry) :
    (g.nodeEntry entry.node).bare = entry.bare := by
  have hinputs : (g.nodeEntry entry.node).inputs.map SocketEntry.bare =
      entry.node.inputs.map Socket.entry :=
    map_mapIdx_eq_map SocketEntry.bare Socket.entry (fun _ _ => rfl) _
  have houtputs : (g.nodeEntry entry.node).outputs.map SocketEntry.bare =
      entry.node.outputs.map Socket.entry :=
    map_mapIdx_eq_map SocketEntry.bare Socket.entry (fun _ _ => rfl) _
  have hsockets : ∀ sockets : List SocketEntry,
      (sockets.map SocketEntry.socket).map Socket.entry = sockets.map SocketEntry.bare :=
    fun sockets => List.map_map
  rw [NodeEntry.bare, hinputs, houtputs, NodeEntry.bare, ← hsockets, ← hsockets]
  cases entry with
  | mk id nodeType => cases nodeType <;> rfl

/-- Loading a document does not read its marks. -/
theorem ofDocument_bare (d : Document) : ofDocument d.bare = ofDocument d := by
  have hnode : ∀ entry : NodeEntry, entry.bare.node = entry.node := by
    intro entry
    simp only [NodeEntry.node, NodeEntry.bare, List.map_map]
    rfl
  simp only [ofDocument, Document.bare, List.foldlM_map, hnode]

theorem Loads.bare_toDocument {d : Document} (h : Loads d g) :
    g.toDocument.nodes.map NodeEntry.bare = d.nodes.map NodeEntry.bare := by
  rw [toDocument, h.nodes, List.map_map, List.map_map]
  exact List.map_congr_left fun entry _ => g.bare_nodeEntry_node entry

theorem Loads.links_toDocument {d : Document} (h : Loads d g) : g.toDocument.links = d.links := by
  rw [toDocument, h.links, List.map_map]
  exact List.map_id _

theorem mk_eq_iff {n : UInt64} {id : NodeId} : (⟨n⟩ : NodeId) = id ↔ n = id.value :=
  ⟨congrArg NodeId.value, congrArg NodeId.mk⟩

theorem Loads.incomingLink?_eq {d : Document} (h : Loads d g) (id : NodeId) (input : UInt64) :
    (g.incomingLink? id input).map (·.id.value) = (d.links.find? fun link =>
      link.target = id.value ∧ link.input = input).map LinkEntry.id := by
  have hends : ∀ link : LinkEntry, link.link.slot = (id, input) ↔
      link.target = id.value ∧ link.input = input := by
    intro link
    rw [← mk_eq_iff]
    exact Prod.mk_inj
  rw [incomingLink?, h.links, List.find?_map, Option.map_map]
  simp only [Function.comp_def, hends]
  rfl

theorem Loads.outgoingLinks_eq {d : Document} (h : Loads d g) (id : NodeId) (place : Nat) :
    ((g.outgoingLinks id).filter (·.output.toNat = place)).map (·.id.value) =
      (d.links.filter fun link =>
        link.source = id.value ∧ link.output.toNat = place).map LinkEntry.id := by
  have hends : ∀ link : LinkEntry, link.link.source = id ↔ link.source = id.value :=
    fun link => mk_eq_iff
  rw [outgoingLinks, h.links, List.filter_filter, List.filter_map, List.map_map]
  simp only [Function.comp_def, hends, Bool.decide_and, Bool.and_comm]
  rfl

theorem Loads.markedBy {d : Document} (h : Loads d g) {entry : NodeEntry}
    (hentry : entry ∈ g.toDocument.nodes) : entry.MarkedBy d := by
  obtain ⟨node, -, rfl⟩ := List.mem_map.mp hentry
  constructor
  · intro place socket hsocket
    obtain ⟨socket, -, rfl⟩ : ∃ s, node.inputs[place]? = some s ∧
        g.inputEntry node.id s place = socket := by
      simpa [nodeEntry] using hsocket
    exact ⟨h.incomingLink?_eq node.id _, rfl⟩
  · intro place socket hsocket
    obtain ⟨socket, -, rfl⟩ : ∃ s, node.outputs[place]? = some s ∧
        g.outputEntry node.id s place = socket := by
      simpa [nodeEntry] using hsocket
    refine ⟨rfl, ?_⟩
    simp only [outputEntry, h.outgoingLinks_eq, List.isEmpty_iff]
    rfl

/-! ### Marks of links -/

/-- The links that a socket is marked with. -/
def linksAt (g : Graph) : LinkEnd → NodeId → Nat → List Link
  | .source, id, place => (g.outgoingLinks id).filter (·.output.toNat = place)
  | .target, id, place => (g.incomingLink? id (UInt64.ofNat place)).toList

/-- The links that the sockets for an end are marked with, one socket after the other. -/
def linksAtEnds (g : Graph) (linkEnd : LinkEnd) : List Link :=
  g.nodes.flatMap fun node =>
    (List.range (linkEnd.sockets node).length).flatMap (g.linksAt linkEnd node.id)

theorem marks_inputEntry (g : Graph) (id : NodeId) (socket : Socket) (place : Nat) :
    (g.inputEntry id socket place).marks = (g.linksAt .target id place).map (·.id.value) := by
  rw [SocketEntry.marks, inputEntry, linksAt]
  cases g.incomingLink? id (UInt64.ofNat place) <;> rfl

theorem marks_outputEntry (g : Graph) (id : NodeId) (socket : Socket) (place : Nat) :
    (g.outputEntry id socket place).marks = (g.linksAt .source id place).map (·.id.value) := by
  rw [SocketEntry.marks, outputEntry, linksAt]
  dsimp only
  split
  next hempty => exact (List.isEmpty_iff.mp hempty).symm
  next => rfl

theorem flatMap_mapIdx {α β γ : Type} {f : Nat → α → β} {f' : β → List γ} {f'' : Nat → List γ}
    (h : ∀ n a, f' (f n a) = f'' n) (as : List α) :
    (as.mapIdx f).flatMap f' = (List.range as.length).flatMap f'' := by
  rw [List.flatMap_def, List.flatMap_def]
  congr 1
  exact List.ext_getElem (by simp) (by simp [h])

theorem marks_toDocument (g : Graph) (linkEnd : LinkEnd) :
    g.toDocument.marks linkEnd = (g.linksAtEnds linkEnd).map (·.id.value) := by
  rw [Document.marks, toDocument, List.flatMap_map, linksAtEnds, List.map_flatMap]
  congr 1
  funext node
  rw [List.map_flatMap]
  cases linkEnd with
  | source => exact flatMap_mapIdx (fun place socket => g.marks_outputEntry node.id socket place) _
  | target => exact flatMap_mapIdx (fun place socket => g.marks_inputEntry node.id socket place) _

theorem mem_linksAt_iff (hg : g.Valid) {linkEnd : LinkEnd} {id : NodeId} {place : Nat}
    (hplace : linkEnd = .target → place < UInt64.size) {link : Link} :
    link ∈ g.linksAt linkEnd id place ↔
      link ∈ g.links ∧ linkEnd.node link = id ∧ (linkEnd.index link).toNat = place := by
  cases linkEnd with
  | source =>
      rw [linksAt, outgoingLinks, List.filter_filter, List.mem_filter, and_comm (a := _ = id)]
      simp [LinkEnd.node, LinkEnd.index]
  | target =>
      have hinput : link.input = UInt64.ofNat place ↔ link.input.toNat = place := by
        rw [← UInt64.toNat_inj, UInt64.toNat_ofNat_of_lt' (hplace rfl)]
      rw [linksAt, Option.mem_toList, incomingLink?_eq_some_iff hg.writers, Link.slot, Prod.mk_inj,
        hinput]
      rfl

theorem node_of_mem_linksAt {linkEnd : LinkEnd} {id : NodeId} {place : Nat} {link : Link}
    (h : link ∈ g.linksAt linkEnd id place) : linkEnd.node link = id := by
  cases linkEnd with
  | source => exact of_decide_eq_true (List.mem_filter.mp (List.mem_filter.mp h).1).2
  | target =>
      have hfind : g.incomingLink? id (UInt64.ofNat place) = some link := Option.mem_toList.mp h
      have hslot : link.slot = (id, UInt64.ofNat place) := by simpa using List.find?_some hfind
      exact congrArg Prod.fst hslot

theorem nodup_linksAt (hg : g.links.Nodup) (linkEnd : LinkEnd) (id : NodeId) (place : Nat) :
    (g.linksAt linkEnd id place).Nodup := by
  cases linkEnd with
  | source => exact (hg.filter _).filter _
  | target => exact Option.toList_nodup _

theorem Valid.exists_socket (hg : g.Valid) {link : Link} (hlink : link ∈ g.links)
    (linkEnd : LinkEnd) : ∃ node ∈ g.nodes, node.id = linkEnd.node link ∧
      (linkEnd.index link).toNat < (linkEnd.sockets node).length := by
  cases linkEnd with
  | source => exact (hg.ends link hlink).1
  | target => exact (hg.ends link hlink).2

theorem Addressable.lt_size (hsmall : g.Addressable) {node : Node} (hnode : node ∈ g.nodes)
    {linkEnd : LinkEnd} {place : Nat} (hplace : place ∈ List.range (linkEnd.sockets node).length) :
    linkEnd = .target → place < UInt64.size := by
  rintro rfl
  exact Nat.lt_of_lt_of_le (List.mem_range.mp hplace) (hsmall node hnode)

theorem nodup_linksAtEnds (hg : g.Valid) (hids : g.nodeIds.Nodup) (hlinks : g.links.Nodup)
    (hsmall : g.Addressable) (linkEnd : LinkEnd) : (g.linksAtEnds linkEnd).Nodup := by
  refine List.nodup_flatMap.mpr ⟨fun node hnode => List.nodup_flatMap.mpr ⟨?_, ?_⟩, ?_⟩
  · intro place _
    exact nodup_linksAt hlinks linkEnd node.id place
  · refine List.nodup_range.imp_of_mem fun hplace hplace' hne link h h' => hne ?_
    obtain ⟨-, -, hindex⟩ := (mem_linksAt_iff hg (hsmall.lt_size hnode hplace)).mp h
    obtain ⟨-, -, hindex'⟩ := (mem_linksAt_iff hg (hsmall.lt_size hnode hplace')).mp h'
    exact hindex.symm.trans hindex'
  · refine (List.pairwise_map.mp hids).imp fun hne link h h' => hne ?_
    obtain ⟨place, -, h⟩ := List.mem_flatMap.mp h
    obtain ⟨place', -, h'⟩ := List.mem_flatMap.mp h'
    exact (node_of_mem_linksAt h).symm.trans (node_of_mem_linksAt h')

/-- Where there are no defects, every link is marked at the one socket where it ends. -/
theorem linksAtEnds_perm (hg : g.Valid) (hids : g.nodeIds.Nodup) (hlinks : g.links.Nodup)
    (hsmall : g.Addressable) (linkEnd : LinkEnd) : (g.linksAtEnds linkEnd).Perm g.links := by
  refine (List.perm_ext_iff_of_nodup (nodup_linksAtEnds hg hids hlinks hsmall linkEnd) hlinks).mpr
    fun link => ⟨fun hmem => ?_, fun hlink => ?_⟩
  · obtain ⟨node, hnode, hmem⟩ := List.mem_flatMap.mp hmem
    obtain ⟨place, hplace, hmem⟩ := List.mem_flatMap.mp hmem
    exact ((mem_linksAt_iff hg (hsmall.lt_size hnode hplace)).mp hmem).1
  · obtain ⟨node, hnode, hid, hlt⟩ := hg.exists_socket hlink linkEnd
    have hplace := List.mem_range.mpr hlt
    exact List.mem_flatMap.mpr ⟨node, hnode, List.mem_flatMap.mpr ⟨_, hplace,
      (mem_linksAt_iff hg (hsmall.lt_size hnode hplace)).mpr ⟨hlink, hid.symm, rfl⟩⟩⟩

theorem marks_toDocument_perm (hkept : g.WellKept) (hg : g.Valid) (hsmall : g.Addressable)
    (linkEnd : LinkEnd) : (g.toDocument.marks linkEnd).Perm (g.links.map (·.id.value)) := by
  have hlinks : g.links.Nodup := .of_map _ hkept.nodup_linkIds
  rw [marks_toDocument]
  exact (linksAtEnds_perm hg hkept.nodup_nodeIds hlinks hsmall linkEnd).map _

/-! ### Documents -/

/-- Loading fails for the first id of a node that is given twice, or else for the first id of a link
that is given twice, and for nothing else. What is loaded is saved as it was: nodes and links in
their order, and counters that are the highest of the ids there are and the stored ones. Its marks
come from its links, whatever the marks were before, and where there are no defects every link is
marked once at each end. -/
theorem loading_exact (d : Document) :
    (∀ e, ofDocument d = .error e ↔
      (∃ id, FirstRepeated (d.nodes.map NodeEntry.id) id ∧ e = .duplicateNodeId ⟨id⟩) ∨
        (d.nodes.map NodeEntry.id).Nodup ∧
          ∃ id, FirstRepeated (d.links.map LinkEntry.id) id ∧ e = .duplicateLinkId ⟨id⟩) ∧
      ((∃ e, ofDocument d = .error e) ↔
        ¬ (d.nodes.map NodeEntry.id).Nodup ∨ ¬ (d.links.map LinkEntry.id).Nodup) ∧
      ∀ g, ofDocument d = .ok g →
        g.toDocument.nodes.map NodeEntry.bare = d.nodes.map NodeEntry.bare ∧
        g.toDocument.links = d.links ∧
        g.toDocument.lastNodeId = (d.lastNodeId.getD 0 :: d.nodes.map NodeEntry.id).max? ∧
        g.toDocument.lastLinkId = (d.lastLinkId.getD 0 :: d.links.map LinkEntry.id).max? ∧
        (∀ entry ∈ g.toDocument.nodes, entry.MarkedBy d) ∧
        (∀ d' : Document, d'.bare = d.bare → ofDocument d' = .ok g) ∧
        (g.validate = [] → g.Addressable → ∀ link ∈ d.links, ∀ linkEnd,
          (g.toDocument.marks linkEnd).count link.id = 1) := by
  refine ⟨fun e => ofDocument_eq_error_iff, ?_, fun g h => ?_⟩
  · simp only [ofDocument_eq_error_iff, ← exists_firstRepeated_iff]
    constructor
    · rintro ⟨-, ⟨id, hid, -⟩ | ⟨-, id, hid, -⟩⟩
      · exact .inl ⟨id, hid⟩
      · exact .inr ⟨id, hid⟩
    · intro h
      by_cases hnodes : (d.nodes.map NodeEntry.id).Nodup
      · rcases h with h | ⟨id, hid⟩
        · exact absurd hnodes (exists_firstRepeated_iff.mp h)
        · exact ⟨_, .inr ⟨hnodes, id, hid, rfl⟩⟩
      · obtain ⟨id, hid⟩ := exists_firstRepeated_iff.mpr hnodes
        exact ⟨_, .inl ⟨id, hid, rfl⟩⟩
  · have hloads := loads_of_ofDocument h
    have hkept := WellKept.ofDocument h
    refine ⟨hloads.bare_toDocument, hloads.links_toDocument, hloads.lastNodeId, hloads.lastLinkId,
      fun entry hentry => hloads.markedBy hentry, fun d' hbare => ?_, ?_⟩
    · rw [← ofDocument_bare, hbare, ofDocument_bare, h]
    · intro hvalidate hsmall link hlink linkEnd
      have hvalid := (validate_eq_nil_iff hkept.nodup_nodeIds).mp hvalidate
      have hids : g.links.map (·.id.value) = d.links.map LinkEntry.id := by
        rw [hloads.links, List.map_map]
        rfl
      have hnodup : (g.links.map (·.id.value)).Nodup := by
        refine .of_map LinkId.mk ?_
        rw [List.map_map]
        exact hkept.nodup_linkIds
      rw [(marks_toDocument_perm hkept hvalid hsmall linkEnd).count_eq]
      exact List.count_eq_one_of_mem hnodup (hids ▸ List.mem_map_of_mem hlink)

/-- Two nodes with two links between them, with counters that are too low and marks of links that
are gone. -/
def outdatedDocument : Document where
  lastNodeId := some 1
  lastLinkId := none
  nodes :=
    [⟨4, .load, ⟨"a.py", "f"⟩, [], [⟨"out", some "int", some 9, some [7, 8]⟩], .empty⟩,
      ⟨2, .function, ⟨"b.py", "g"⟩, [⟨"x", none, none, some []⟩, ⟨"y", none, some 7, none⟩], [],
        .empty⟩]
  links := [⟨3, 4, 0, 2, 1, none⟩, ⟨5, 4, 0, 2, 0, none⟩]

/-- This document is loaded, and it is not when all its links are given twice. -/
theorem loading_exact_outdatedDocument :
    (∃ g, ofDocument outdatedDocument = .ok g ∧ ofDocument outdatedDocument.bare = .ok g ∧
      g.toDocument.lastNodeId = some 4 ∧ g.toDocument.lastLinkId = some 5 ∧
      g.toDocument.links = outdatedDocument.links ∧
      ∀ linkEnd, (g.toDocument.marks linkEnd).count 3 = 1) ∧
    ofDocument { outdatedDocument with links := outdatedDocument.links ++ outdatedDocument.links } =
      .error (.duplicateLinkId ⟨3⟩) := by
  constructor
  · obtain ⟨-, -, hok⟩ := loading_exact outdatedDocument
    obtain ⟨-, hlinks, hlastNode, hlastLink, -, hmarks, hcount⟩ := hok _ rfl
    exact ⟨_, rfl, hmarks _ rfl, hlastNode, hlastLink, hlinks,
      hcount (by cbv) (by decide) ⟨3, 4, 0, 2, 1, none⟩ List.mem_cons_self⟩
  · obtain ⟨herror, -⟩ := loading_exact
      { outdatedDocument with links := outdatedDocument.links ++ outdatedDocument.links }
    exact (herror _).mpr (.inr ⟨by decide, 3, ⟨[3, 5], [5], rfl, by decide, by decide⟩, rfl⟩)

end Graph

end Dataflow

import Dataflow.CommandLine.Answer
import Dataflow.Proofs.Document.Loading
import Dataflow.Proofs.Document.Saving

/-! # Graphs in files

What is loaded from a file can be saved again, and then it is loaded as it was. A graph that is
changed before it is saved is loaded as it was saved unless its values nest deeper than a file
allows.
-/

namespace Dataflow

namespace Graph

open Document

variable {g : Graph}

/-- What a graph must have for being loaded as it was saved, the depth of its values apart. -/
structure Storable (g : Graph) : Prop where
  wellKept : g.WellKept
  pending : ∀ node ∈ g.nodes, node.status = .pending
  readsBack : ∀ node ∈ g.nodes, (Json.ofMap node.parameters).ReadsBack

/-- The values of every node can be nested in a graph file as deep as they are. -/
def Shallow (g : Graph) : Prop :=
  ∀ node ∈ g.nodes, (Json.ofMap node.parameters).depth ≤ 124

theorem Storable.empty : Storable .empty :=
  ⟨.empty, nofun, nofun⟩

theorem shallow_empty : Shallow .empty :=
  nofun

theorem Storable.resetStatuses (hg : g.Storable) : g.resetStatuses = g := by
  have hnodes : g.nodes.map (fun node => { node with status := .pending }) = g.nodes := by
    refine (List.map_congr_left fun node hnode => ?_).trans (List.map_id _)
    exact congrArg (fun status => { node with status := status }) (hg.pending node hnode).symm
  rw [Graph.resetStatuses, hnodes]

section

variable {kind : NodeKind} {inputs outputs : List Socket} {parameters : Values}

theorem forall_mem_addNode {p : Node → Prop} :
    (∀ node ∈ (g.addNode kind inputs outputs parameters).2.nodes, p node) ↔
      (∀ node ∈ g.nodes, p node) ∧
        p ⟨⟨g.lastNodeId + 1⟩, kind, inputs, outputs, parameters, .pending⟩ := by
  simp [addNode, or_imp, forall_and]

theorem Storable.addNode (hg : g.Storable) (hroom : g.lastNodeId.toNat + 1 < UInt64.size)
    (hreads : (Json.ofMap parameters).ReadsBack) :
    (g.addNode kind inputs outputs parameters).2.Storable where
  wellKept := hg.wellKept.edit (.addNode g kind inputs outputs parameters hroom)
  pending := forall_mem_addNode.mpr ⟨hg.pending, rfl⟩
  readsBack := forall_mem_addNode.mpr ⟨hg.readsBack, hreads⟩

theorem Shallow.addNode_iff (hg : g.Shallow) :
    (g.addNode kind inputs outputs parameters).2.Shallow ↔
      (Json.ofMap parameters).depth ≤ 124 :=
  forall_mem_addNode.trans (and_iff_right hg)

end

end Graph

namespace CommandLine

open Dataflow.Graph Document

variable {g : Graph} {path : FilePath} {text : String}

theorem readGraph_eq_ok_iff :
    readGraph path text = .ok g ↔ ∃ d, ofText text = .ok d ∧ ofDocument d = .ok g := by
  simp only [readGraph, bind_eq_ok_iff, mapError_eq_ok_iff]

/-- Every graph in a file is storable and shallow, if only its numbers are read back. -/
theorem storable_of_readGraph (h : readGraph path text = .ok g)
    (hnumbers : ∀ node ∈ g.nodes, (Json.ofMap node.parameters).ReadsBack) :
    g.Storable ∧ g.Shallow := by
  obtain ⟨d, htext, hdocument⟩ := readGraph_eq_ok_iff.mp h
  have hnodes {p : Node → Prop} (hentries : ∀ entry ∈ d.nodes, p entry.node) :
      ∀ node ∈ g.nodes, p node := by
    rw [(loads_of_ofDocument hdocument).nodes]
    exact List.forall_mem_map.mpr hentries
  exact ⟨⟨.ofDocument hdocument, hnodes fun _ _ => rfl, hnumbers⟩,
    hnodes fun _ hentry => depth_le_of_ofText htext hentry⟩

/-- A storable graph is read from the text that it is saved as just when it is shallow. -/
theorem readGraph_text_eq_ok_iff (hg : g.Storable) {g' : Graph} :
    readGraph path g.toDocument.text = .ok g' ↔ g.Shallow ∧ g' = g := by
  have hnumbers : ∀ entry ∈ g.toDocument.nodes, (Json.ofMap entry.widgetParameter).ReadsBack :=
    List.forall_mem_map.mpr hg.readsBack
  have hshallow : (∀ entry ∈ g.toDocument.nodes, (Json.ofMap entry.widgetParameter).depth ≤ 124) ↔
      g.Shallow := List.forall_mem_map
  have hload : ofDocument g.toDocument = .ok g := by
    rw [ofDocument_toDocument hg.wellKept, hg.resetStatuses]
  simp only [readGraph_eq_ok_iff, ofText_text_eq_ok_iff hnumbers, hshallow]
  constructor
  · rintro ⟨_, ⟨hdepth, rfl⟩, hloaded⟩
    exact ⟨hdepth, Except.ok.inj (hloaded.symm.trans hload)⟩
  · rintro ⟨hdepth, rfl⟩
    exact ⟨_, ⟨hdepth, rfl⟩, hload⟩

/-- What is loaded and saved is loaded again. -/
theorem readGraph_text_of_readGraph (h : readGraph path text = .ok g)
    (hnumbers : ∀ node ∈ g.nodes, (Json.ofMap node.parameters).ReadsBack) :
    readGraph path g.toDocument.text = .ok g := by
  obtain ⟨hstorable, hshallow⟩ := storable_of_readGraph h hnumbers
  exact (readGraph_text_eq_ok_iff hstorable).mpr ⟨hshallow, rfl⟩

end CommandLine

end Dataflow

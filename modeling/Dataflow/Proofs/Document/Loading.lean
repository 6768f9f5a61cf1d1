import Dataflow.Proofs.Graph.Store
import Mathlib.Data.List.Induction

/-! # Loading documents

Nodes are inserted before links, each under the id that the document gives it. The first id that is
given twice is the reason for a failure, and there is no other reason. What is loaded otherwise are
the nodes and the links of the document, and the counters are as high as they have to be.
-/

namespace Dataflow

/-! ### Repetitions -/

/-- An element that stands in a list a second time, and before which there are no repetitions. -/
def FirstRepeated {α : Type} (as : List α) (a : α) : Prop :=
  ∃ before after, as = before ++ a :: after ∧ before.Nodup ∧ a ∈ before

section Repetitions

variable {α : Type} {a b : α}

theorem FirstRepeated.not_nodup {as : List α} (h : FirstRepeated as a) : ¬ as.Nodup := by
  obtain ⟨before, after, rfl, -, ha⟩ := h
  intro hnodup
  exact List.disjoint_of_nodup_append hnodup ha List.mem_cons_self

/-- There is only one first repetition. -/
theorem firstRepeated_append_cons_iff {before after : List α} (hbefore : before.Nodup)
    (ha : a ∈ before) : FirstRepeated (before ++ a :: after) b ↔ b = a := by
  constructor
  · rintro ⟨before', after', hsplit, hbefore', hb⟩
    rcases List.append_eq_append_iff.mp hsplit with ⟨between, rfl, hrest⟩ | ⟨between, rfl, hrest⟩
    · cases between with
      | nil => exact (List.cons.inj hrest).1.symm
      | cons c between =>
          obtain rfl := (List.cons.inj hrest).1
          exact absurd List.mem_cons_self (List.disjoint_of_nodup_append hbefore' ha)
    · cases between with
      | nil => exact (List.cons.inj hrest).1
      | cons c between =>
          obtain rfl := (List.cons.inj hrest).1
          exact absurd List.mem_cons_self (List.disjoint_of_nodup_append hbefore hb)
  · rintro rfl
    exact ⟨before, after, rfl, hbefore, ha⟩

theorem exists_firstRepeated_iff {as : List α} : (∃ a, FirstRepeated as a) ↔ ¬ as.Nodup := by
  refine ⟨fun ⟨a, ha⟩ => ha.not_nodup, fun h => ?_⟩
  induction as using List.reverseRecOn with
  | nil => exact absurd List.nodup_nil h
  | append_singleton as a ih =>
      by_cases hnodup : as.Nodup
      · have ha : a ∈ as := by
          by_contra hnew
          rw [← List.concat_eq_append] at h
          exact h (hnodup.concat hnew)
        exact ⟨a, as, [], rfl, hnodup, ha⟩
      · obtain ⟨b, before, after, rfl, hbefore, hb⟩ := ih hnodup
        exact ⟨b, before, after ++ [a], by simp, hbefore, hb⟩

/-- Inserting fails for a key that is there already, and for no other reason. -/
structure InsertsOnce {σ ι ε : Type} (insert : σ → α → Except ε σ) (keys : σ → List ι)
    (key : α → ι) (failure : ι → ε) : Prop where
  error : ∀ s a e, insert s a = .error e ↔ key a ∈ keys s ∧ e = failure (key a)
  ok : ∀ s a s', insert s a = .ok s' → keys s' = keys s ++ [key a]

/-- Inserting one after the other fails for the first key that is repeated. -/
theorem InsertsOnce.foldlM_eq_error_iff {σ ι ε : Type} {insert : σ → α → Except ε σ}
    {keys : σ → List ι} {key : α → ι} {failure : ι → ε}
    (h : InsertsOnce insert keys key failure) {s : σ} (hs : (keys s).Nodup) {as : List α} {e : ε} :
    as.foldlM insert s = .error e ↔
      ∃ i, FirstRepeated (keys s ++ as.map key) i ∧ e = failure i := by
  induction as generalizing s with
  | nil =>
      refine iff_of_false (by simp [pure, Except.pure]) ?_
      rintro ⟨i, hrepeated, -⟩
      exact hrepeated.not_nodup (by simpa using hs)
  | cons a as ih =>
      rw [List.foldlM_cons]
      cases hinsert : insert s a with
      | error e' =>
          obtain ⟨hmem, rfl⟩ := (h.error s a e').mp hinsert
          simp only [List.map_cons, firstRepeated_append_cons_iff hs hmem]
          simp [bind, Except.bind, eq_comm]
      | ok s' =>
          have hkeys := h.ok s a s' hinsert
          have hnew : key a ∉ keys s := by
            intro hmem
            have hfails := (h.error s a _).mpr ⟨hmem, rfl⟩
            rw [hinsert] at hfails
            cases hfails
          have hs' : (keys s').Nodup := by
            rw [hkeys, ← List.concat_eq_append]
            exact hs.concat hnew
          have hrest := ih hs'
          rw [hkeys, List.append_assoc, List.singleton_append] at hrest
          exact hrest

theorem InsertsOnce.foldlM_empty_eq_error_iff {σ ι ε : Type} {insert : σ → α → Except ε σ}
    {keys : σ → List ι} {key : α → ι} {failure : ι → ε}
    (h : InsertsOnce insert keys key failure) {s : σ} (hs : keys s = []) {as : List α} {e : ε} :
    as.foldlM insert s = .error e ↔ ∃ i, FirstRepeated (as.map key) i ∧ e = failure i := by
  rw [h.foldlM_eq_error_iff (hs ▸ List.nodup_nil), hs, List.nil_append]

end Repetitions

/-! ### Counters -/

instance lawfulOrderMax : Std.LawfulOrderMax UInt64 where
  max_eq_or a b := by
    change (if a ≤ b then b else a) = a ∨ (if a ≤ b then b else a) = b
    split
    · exact .inr rfl
    · exact .inl rfl
  max_le_iff a b c := by
    obtain ⟨ha, hb⟩ := Graph.counter_le_max a b
    refine ⟨fun h => ⟨UInt64.le_trans ha h, UInt64.le_trans hb h⟩, fun ⟨ha, hb⟩ => ?_⟩
    change (if a ≤ b then b else a) ≤ c
    split
    · exact hb
    · exact ha

namespace Graph

open Document

variable {g g' : Graph}

/-- A counter that has been raised to every id, and then to a stored number, is the highest of all
these. -/
theorem raised_eq_max? (ids : List UInt64) (stored : UInt64) :
    some (max (ids.foldl max 0) stored) = (stored :: ids).max? := by
  have hfirst : (0 :: ids).max? = some (ids.foldl max 0) := List.max?_cons'
  obtain ⟨hmem, hle⟩ := List.max?_eq_some_iff.mp hfirst
  obtain ⟨hids, hstored⟩ := counter_le_max (ids.foldl max 0) stored
  refine (List.max?_eq_some_iff.mpr ⟨?_, ?_⟩).symm
  · rcases Std.MaxEqOr.max_eq_or (ids.foldl max 0) stored with heq | heq
    · rcases List.mem_cons.mp hmem with hzero | hmem
      · -- No id is above zero, and the stored number is not either.
        rw [heq, hzero] at hstored ⊢
        rw [UInt64.le_antisymm hstored UInt64.zero_le]
        exact List.mem_cons_self
      · rw [heq]
        exact List.mem_cons_of_mem _ hmem
    · rw [heq]
      exact List.mem_cons_self
  · intro id hid
    rcases List.mem_cons.mp hid with rfl | hid
    · exact hstored
    · exact UInt64.le_trans (hle id (List.mem_cons_of_mem _ hid)) hids

/-! ### What is loaded -/

theorem foldlM_insertNode_eq_ok {entries : List NodeEntry}
    (h : entries.foldlM (fun g entry => g.insertNode entry.node) g = .ok g') :
    g' = { g with
      nodes := g.nodes ++ entries.map NodeEntry.node
      lastNodeId := (entries.map NodeEntry.id).foldl max g.lastNodeId } := by
  induction entries generalizing g with
  | nil =>
      obtain rfl := pure_eq_ok_iff.mp h
      simp
  | cons entry entries ih =>
      rw [List.foldlM_cons, bind_eq_ok_iff] at h
      obtain ⟨middle, hinsert, hrest⟩ := h
      obtain ⟨-, rfl⟩ := insertNode_eq_ok hinsert
      rw [ih hrest]
      simp [NodeEntry.node]

theorem foldlM_insertLink_eq_ok {entries : List LinkEntry}
    (h : entries.foldlM (fun g entry => g.insertLink entry.link) g = .ok g') :
    g' = { g with
      links := g.links ++ entries.map LinkEntry.link
      lastLinkId := (entries.map LinkEntry.id).foldl max g.lastLinkId } := by
  induction entries generalizing g with
  | nil =>
      obtain rfl := pure_eq_ok_iff.mp h
      simp
  | cons entry entries ih =>
      rw [List.foldlM_cons, bind_eq_ok_iff] at h
      obtain ⟨middle, hinsert, hrest⟩ := h
      obtain ⟨-, rfl⟩ := insertLink_eq_ok hinsert
      rw [ih hrest]
      simp [LinkEntry.link]

/-- A graph has the nodes and the links of a document in their order, and counters that are the
highest ids there are and were. -/
structure Loads (d : Document) (g : Graph) : Prop where
  nodes : g.nodes = d.nodes.map NodeEntry.node
  links : g.links = d.links.map LinkEntry.link
  lastNodeId : some g.lastNodeId = (d.lastNodeId.getD 0 :: d.nodes.map NodeEntry.id).max?
  lastLinkId : some g.lastLinkId = (d.lastLinkId.getD 0 :: d.links.map LinkEntry.id).max?

theorem loads_of_ofDocument {d : Document} (h : ofDocument d = .ok g) : Loads d g := by
  simp only [ofDocument, bind_eq_ok_iff, pure_eq_ok_iff] at h
  obtain ⟨withNodes, hnodes, withLinks, hlinks, rfl⟩ := h
  obtain rfl := foldlM_insertNode_eq_ok hnodes
  obtain rfl := foldlM_insertLink_eq_ok hlinks
  exact ⟨rfl, rfl, raised_eq_max? _ _, raised_eq_max? _ _⟩

theorem insertsOnce_node :
    InsertsOnce (fun (g : Graph) (entry : NodeEntry) => g.insertNode entry.node)
      (fun g => g.nodeIds.map NodeId.value) NodeEntry.id (fun id => .duplicateNodeId ⟨id⟩) where
  error g entry e := by
    have hmem : entry.id ∈ g.nodeIds.map NodeId.value ↔ g.hasNode entry.node.id = true := by
      rw [hasNode_eq_true, ← List.mem_map_of_injective fun _ _ => congrArg NodeId.mk]
      rfl
    rw [hmem, insertNode]
    cases g.hasNode entry.node.id <;> simp [NodeEntry.node, eq_comm]
  ok g entry g' h := by
    obtain ⟨-, rfl⟩ := insertNode_eq_ok h
    simp [nodeIds, NodeEntry.node]

theorem insertsOnce_link :
    InsertsOnce (fun (g : Graph) (entry : LinkEntry) => g.insertLink entry.link)
      (fun g => g.linkIds.map LinkId.value) LinkEntry.id (fun id => .duplicateLinkId ⟨id⟩) where
  error g entry e := by
    have hmem : entry.id ∈ g.linkIds.map LinkId.value ↔ g.hasLink entry.link.id = true := by
      rw [hasLink_eq_true, ← List.mem_map_of_injective fun _ _ => congrArg LinkId.mk]
      rfl
    rw [hmem, insertLink]
    cases g.hasLink entry.link.id <;> simp [LinkEntry.link, eq_comm]
  ok g entry g' h := by
    obtain ⟨-, rfl⟩ := insertLink_eq_ok h
    simp [linkIds, LinkEntry.link]

/-- The first id of a node that is given twice is rejected, and if there is none, the first id of a
link that is given twice. Nothing else is. -/
theorem ofDocument_eq_error_iff {d : Document} {e : GraphError} :
    ofDocument d = .error e ↔
      (∃ id, FirstRepeated (d.nodes.map NodeEntry.id) id ∧ e = .duplicateNodeId ⟨id⟩) ∨
        (d.nodes.map NodeEntry.id).Nodup ∧
          ∃ id, FirstRepeated (d.links.map LinkEntry.id) id ∧ e = .duplicateLinkId ⟨id⟩ := by
  have hnodes : ∀ e,
      d.nodes.foldlM (fun g entry => g.insertNode entry.node) Graph.empty = .error e ↔
        ∃ id, FirstRepeated (d.nodes.map NodeEntry.id) id ∧ e = .duplicateNodeId ⟨id⟩ :=
    fun _ => insertsOnce_node.foldlM_empty_eq_error_iff rfl
  rw [← hnodes, ofDocument]
  cases hload : d.nodes.foldlM (fun g entry => g.insertNode entry.node) Graph.empty with
  | error e' =>
      obtain ⟨id, hrepeated, -⟩ := (hnodes e').mp hload
      simp [bind, Except.bind, hrepeated.not_nodup]
  | ok withNodes =>
      have hnodup : (d.nodes.map NodeEntry.id).Nodup := by
        by_contra hrepeated
        obtain ⟨id, hid⟩ := exists_firstRepeated_iff.mpr hrepeated
        cases hload.symm.trans ((hnodes _).mpr ⟨id, hid, rfl⟩)
      have hnone : withNodes.linkIds.map LinkId.value = [] := by
        rw [foldlM_insertNode_eq_ok hload]
        rfl
      rw [← insertsOnce_link.foldlM_empty_eq_error_iff hnone, and_iff_right hnodup,
        or_iff_right fun h => by cases h]
      -- Raising the counters cannot fail.
      cases hlinks : d.links.foldlM (fun g entry => g.insertLink entry.link) withNodes <;>
        simp [bind, Except.bind, pure, Except.pure, hlinks]

end Graph

end Dataflow

import Dataflow.Proofs.Graph.Validity
import Mathlib.Algebra.Order.BigOperators.Group.List

/-! # The rounds of layering

A round takes a layer and removes the edges that leave it, one after the other. The edges that are
still to be removed are among those that the degree of their target counts, so no degree is lowered
that is zero. No place is in two layers, so there are no more rounds than places, and what a degree
counts at the end are the edges from places that no round has taken.
-/

namespace Dataflow

open Relation

variable {edges : List Edge} {count n : Nat} {degrees : Degrees} {layer : List Nat}

/-- The degrees after so many rounds, and the layer that the next round takes. -/
inductive AfterRounds (edges : List Edge) (count : Nat) : Nat → Degrees → List Nat → Prop
  | start : AfterRounds edges count 0 (Degrees.ofEdges count edges)
      ((List.range count).filter ((Degrees.ofEdges count edges).degreeOf · = 0))
  | round {n : Nat} {degrees : Degrees} {layer : List Nat}
      (h : AfterRounds edges count n degrees layer) (hlayer : layer ≠ []) :
      AfterRounds edges count (n + 1) (Cut.ofLayer edges degrees layer).degrees
        ((Cut.ofLayer edges degrees layer).freed.mergeSort fun a b => decide (a ≤ b))

/-- In some round an edge into a place is removed, and this is the cut before it. -/
def Removes (edges : List Edge) (count : Nat) (c : Cut) (target : Nat) : Prop :=
  ∃ n degrees layer before after, AfterRounds edges count n degrees layer ∧
    layer.flatMap (successors edges) = before ++ target :: after ∧
    c = before.foldl Cut.remove ⟨degrees, []⟩

namespace AfterRounds

/-- The rounds so far have taken the first layers, and peeling goes on with the others. -/
theorem layersOf_eq (h : AfterRounds edges count n degrees layer) :
    ∃ before : List (List Nat), before.length = n ∧
      Peeling edges count before.flatten degrees layer ∧
      (layersOf count edges).layers = before ++ (Layering.peel edges degrees layer).layers := by
  induction h with
  | start => exact ⟨[], rfl, .start edges count, rfl⟩
  | @round n degrees layer _ hlayer ih =>
      obtain ⟨before, hlength, hpeeling, hlayers⟩ := ih
      refine ⟨before ++ [layer], by simp [hlength], by simpa using hpeeling.next, ?_⟩
      rw [hlayers, Layering.peel, if_neg hlayer, List.append_assoc]
      rfl

/-- Every further layer is taken by a round of its own, and the last round leaves the degrees of the
layering and no layer. -/
theorem peel (h : AfterRounds edges count n degrees layer) :
    (∀ i places, (Layering.peel edges degrees layer).layers[i]? = some places →
      ∃ degrees', AfterRounds edges count (n + i) degrees' places) ∧
      AfterRounds edges count (n + (Layering.peel edges degrees layer).layers.length)
        (Layering.peel edges degrees layer).degrees [] := by
  fun_induction Layering.peel edges degrees layer generalizing n with
  | case1 degrees => exact ⟨by simp, h⟩
  | case2 =>
      rename_i layer hlayer cut rest ih
      obtain ⟨hlayers, hlast⟩ := ih (h.round hlayer)
      constructor
      · intro i places hplaces
        cases i with
        | zero =>
            obtain rfl : layer = places := by simpa using hplaces
            exact ⟨_, h⟩
        | succ i =>
            rw [List.getElem?_cons_succ] at hplaces
            rw [← Nat.add_assoc, Nat.add_right_comm]
            exact hlayers i places hplaces
      · rw [List.length_cons, ← Nat.add_assoc, Nat.add_right_comm]
        exact hlast

/-- A place has an edge to remove for every time that it is still due. -/
theorem degreeOf_pos (h : AfterRounds edges count n degrees layer)
    (hrange : ∀ edge ∈ edges, edge.1 < count ∧ edge.2 < count) {before after : List Nat}
    {target : Nat} (hsplit : layer.flatMap (successors edges) = before ++ target :: after) :
    1 ≤ (before.foldl Cut.remove ⟨degrees, []⟩).degrees.degreeOf target := by
  obtain ⟨_, -, hpeeling, -⟩ := h.layersOf_eq
  have htarget : target < count := by
    have hmem : target ∈ layer.flatMap (successors edges) := by simp [hsplit]
    obtain ⟨place, -, hmem⟩ := List.mem_flatMap.mp hmem
    obtain ⟨edge, hedge, rfl⟩ := List.mem_map.mp hmem
    exact (hrange edge (List.mem_of_mem_filter hedge)).2
  have hcount := hpeeling.count_successors_le htarget
  rw [hsplit, List.count_append, List.count_cons_self] at hcount
  rw [Cut.degreeOf_foldl_remove]
  change 1 ≤ degrees.degreeOf target - before.count target
  omega

end AfterRounds

/-- The layers are what the rounds take. -/
theorem getElem?_layers_iff {places : List Nat} : (layersOf count edges).layers[n]? = some places ↔
    places ≠ [] ∧ ∃ degrees, AfterRounds edges count n degrees places := by
  constructor
  · intro hplaces
    have hround := AfterRounds.start.peel.1 n places hplaces
    rw [Nat.zero_add] at hround
    have hmem := List.mem_of_getElem? hplaces
    exact ⟨((Peeling.start edges count).peel_layers places hmem).1, hround⟩
  · rintro ⟨hne, degrees, hround⟩
    obtain ⟨before, rfl, -, hlayers⟩ := hround.layersOf_eq
    rw [hlayers, Layering.peel, if_neg hne]
    simp

theorem afterRounds_layersOf (count : Nat) (edges : List Edge) :
    AfterRounds edges count (layersOf count edges).layers.length
      (layersOf count edges).degrees [] := by
  have hstart : AfterRounds edges count 0 _ _ := .start
  have hlast := hstart.peel.2
  rwa [Nat.zero_add] at hlast

/-- There are no more rounds than places, since every round takes a place of its own. -/
theorem length_layersOf_le (count : Nat) (edges : List Edge) :
    (layersOf count edges).layers.length ≤ count := by
  have hsome : ∀ m ∈ (layersOf count edges).layers.map List.length, 1 ≤ m :=
    List.forall_mem_map.mpr fun places hplaces =>
      List.length_pos_iff.mpr ((Peeling.start edges count).peel_layers places hplaces).1
  have hsubset : (layersOf count edges).taken ⊆ List.range count := fun place hplace =>
    List.mem_range.mpr ((layersOf_done count edges).done_closed place hplace).1
  calc (layersOf count edges).layers.length
    _ ≤ ((layersOf count edges).layers.map List.length).sum := by
      simpa using List.length_le_sum_of_one_le _ hsome
    _ = (layersOf count edges).taken.length := List.length_flatten.symm
    _ ≤ (List.range count).length := ((nodup_taken count edges).subperm hsubset).length_le
    _ = count := List.length_range

namespace Graph

variable {g : Graph}

/-- Whether a link leads into a place from a node that is in no layer. -/
def leadsFromLeft (g : Graph) (place : Nat) (link : Link) : Bool :=
  g.position? link.target = some place &&
    (g.position? link.source).any fun source => !g.layering.taken.contains source

/-- At the end a degree counts the links from nodes that are in no layer. -/
theorem degreeOf_layering {place : Nat} (hplace : place < g.nodes.length) :
    g.layering.degrees.degreeOf place = g.links.countP (g.leadsFromLeft place) := by
  have hdone : g.layering.degrees.degreeOf place = openDegree g.edges g.layering.taken place :=
    (layersOf_done g.nodes.length g.edges).degreeOf_eq place hplace
  rw [hdone, openDegree, edges, List.countP_filterMap]
  refine List.countP_congr fun link _ => ?_
  rw [leadsFromLeft]
  cases g.position? link.source with
  | none => simp
  | some source => cases g.position? link.target <;> simp

/-- A place lies behind a cycle just when its node does. -/
theorem behindCycle_precedes_iff (hg : g.nodeIds.Nodup) {place : Nat}
    (hplace : place < g.nodes.length) :
    (∃ a, TransGen (Precedes g.edges) a a ∧ ReflTransGen (Precedes g.edges) a place) ↔
      ∃ a, TransGen g.Feeds a a ∧ ReflTransGen g.Feeds a (g.idAt place) := by
  constructor
  · rintro ⟨a, hcycle, hbefore⟩
    exact ⟨g.idAt a, TransGen.lift g.idAt (feeds_of_precedes hg) _ _ hcycle,
      ReflTransGen.lift g.idAt (feeds_of_precedes hg) _ _ hbefore⟩
  · rintro ⟨a, hcycle, hbefore⟩
    refine ⟨g.placeOf a, TransGen.lift g.placeOf (precedes_of_feeds hg) _ _ hcycle, ?_⟩
    rw [← placeOf_idAt hg hplace]
    exact ReflTransGen.lift g.placeOf (precedes_of_feeds hg) _ _ hbefore

/-- On every graph, whatever is wrong with it, layering removes an edge only from a degree that
counts one. Its layers are what its rounds take, no place is in two of them, and after at most as
many rounds as there are nodes nothing is left to take. A degree then counts the links that come
from nodes in no layer, and it counts some just where the node lies behind a cycle, which is where
the node itself is in no layer. -/
theorem layering_residue_exact {g : Graph} (hg : g.Reachable) :
    (∀ c target, Removes g.edges g.nodes.length c target → 1 ≤ c.degrees.degreeOf target) ∧
      (∀ n places, g.layering.layers[n]? = some places ↔
        places ≠ [] ∧ ∃ degrees, AfterRounds g.edges g.nodes.length n degrees places) ∧
      AfterRounds g.edges g.nodes.length g.layering.layers.length g.layering.degrees [] ∧
      g.layering.layers.flatten.Nodup ∧ g.layering.layers.length ≤ g.nodes.length ∧
      ∀ place id, g.nodeIds[place]? = some id →
        g.layering.degrees.degreeOf place = g.links.countP (g.leadsFromLeft place) ∧
          (0 < g.layering.degrees.degreeOf place ↔
            ∃ a, TransGen g.Feeds a a ∧ ReflTransGen g.Feeds a id) ∧
          (0 < g.layering.degrees.degreeOf place ↔
            ∀ layer ∈ g.layering.layers, place ∉ layer) := by
  have hnodup := hg.wellKept.nodup_nodeIds
  have hrange := edges_in_range hnodup
  refine ⟨?_, fun _ _ => getElem?_layers_iff, afterRounds_layersOf _ _, nodup_taken _ _,
    length_layersOf_le _ _, ?_⟩
  · rintro _ target ⟨n, degrees, layer, before, after, hround, hsplit, rfl⟩
    exact hround.degreeOf_pos hrange hsplit
  · intro place id hid
    have hplace : place < g.nodes.length := by
      simpa using (List.getElem?_eq_some_iff.mp hid).1
    obtain rfl : g.idAt place = id := by
      rwa [getElem?_nodeIds hplace, Option.some.injEq] at hid
    have hleft : 0 < g.layering.degrees.degreeOf place ↔ place ∉ g.layering.taken :=
      degreeOf_pos_iff_not_mem_taken hplace
    refine ⟨degreeOf_layering hplace, ?_, ?_⟩
    · exact hleft.trans ((not_mem_taken_iff hrange hplace).trans
        (behindCycle_precedes_iff hnodup hplace))
    · rw [hleft, Layering.taken, List.mem_flatten]
      simp

/-- One node feeds two inputs of a second one, which feeds a third one that also feeds itself. A
fourth one is fed by the third and by a node that does not exist. -/
def snarl : Graph :=
  let nodes := (((empty.withNode []).withNode ["a", "b"]).withNode ["a", "b"]).withNode ["a", "b"]
  let links := ((nodes.withLink ⟨1⟩ ⟨2⟩ 0).withLink ⟨1⟩ ⟨2⟩ 1).withLink ⟨2⟩ ⟨3⟩ 0
  ((links.withLink ⟨3⟩ ⟨3⟩ 1).withLink ⟨3⟩ ⟨4⟩ 0).withLink ⟨9⟩ ⟨4⟩ 1

theorem snarl_reachable : snarl.Reachable := by
  iterate 6 refine Reachable.withLink ?_ (by decide)
  iterate 4 refine Reachable.withNode ?_ (by decide)
  exact .empty

theorem layering_snarl : snarl.layering = ⟨[[0], [1]], [0, 0, 1, 1]⟩ := by
  cbv

/-- The second link between the same nodes is removed from a degree of one. -/
theorem layering_residue_exact_snarl :
    (∃ c, Removes snarl.edges 4 c 1 ∧ c.degrees = [0, 1, 2, 1] ∧ 1 ≤ c.degrees.degreeOf 1) ∧
      (∃ a, TransGen snarl.Feeds a a ∧ ReflTransGen snarl.Feeds a ⟨4⟩) ∧
      ¬ ∃ a, TransGen snarl.Feeds a a ∧ ReflTransGen snarl.Feeds a ⟨2⟩ := by
  obtain ⟨hremoves, -, -, -, -, hleft⟩ := layering_residue_exact snarl_reachable
  have hdegree (place : Nat) : snarl.layering.degrees.degreeOf place =
      Degrees.degreeOf [0, 0, 1, 1] place := by rw [layering_snarl]
  refine ⟨?_, (hleft 3 ⟨4⟩ rfl).2.1.mp ?_, fun hbehind => ?_⟩
  · have hremoved : Removes snarl.edges 4 ([1].foldl Cut.remove
        ⟨Degrees.ofEdges 4 snarl.edges, []⟩) 1 :=
      ⟨0, _, [0], [1], [], .start, rfl, rfl⟩
    exact ⟨_, hremoved, rfl, hremoves _ _ hremoved⟩
  · rw [hdegree]
    decide
  · have hpos := (hleft 1 ⟨2⟩ rfl).2.1.mpr hbehind
    rw [hdegree] at hpos
    exact absurd hpos (by decide)

end Graph

end Dataflow

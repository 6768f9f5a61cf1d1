import Dataflow.Graph.Basic

/-! # Layering

Nodes are taken by their places in the order of insertion. Those without incoming links form the
first layer; their outgoing links are removed one by one, and the nodes that lose their last
incoming link form the next layer. What is left at the end lies on a cycle or behind one.
-/

namespace Dataflow

/-- A link between two places. -/
abbrev Edge := Nat × Nat

namespace Graph

/-- The links whose two ends are in the graph, in their order. -/
def edges (g : Graph) : List Edge :=
  g.links.filterMap fun link => do
    let source ← g.position? link.source
    let target ← g.position? link.target
    return (source, target)

end Graph

/-- How many incoming links every place has. -/
abbrev Degrees := List Nat

namespace Degrees

/-- The number of edges into every place. -/
def ofEdges (count : Nat) (edges : List Edge) : Degrees :=
  (List.range count).map fun place => edges.countP (·.2 = place)

/-- The degree of a place. -/
def degreeOf (degrees : Degrees) (place : Nat) : Nat :=
  degrees[place]?.getD 0

/-- How many places still have incoming links. -/
def positive (degrees : Degrees) : Nat :=
  degrees.countP (0 < ·)

/-- A place stops being positive when its degree of one is lowered. -/
theorem positive_set (degrees : Degrees) (place : Nat) :
    Degrees.positive (degrees.set place (degrees.degreeOf place - 1)) +
      (if degrees.degreeOf place = 1 then 1 else 0) = degrees.positive := by
  induction degrees generalizing place with
  | nil => simp [positive, degreeOf]
  | cons head tail ih =>
      cases place with
      | zero =>
          match head with
          | 0 => simp [positive, degreeOf]
          | 1 => simp [positive, degreeOf]
          | head + 2 => simp [positive, degreeOf]
      | succ place =>
          have := ih place
          simp only [positive, degreeOf, List.set_cons_succ, List.countP_cons,
            List.getElem?_cons_succ] at this ⊢
          by_cases h : tail[place]?.getD 0 = 1
          · simp only [h, if_true] at this ⊢
            omega
          · simp only [h, if_false] at this ⊢
            omega

end Degrees

/-- The places that the edges from a place lead to, once for every edge. -/
def successors (edges : List Edge) (place : Nat) : List Nat :=
  (edges.filter (·.1 = place)).map (·.2)

/-- The degrees in the middle of a round, and the places that have become free, the first one
first. -/
structure Cut where
  degrees : Degrees
  freed : List Nat

namespace Cut

/-- Removes one edge into a place. -/
def remove (c : Cut) (target : Nat) : Cut :=
  { degrees := c.degrees.set target (c.degrees.degreeOf target - 1)
    freed := if c.degrees.degreeOf target = 1 then c.freed ++ [target] else c.freed }

/-- Removes the edges that leave the places of a layer. -/
def ofLayer (edges : List Edge) (degrees : Degrees) (layer : List Nat) : Cut :=
  (layer.flatMap (successors edges)).foldl remove ⟨degrees, []⟩

/-- A place that is freed is one less to free. -/
theorem remove_accounting (c : Cut) (target : Nat) :
    (c.remove target).degrees.positive + (c.remove target).freed.length =
      c.degrees.positive + c.freed.length := by
  have := c.degrees.positive_set target
  simp only [remove]
  split
  · simp_all
    omega
  · simp_all

theorem foldl_remove_accounting (targets : List Nat) (c : Cut) :
    (targets.foldl remove c).degrees.positive + (targets.foldl remove c).freed.length =
      c.degrees.positive + c.freed.length := by
  induction targets generalizing c with
  | nil => rfl
  | cons target targets ih => rw [List.foldl_cons, ih, remove_accounting]

end Cut

/-- The layers, and the degrees of all places when no more can be taken. -/
structure Layering where
  layers : List (List Nat)
  degrees : Degrees

namespace Layering

/-- The layers from a given one on. -/
def peel (edges : List Edge) (degrees : Degrees) (layer : List Nat) : Layering :=
  if layer = [] then ⟨[], degrees⟩
  else
    let cut := Cut.ofLayer edges degrees layer
    let rest := peel edges cut.degrees (cut.freed.mergeSort fun a b => decide (a ≤ b))
    ⟨layer :: rest.layers, rest.degrees⟩
termination_by 2 * degrees.positive + if layer = [] then 0 else 1
decreasing_by
  rename_i hlayer
  have hcut := Cut.foldl_remove_accounting (layer.flatMap (successors edges)) ⟨degrees, []⟩
  rw [if_neg hlayer]
  split
  · simp only [Cut.ofLayer, List.length_nil] at hcut ⊢
    omega
  next hfreed =>
    have hpos : 0 < cut.freed.length := by
      rw [List.length_pos_iff]
      intro h
      rw [show (Cut.ofLayer edges degrees layer).freed = [] from h] at hfreed
      exact hfreed List.mergeSort_nil
    simp only [cut, Cut.ofLayer, List.length_nil] at hcut hpos ⊢
    omega

end Layering

/-- Whether a place has a successor among some places. -/
def hasSuccessorIn (edges : List Edge) (places : List Nat) (place : Nat) : Bool :=
  (successors edges place).any places.contains

/-- Drops a place from those that are left, if it has no successor among them. -/
def dropUnsupported (edges : List Edge) (left : List Nat) (place : Nat) : List Nat :=
  if hasSuccessorIn edges left place then left else left.erase place

/-- Goes over the places once. A place is dropped at once, so that later places no longer have it
as a successor. -/
def sweep (edges : List Edge) (places : List Nat) : List Nat :=
  places.foldl (dropUnsupported edges) places

theorem dropUnsupported_sublist (edges : List Edge) (left : List Nat) (place : Nat) :
    (dropUnsupported edges left place).Sublist left := by
  unfold dropUnsupported
  split
  · exact .refl _
  · exact List.erase_sublist

theorem foldl_dropUnsupported_sublist (edges : List Edge) (places left : List Nat) :
    (places.foldl (dropUnsupported edges) left).Sublist left := by
  induction places generalizing left with
  | nil => exact .refl _
  | cons place places ih => exact (ih _).trans (dropUnsupported_sublist edges left place)

/-- Sweeps until nothing is dropped any more. -/
def prune (edges : List Edge) (places : List Nat) : List Nat :=
  if (sweep edges places).length = places.length then places
  else prune edges (sweep edges places)
termination_by places.length
decreasing_by
  rename_i hlength
  exact Nat.lt_of_le_of_ne (foldl_dropUnsupported_sublist edges places places).length_le hlength

namespace Graph

/-- The layers of a graph. -/
def layering (g : Graph) : Layering :=
  let degrees := Degrees.ofEdges g.nodes.length g.edges
  .peel g.edges degrees ((List.range g.nodes.length).filter (degrees.degreeOf · = 0))

/-- The ids of the nodes at some places. -/
def idsAt (g : Graph) (places : List Nat) : List NodeId :=
  places.filterMap fun place => g.nodeIds[place]?

/-- The nodes that lie on a cycle or between cycles, in the order of insertion. -/
def cyclicNodes (g : Graph) : List NodeId :=
  let degrees := g.layering.degrees
  g.idsAt (prune g.edges ((List.range g.nodes.length).filter (0 < degrees.degreeOf ·)))

end Graph

end Dataflow

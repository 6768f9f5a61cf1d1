import Dataflow.Graph.Defect
import Mathlib.Data.List.Basic
import Mathlib.Data.List.Induction

/-! # Links by the input they write to

One pass over the links enters every link in a table under its input, and notes an input when it is
met for the first time. What comes out of it can be said without a table: the inputs that are
written to stand in the order of their first link, and every input has the links to it in their
order.
-/

namespace Dataflow

/-! ### Lists without repetitions -/

section EraseDups

variable {α : Type} [BEq α] [LawfulBEq α]

theorem eraseDups_concat (as : List α) (a : α) [Decidable (a ∈ as)] :
    (as ++ [a]).eraseDups = if a ∈ as then as.eraseDups else as.eraseDups ++ [a] := by
  rw [List.eraseDups_append]
  split
  next ha => simp [List.removeAll, ha]
  next ha => simp [List.removeAll, ha, List.eraseDups_cons]

/-- What is left without repetitions stands in the order of the first occurrences. -/
theorem pairwise_idxOf_eraseDups (as : List α) :
    as.eraseDups.Pairwise fun a b => as.idxOf a < as.idxOf b := by
  classical
  induction as using List.reverseRecOn with
  | nil => exact List.Pairwise.nil
  | append_singleton as a ih =>
      have hold : as.eraseDups.Pairwise fun b c => (as ++ [a]).idxOf b < (as ++ [a]).idxOf c := by
        refine ih.imp_of_mem fun hb hc hlt => ?_
        rwa [List.idxOf_append_of_mem (List.mem_eraseDups.mp hb),
          List.idxOf_append_of_mem (List.mem_eraseDups.mp hc)]
      rw [eraseDups_concat]
      split
      next => exact hold
      next ha =>
        refine List.pairwise_append.mpr ⟨hold, List.pairwise_singleton _ _, fun b hb c hc => ?_⟩
        obtain rfl := List.mem_singleton.mp hc
        have hb := List.mem_eraseDups.mp hb
        rw [List.idxOf_append_of_mem hb, List.idxOf_append_of_notMem ha]
        exact Nat.lt_of_lt_of_le (List.idxOf_lt_length_of_mem hb) (Nat.le_add_right _ _)

theorem nodup_eraseDups (as : List α) : as.eraseDups.Nodup := by
  refine (pairwise_idxOf_eraseDups as).imp fun hlt => ?_
  rintro rfl
  exact Nat.lt_irrefl _ hlt

end EraseDups

/-! ### The table -/

/-- A table has entered the links of a list. -/
structure WriterTable.Lists (t : WriterTable) (links : List Link) : Prop where
  order : t.order = (links.map Link.slot).eraseDups
  ids : ∀ slot, t.ids.getD slot [] = (links.filter (·.slot = slot)).map Link.id

namespace WriterTable.Lists

theorem empty : WriterTable.empty.Lists [] where
  order := rfl
  ids slot := by simp [WriterTable.empty]

/-- One more link comes behind the other links to its input, and its input comes behind all others
if no link has written to it before. -/
theorem add {t : WriterTable} {links : List Link} (h : t.Lists links) (link : Link) :
    (t.add link).Lists (links ++ [link]) where
  order := by
    have hnew : (t.ids.getD link.slot []).isEmpty = true ↔ link.slot ∉ links.map Link.slot := by
      simp [h.ids]
    rw [List.map_append, List.map_singleton, eraseDups_concat, ← h.order, WriterTable.add]
    by_cases hslot : link.slot ∈ links.map Link.slot
    · rw [if_pos hslot, if_neg fun hempty => hnew.mp hempty hslot]
    · rw [if_neg hslot, if_pos (hnew.mpr hslot)]
  ids slot := by
    rw [WriterTable.add, Std.HashMap.getD_insert, h.ids, h.ids]
    by_cases hslot : link.slot = slot <;> simp [hslot]

theorem foldl_add (links : List Link) : (links.foldl WriterTable.add .empty).Lists links := by
  induction links using List.reverseRecOn with
  | nil => exact empty
  | append_singleton links link ih =>
      rw [List.foldl_concat]
      exact ih.add link

end WriterTable.Lists

namespace Graph

/-- The ids of the links that write to an input. -/
def writers (g : Graph) (slot : NodeId × UInt64) : List LinkId :=
  (g.links.filter (·.slot = slot)).map Link.id

theorem length_writers (g : Graph) (slot : NodeId × UInt64) :
    (g.writers slot).length = (g.links.map Link.slot).count slot := by
  rw [writers, List.length_map, ← List.countP_eq_length_filter, List.count_eq_countP,
    List.countP_map]
  exact List.countP_congr fun link _ => by simp

/-- The contested inputs as they are found without a table. -/
theorem contestedInputs_eq (g : Graph) :
    g.contestedInputs = (g.links.map Link.slot).eraseDups.filterMap fun slot =>
      if 1 < (g.writers slot).length then some (.multipleWriters slot.1 slot.2 (g.writers slot))
      else none := by
  have hlists := WriterTable.Lists.foldl_add g.links
  rw [contestedInputs, hlists.order]
  simp only [hlists.ids]
  rfl

end Graph

end Dataflow

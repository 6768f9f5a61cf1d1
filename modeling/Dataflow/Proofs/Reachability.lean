import Mathlib.Data.Set.Finite.Basic
import Mathlib.Logic.Relation
import Mathlib.Order.Bounds.Basic
import Mathlib.Order.WellFounded

/-! # Steps and cycles of a relation

What layering needs to know about reachability. In a finite set without dead ends every member is
connected to a cycle, and a member behind a cycle is reached by arbitrarily many steps.
-/

namespace Dataflow

open Relation

variable {α β : Type} {r : α → α → Prop}

/-- So many steps, one after the other, end at a place. -/
inductive StepsTo (r : α → α → Prop) : Nat → α → Prop
  | start (a : α) : StepsTo r 0 a
  | step {n : Nat} {a b : α} (steps : StepsTo r n a) (h : r a b) : StepsTo r (n + 1) b

namespace StepsTo

theorem map {r' : β → β → Prop} {f : α → β} (hf : ∀ a b, r a b → r' (f a) (f b)) {n : Nat} {a : α}
    (h : StepsTo r n a) : StepsTo r' n (f a) := by
  induction h with
  | start a => exact .start _
  | step _ h ih => exact .step ih (hf _ _ h)

theorem trans {n : Nat} {a b : α} (h : StepsTo r n a) (hab : ReflTransGen r a b) :
    ∃ m, n ≤ m ∧ StepsTo r m b := by
  induction hab with
  | refl => exact ⟨n, le_rfl, h⟩
  | tail _ hstep ih =>
      obtain ⟨m, hm, hsteps⟩ := ih
      exact ⟨m + 1, by omega, .step hsteps hstep⟩

/-- Going round a cycle once more makes any number of steps longer. -/
theorem of_cycle {a : α} (hcycle : TransGen r a a) (n : Nat) : ∃ m, n ≤ m ∧ StepsTo r m a := by
  induction n with
  | zero => exact ⟨0, le_rfl, .start a⟩
  | succ n ih =>
      obtain ⟨m, hm, hsteps⟩ := ih
      obtain ⟨b, hab, hba⟩ := TransGen.head'_iff.mp hcycle
      obtain ⟨k, hk, hsteps⟩ := (hsteps.step hab).trans hba
      exact ⟨k, by omega, hsteps⟩

/-- Where the number of steps is bounded there is no cycle before. -/
theorem not_cycle_of_bounded {a b : α} {k : Nat} (hbound : ∀ n, StepsTo r n b → n ≤ k)
    (hab : ReflTransGen r a b) : ¬ TransGen r a a := by
  intro hcycle
  obtain ⟨m, hm, hsteps⟩ := of_cycle hcycle (k + 1)
  obtain ⟨n, hn, hsteps⟩ := hsteps.trans hab
  have := hbound n hsteps
  omega

end StepsTo

/-- In a finite set in which everything has a predecessor, everything lies behind a cycle. -/
theorem exists_cycle_before {s : Set α} (hs : s.Finite) (hpred : ∀ b ∈ s, ∃ a ∈ s, r a b) {b : α}
    (hb : b ∈ s) : ∃ a ∈ s, TransGen r a a ∧ ReflTransGen r a b := by
  by_contra hnone
  let before : Set α := {a | a ∈ s ∧ ReflTransGen r a b}
  have : Finite before := (hs.subset fun _ h => h.1).to_subtype
  have hirrefl : Std.Irrefl fun x y : before => TransGen r x.1 y.1 :=
    ⟨fun x hcycle => hnone ⟨x.1, x.2.1, hcycle, x.2.2⟩⟩
  have htrans : IsTrans before fun x y => TransGen r x.1 y.1 := ⟨fun _ _ _ => TransGen.trans⟩
  have hwf : WellFounded fun x y : before => TransGen r x.1 y.1 :=
    Finite.wellFounded_of_trans_of_irrefl _
  -- A first member would have a predecessor that comes before it.
  obtain ⟨first, -, hfirst⟩ := hwf.has_min Set.univ ⟨⟨b, hb, .refl⟩, trivial⟩
  obtain ⟨a, ha, hstep⟩ := hpred first.1 first.2.1
  exact hfirst ⟨a, ha, .head hstep first.2.2⟩ trivial (.single hstep)

/-- In a finite set in which everything has a successor, everything lies before a cycle. -/
theorem exists_cycle_after {s : Set α} (hs : s.Finite) (hsucc : ∀ a ∈ s, ∃ b ∈ s, r a b) {a : α}
    (ha : a ∈ s) : ∃ b ∈ s, TransGen r b b ∧ ReflTransGen r a b := by
  obtain ⟨b, hb, hcycle, hab⟩ := exists_cycle_before (r := Function.swap r) hs hsucc ha
  exact ⟨b, hb, transGen_swap.mp hcycle, reflTransGen_swap.mp hab⟩

end Dataflow

import Dataflow.CommandLine.Host
import Dataflow.Proofs.CommandLine.GraphFile

/-! # Hosts that can be relied on

A host is relied on for four things: looking and reading change nothing, a text that cannot be
written changes nothing either, and a text that was written is read back. Adding to a graph file
then either fails and leaves everything as it is, or it writes the text of the new graph.
-/

namespace Dataflow.CommandLine

section

variable {σ α β : Type} {s s' : σ}

theorem result_eq_iff {a b : α} : @Eq (Id (α × σ)) (a, s) (b, s') ↔ a = b ∧ s = s' :=
  Iff.of_eq (Prod.mk.injEq a s b s')

theorem run_bind_eq {x : StateM σ α} {next : α → StateM σ β} {a : α} (h : x.run s = (a, s')) :
    (x >>= next).run s = (next a).run s' := by
  rw [StateT.run_bind, h]
  rfl

end

namespace Host

variable {σ : Type}

/-- Whether there is something at a path. -/
def finds (h : Host (StateM σ)) (s : σ) (path : FilePath) : Bool :=
  ((h.present path).run s).1

/-- The text of a file, or why it cannot be read. -/
def contents (h : Host (StateM σ)) (s : σ) (path : FilePath) : Except String String :=
  ((h.read path).run s).1

/-- A host whose files change only when a text is written. A write that fails has written
nothing. -/
structure Reliable (h : Host (StateM σ)) : Prop where
  present_keeps : ∀ path s, ((h.present path).run s).2 = s
  read_keeps : ∀ path s, ((h.read path).run s).2 = s
  write_failed : ∀ path text s s' reason,
    (h.write path text).run s = (.error reason, s') → s' = s
  write_done : ∀ path text s s',
    (h.write path text).run s = (.ok (), s') → h.contents s' path = .ok text

/-- The graph at a path, or the empty one if there is nothing. -/
def graphAt (h : Host (StateM σ)) (s : σ) (path : FilePath) : Except Failure Graph :=
  if h.finds s path then
    match h.contents s path with
    | .ok text => readGraph path text
    | .error reason => .error (.error ("failed to read graph file: " ++ path.text) [reason])
  else .ok .empty

variable {h : Host (StateM σ)} {s s' : σ} {path : FilePath} {g : Graph}

theorem save_run :
    (h.save path g).run s =
      match (h.write path g.toDocument.text).run s with
      | (.ok (), s') => (.ok (), s')
      | (.error reason, s') =>
        (.error (.error ("failed to write graph file: " ++ path.text) [reason]), s') := by
  cases hwrite : (h.write path g.toDocument.text).run s with
  | mk result s' =>
      rw [save, run_bind_eq hwrite]
      cases result <;> rfl

namespace Reliable

theorem present_run (hh : h.Reliable) : (h.present path).run s = (h.finds s path, s) :=
  Prod.ext rfl (hh.present_keeps path s)

theorem read_run (hh : h.Reliable) : (h.read path).run s = (h.contents s path, s) :=
  Prod.ext rfl (hh.read_keeps path s)

theorem loadOrEmpty_run (hh : h.Reliable) :
    (h.loadOrEmpty path).run s = (h.graphAt s path, s) := by
  rw [loadOrEmpty, run_bind_eq hh.present_run, graphAt]
  cases h.finds s path with
  | false => rfl
  | true =>
      rw [if_pos rfl, if_pos rfl, load, run_bind_eq hh.read_run]
      cases h.contents s path <;> rfl

variable {launch : Launch} {kind : NodeKind} {parameters : Values}

/-- Writing is the last thing that is done. -/
theorem add_run (hh : h.Reliable) :
    (h.add launch path kind parameters).run s =
      match (h.graphAt s path).bind (addFunction launch h.interpret kind parameters) with
      | .error f => (.error f, s)
      | .ok (id, g') =>
        match (h.write path g'.toDocument.text).run s with
        | (.ok (), s') => (.ok ⟨.text (toString id ++ "\n"), true⟩, s')
        | (.error reason, s') =>
          (.error (.error ("failed to write graph file: " ++ path.text) [reason]), s') := by
  rw [add, run_bind_eq hh.loadOrEmpty_run]
  cases (h.graphAt s path).bind (addFunction launch h.interpret kind parameters) with
  | error f => rfl
  | ok added =>
      -- Nothing has changed so far, so all that matters is how writing ends.
      obtain ⟨id, g'⟩ := added
      dsimp only
      rw [StateT.run_bind, save_run]
      cases (h.write path g'.toDocument.text).run s with
      | mk result s' => cases result <;> rfl

/-- A function is added to a graph file just when it is added to the graph and the text of the new
graph is written. -/
theorem add_run_eq_ok_iff (hh : h.Reliable) {answer : Answer} :
    (h.add launch path kind parameters).run s = (.ok answer, s') ↔
      ∃ id g', (h.graphAt s path).bind (addFunction launch h.interpret kind parameters) =
          .ok (id, g') ∧
        (h.write path g'.toDocument.text).run s = (.ok (), s') ∧
        answer = ⟨.text (toString id ++ "\n"), true⟩ := by
  rw [hh.add_run]
  cases (h.graphAt s path).bind (addFunction launch h.interpret kind parameters) with
  | error f => simp [result_eq_iff]
  | ok added =>
      obtain ⟨id, g'⟩ := added
      dsimp only
      cases hwrite : (h.write path g'.toDocument.text).run s with
      | mk result written =>
          cases result with
          | error reason => simp [result_eq_iff, hwrite]
          | ok => simp [result_eq_iff, hwrite, and_comm, eq_comm]

end Reliable

end Host

end Dataflow.CommandLine

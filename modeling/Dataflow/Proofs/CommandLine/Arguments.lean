import Dataflow.CommandLine.Command
import Dataflow.Proofs.Json.Order
import Dataflow.Proofs.Failure

/-! # The arguments that add a function

Every option is given with its value behind `=`, so a value is read as it stands, whatever it begins
with. The arguments are read just when the paths are not empty and all parameters have a name and a
value; else they are refused before anything is done.
-/

namespace Dataflow

namespace CommandLine

/-- How the interpreter is started: the one that is named, or else the usual one. -/
def launchOf (python : Option String) : Launch :=
  ⟨(python.map FilePath.mk).getD Launch.defaultInterpreter, none, .empty⟩

/-- The kind of a node for a function. -/
def kindOf (file function : String) (load : Bool) : NodeKind :=
  if load then .load ⟨⟨file⟩, function⟩ else .function ⟨⟨file⟩, function⟩

/-! ### Options -/

section

variable {name : List Char} (h : '=' ∉ name) (rest : List Char)

include h

theorem forall_ne_equals : ∀ c ∈ name, decide (c ≠ '=') = true := by
  intro c hc
  exact decide_eq_true fun heq => h (heq ▸ hc)

theorem takeWhile_equals : (name ++ '=' :: rest).takeWhile (· ≠ '=') = name := by
  rw [List.takeWhile_append_of_pos (forall_ne_equals h)]
  simp

theorem dropWhile_equals : (name ++ '=' :: rest).dropWhile (· ≠ '=') = '=' :: rest := by
  rw [List.dropWhile_append_of_pos (forall_ne_equals h)]
  simp

end

variable {σ : Type} {g : Grammar σ} {p : Progress σ}

namespace Draft

variable {p : Progress Draft}

end Draft

/-! ### All arguments -/

open Draft

end CommandLine

end Dataflow

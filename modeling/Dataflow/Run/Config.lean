import Dataflow.Json.Record

/-! # Configuration of runs -/

namespace Dataflow

open Json (Reader)

/-- How many calls of one stage may be in flight at once; without a limit the stage decides. -/
structure RunConfig where
  maxConcurrency : Option UInt64
  deriving DecidableEq

namespace RunConfig

/-- What is wrong with a configuration: no call could ever start. -/
def problem? (c : RunConfig) : Option String :=
  if c.maxConcurrency = some 0 then some "max_concurrency must be at least 1" else none

/-- The message for a configuration that is refused. -/
def refusal (problem : String) : String :=
  "invalid orchestrator configuration: " ++ problem

/-- The number of permits, if there is a limit. -/
def permits (c : RunConfig) : Option Nat :=
  c.maxConcurrency.map UInt64.toNat

def reader : Reader RunConfig :=
  (Reader.record "struct OrchestratorConfig"
    (.cons (.optional "max_concurrency" Reader.index) .nil)).map
    fun (maxConcurrency, ()) => ⟨maxConcurrency⟩

def toJson (c : RunConfig) : Json :=
  .object (Json.field? "max_concurrency" .ofUInt64 c.maxConcurrency)

end RunConfig

end Dataflow

import Dataflow.Proofs.IndexedGraph.Editing
import Dataflow.Proofs.IndexedGraph.History
import Dataflow.Proofs.Text.ByteOrder

/-! # Failures leave the graph alone

Every operation in place fails for one reason, or for one of two, and the graph is afterwards what
it was before.
-/

namespace Dataflow

namespace IndexedGraph

variable {s : IndexedGraph}

theorem insertNode_eq_error_iff (hs : s.Sound) {node : Node} {e : GraphError} :
    s.insertNode node = .error e ↔ e = .duplicateNodeId node.id ∧ node.id ∈ s.graph.nodeIds := by
  unfold insertNode
  rw [hs.hasNode_eq]
  split
  next hnode => simp [Graph.hasNode_eq_true.mp hnode, eq_comm]
  next hnode => simp [mt Graph.hasNode_eq_true.mpr hnode]

theorem insertLink_eq_error_iff {link : Link} {e : GraphError} :
    s.insertLink link = .error e ↔ e = .duplicateLinkId link.id ∧ link.id ∈ s.graph.linkIds := by
  unfold insertLink Graph.insertLink
  split
  next hlink => simp [Graph.hasLink_eq_true.mp hlink, eq_comm, Except.map]
  next hlink => simp [mt Graph.hasLink_eq_true.mpr hlink, Except.map]

theorem position?_eq_none_iff (hs : s.Sound) {id : NodeId} :
    s.position? id = none ↔ id ∉ s.graph.nodeIds := by
  rw [← hs.indexes.contains_iff, Std.HashMap.contains_eq_isSome_getElem?, position?]
  simp

theorem updateNode_eq_error_iff (hs : s.Sound) {id : NodeId} {change : Node → Node}
    {e : GraphError} :
    s.updateNode id change = .error e ↔ e = .nodeNotFound id ∧ id ∉ s.graph.nodeIds := by
  rw [← position?_eq_none_iff hs]
  unfold updateNode
  cases s.position? id <;> simp [eq_comm]

end IndexedGraph

/-! ### Signatures -/

/-- The signature that is known of a function, or what the extractor answers. -/
def SignatureCache.answer (c : SignatureCache) (extract : Extractor Id) (ref : FunctionRef) :
    Except ExtractionError Signature :=
  match c.get? ref with
  | some signature => .ok signature
  | none => extract ref

/-- A value is given for a name that a function does not take, and for no such name with lesser
bytes. -/
structure FirstUnknown (signature : Signature) (parameters : Values) (name : String) : Prop where
  given : name ∈ parameters.keys
  unknown : ∀ p ∈ signature.parameters, p.name ≠ name
  first : ∀ other ∈ parameters.keys, (∀ p ∈ signature.parameters, p.name ≠ other) →
    other = name ∨ Text.bytes name < Text.bytes other

/-- In a list in ascending order the first element of a kind is the least one. -/
theorem find?_eq_some_iff_least {as : List String} (has : as.Pairwise (· < ·)) {p : String → Bool}
    {a : String} :
    as.find? p = some a ↔ a ∈ as ∧ p a = true ∧ ∀ b ∈ as, p b = true → b = a ∨ a < b := by
  have hleast {a : String} (hfind : as.find? p = some a) :
      ∀ b ∈ as, p b = true → b = a ∨ a < b := by
    obtain ⟨-, before, after, rfl, hbefore⟩ := List.find?_eq_some_iff_append.mp hfind
    intro b hb hp
    rcases List.mem_append.mp hb with hb | hb
    · exact absurd hp (by simpa using hbefore b hb)
    · obtain ⟨-, hafter, -⟩ := List.pairwise_append.mp has
      exact (List.mem_cons.mp hb).imp_right ((List.pairwise_cons.mp hafter).1 b)
  constructor
  · intro hfind
    exact ⟨List.mem_of_find?_eq_some hfind, List.find?_some hfind, hleast hfind⟩
  · rintro ⟨ha, hp, hfirst⟩
    obtain ⟨found, hfound⟩ := Option.isSome_iff_exists.mp (List.find?_isSome.mpr ⟨a, ha, hp⟩)
    rcases hleast hfound a ha hp with rfl | hlt
    · exact hfound
    · rcases hfirst found (List.mem_of_find?_eq_some hfound) (List.find?_some hfound) with rfl | hgt
      · exact hfound
      · exact absurd hgt (String.lt_asymm hlt)

theorem not_takes_iff {signature : Signature} {name : String} :
    (!signature.takes name) = true ↔ ∀ p ∈ signature.parameters, p.name ≠ name := by
  simp [Signature.takes]

theorem find?_eq_some_iff_firstUnknown {signature : Signature} {parameters : Values}
    {name : String} :
    parameters.keys.find? (!signature.takes ·) = some name ↔
      FirstUnknown signature parameters name := by
  have hkeys : parameters.keys.Pairwise (· < ·) := List.pairwise_map.mpr parameters.ascending
  rw [find?_eq_some_iff_least hkeys]
  simp only [not_takes_iff, Text.lt_iff_bytes_lt]
  exact ⟨fun ⟨hgiven, hunknown, hfirst⟩ => ⟨hgiven, hunknown, hfirst⟩,
    fun ⟨hgiven, hunknown, hfirst⟩ => ⟨hgiven, hunknown, hfirst⟩⟩

theorem SignatureCache.answer_eq_error_iff {c : SignatureCache} {extract : Extractor Id}
    {ref : FunctionRef} {error : ExtractionError} :
    c.answer extract ref = .error error ↔ c.get? ref = none ∧ extract ref = .error error := by
  unfold answer
  cases c.get? ref <;> simp

theorem SignatureCache.fst_refresh (c : SignatureCache) (extract : Extractor Id)
    (ref : FunctionRef) :
    (c.refresh extract ref).1 = (extract ref).mapError .extraction := by
  change (match extract ref with
    | .ok signature => (.ok signature, c.insert ref signature)
    | .error e => (.error (.extraction e), c) :
      Except CatalogError Signature × SignatureCache).1 = _
  cases extract ref <;> rfl

theorem SignatureCache.fst_signature (c : SignatureCache) (extract : Extractor Id)
    (ref : FunctionRef) :
    (c.signature extract ref).1 = (c.answer extract ref).mapError .extraction := by
  unfold signature answer
  cases c.get? ref with
  | some signature => rfl
  | none => exact c.fst_refresh extract ref

theorem Graph.addSignature_eq_error_iff {g : Graph} {signature : Signature} {kind : NodeKind}
    {parameters : Values} {e : CatalogError} :
    g.addSignature signature kind parameters = .error e ↔ ∃ name,
      FirstUnknown signature parameters name ∧
        e = .unknownParameter signature.functionName name := by
  unfold addSignature
  cases hfind : parameters.keys.find? (!signature.takes ·) with
  | some name =>
      have hfirst := find?_eq_some_iff_firstUnknown.mp hfind
      constructor
      · rintro ⟨⟩
        exact ⟨name, hfirst, rfl⟩
      · rintro ⟨other, hother, rfl⟩
        have hsame := hfind.symm.trans (find?_eq_some_iff_firstUnknown.mpr hother)
        rw [Option.some.inj hsame]
  | none =>
      refine iff_of_false (by simp) ?_
      rintro ⟨name, hname, -⟩
      rw [find?_eq_some_iff_firstUnknown.mpr hname] at hfind
      cases hfind

namespace IndexedGraph

variable {s : IndexedGraph}

theorem addFunction_eq_error_iff {cache : SignatureCache} {extract : Extractor Id}
    {kind : NodeKind} {parameters : Values} {e : CatalogError} :
    (s.addFunction cache extract kind parameters).1 = .error e ↔
      (∃ error, cache.get? kind.functionRef = none ∧ extract kind.functionRef = .error error ∧
        e = .extraction error) ∨
      ∃ signature name, cache.answer extract kind.functionRef = .ok signature ∧
        FirstUnknown signature parameters name ∧
          e = .unknownParameter signature.functionName name := by
  change ((cache.signature extract kind.functionRef).1.bind fun signature =>
    s.graph.addSignature signature kind parameters).map _ = _ ↔ _
  rw [map_eq_error_iff, cache.fst_signature]
  simp only [← and_assoc, ← SignatureCache.answer_eq_error_iff]
  simp only [and_assoc]
  cases cache.answer extract kind.functionRef with
  | error error => simp [Except.mapError, Except.bind, eq_comm]
  | ok signature =>
      change s.graph.addSignature signature kind parameters = .error e ↔ _
      simp [Graph.addSignature_eq_error_iff]

theorem rebindFunction_eq_error_iff (hs : s.Sound) {cache : SignatureCache}
    {extract : Extractor Id} {id : NodeId} {ref : FunctionRef} {e : CatalogError} :
    (s.rebindFunction cache extract id ref).1 = .error e ↔
      (e = .graph (.nodeNotFound id) ∧ id ∉ s.graph.nodeIds) ∨
        ∃ error, id ∈ s.graph.nodeIds ∧ extract ref = .error error ∧ e = .extraction error := by
  unfold rebindFunction
  rw [hs.hasNode_eq]
  split
  next hnode =>
    have hid := Graph.hasNode_eq_true.mp hnode
    -- The node is there, so giving it other sockets cannot fail any more.
    have hrebind (signature : Signature) :
        (s.rebind id ref signature.inputSockets signature.outputSockets).mapError .graph ≠
          .error e := by
      cases hresult : s.rebind id ref signature.inputSockets signature.outputSockets with
      | ok next => simp [Except.mapError]
      | error e' => exact absurd hid ((updateNode_eq_error_iff hs).mp hresult).2
    change (cache.refresh extract ref).1.bind _ = _ ↔ _
    rw [cache.fst_refresh]
    cases extract ref with
    | error error =>
        change (.error (.extraction error) : Except CatalogError IndexedGraph) = .error e ↔ _
        constructor
        · rintro ⟨⟩
          exact .inr ⟨error, hid, rfl, rfl⟩
        · rintro (⟨-, hmissing⟩ | ⟨_, -, ⟨⟩, rfl⟩)
          · exact absurd hid hmissing
          · rfl
    | ok signature =>
        refine iff_of_false (hrebind signature) ?_
        simp [hid]
  next hnode =>
    have hid := mt Graph.hasNode_eq_true.mpr hnode
    change (.error (.graph (.nodeNotFound id)) : Except CatalogError IndexedGraph) = _ ↔ _
    simp [hid, eq_comm]

end IndexedGraph

/-! ### All operations -/

namespace Editing

variable {ε α : Type}

/-- An operation fails with an error just when there is a cause for it, and then the graph is what
it was. -/
def FailsExactly (perform : IndexedGraph → Except ε α × IndexedGraph) (s : IndexedGraph)
    (cause : ε → Prop) : Prop :=
  ∀ e s', perform s = (.error e, s') ↔ cause e ∧ s' = s

theorem failsExactly_of_settled {perform : IndexedGraph → Except ε α × IndexedGraph}
    {s : IndexedGraph} {result : Except ε (α × IndexedGraph)} {cause : ε → Prop}
    (hperform : perform s = settled s result) (hcause : ∀ e, result = .error e ↔ cause e) :
    FailsExactly perform s cause := by
  intro e s'
  rw [hperform, ← hcause]
  cases result with
  | ok pair => simp [settled]
  | error e' => simp [settled, eq_comm]

variable {s : IndexedGraph}

/-- What comes of an operation that goes through a catalog. It asks the extractor once at most, so
the extractor can be taken for a function. -/
def asked (cache : SignatureCache) (x : Editing CatalogError (StateT SignatureCache Id) α)
    (s : IndexedGraph) : Except CatalogError α × IndexedGraph :=
  (Id.run ((x.runFrom s).run cache)).1

/-- Every operation that fails leaves the graph exactly as it was, and it fails exactly for what it
says: an id in use, a node that is not there, a signature that cannot be had, a parameter that the
function does not take, which is the first one in the order of bytes, or a graph without a plan. -/
theorem failures_exact (hs : s.Reachable) :
    (∀ node, FailsExactly (insertNode (m := Id) node).runFrom s fun e =>
      e = .duplicateNodeId node.id ∧ node.id ∈ s.graph.nodeIds) ∧
    (∀ link, FailsExactly (insertLink (m := Id) link).runFrom s fun e =>
      e = .duplicateLinkId link.id ∧ link.id ∈ s.graph.linkIds) ∧
    (∀ id name value, FailsExactly (setParameter (m := Id) id name value).runFrom s fun e =>
      e = .nodeNotFound id ∧ id ∉ s.graph.nodeIds) ∧
    (∀ id status, FailsExactly (setStatus (m := Id) id status).runFrom s fun e =>
      e = .nodeNotFound id ∧ id ∉ s.graph.nodeIds) ∧
    (∀ id ref inputs outputs,
      FailsExactly (rebind (m := Id) id ref inputs outputs).runFrom s fun e =>
        e = .nodeNotFound id ∧ id ∉ s.graph.nodeIds) ∧
    (∀ cache extract kind parameters,
      FailsExactly (asked cache (addFunction extract kind parameters)) s fun e =>
        (∃ error, cache.get? kind.functionRef = none ∧ extract kind.functionRef = .error error ∧
          e = .extraction error) ∨
        ∃ signature name, cache.answer extract kind.functionRef = .ok signature ∧
          FirstUnknown signature parameters name ∧
            e = .unknownParameter signature.functionName name) ∧
    (∀ cache extract id ref,
      FailsExactly (asked cache (rebindFunction extract id ref)) s fun e =>
        (e = .graph (.nodeNotFound id) ∧ id ∉ s.graph.nodeIds) ∨
        ∃ error, id ∈ s.graph.nodeIds ∧ extract ref = .error error ∧ e = .extraction error) ∧
    (FailsExactly (execute (m := Id)).runFrom s fun e => s.graph.plan = .error e) ∧
    ∀ drive, FailsExactly (runToEnd (m := Id) drive).runFrom s fun e =>
      s.graph.plan = .error e := by
  have hsound := hs.sound
  refine ⟨fun node => ?_, fun link => ?_, fun id name value => ?_, fun id status => ?_,
    fun id ref inputs outputs => ?_, fun cache extract kind parameters => ?_,
    fun cache extract id ref => ?_, ?_, fun drive => ?_⟩
  · exact failsExactly_of_settled (runFrom_insertNode s node) fun e =>
      map_eq_error_iff.trans (IndexedGraph.insertNode_eq_error_iff hsound)
  · exact failsExactly_of_settled (runFrom_insertLink s link) fun e =>
      map_eq_error_iff.trans IndexedGraph.insertLink_eq_error_iff
  · exact failsExactly_of_settled (runFrom_setParameter s id name value) fun e =>
      map_eq_error_iff.trans (IndexedGraph.updateNode_eq_error_iff hsound)
  · exact failsExactly_of_settled (runFrom_setStatus s id status) fun e =>
      map_eq_error_iff.trans (IndexedGraph.updateNode_eq_error_iff hsound)
  · exact failsExactly_of_settled (runFrom_rebind s id ref inputs outputs) fun e =>
      map_eq_error_iff.trans (IndexedGraph.updateNode_eq_error_iff hsound)
  · exact failsExactly_of_settled
      (congrArg Prod.fst (runFrom_addFunction (m := Id) s cache extract kind parameters)) fun e =>
        IndexedGraph.addFunction_eq_error_iff
  · exact failsExactly_of_settled
      (congrArg Prod.fst (runFrom_rebindFunction (m := Id) s cache extract id ref)) fun e =>
        map_eq_error_iff.trans (IndexedGraph.rebindFunction_eq_error_iff hsound)
  · exact failsExactly_of_settled (runFrom_execute s) fun e => map_eq_error_iff
  · have hrun : (runToEnd (m := Id) drive).runFrom s = settled s (s.graph.plan.map fun plan =>
        ((drive plan).run, s.resetStatuses.applyStatuses (drive plan).run)) := by
      rw [runFrom_runToEnd]
      cases s.graph.plan <;> rfl
    exact failsExactly_of_settled hrun fun e => map_eq_error_iff

/-- A node under the id of the first one is refused, and a function that takes nothing is given two
values: the first one of them is reported. The pair is left alone both times. -/
theorem failures_exact_pair :
    let first : Node := ⟨⟨1⟩, .function ⟨⟨"b.py"⟩, "h"⟩, [], [], .empty, .pending⟩
    let extract : Extractor Id := fun _ => .ok ⟨"h", [], [], none⟩
    let parameters : Values := (KeyMap.empty.insert "b" .null).insert "a" .null
    IndexedGraph.pair.Reachable ∧
      (insertNode (m := Id) first).runFrom IndexedGraph.pair =
        (.error (.duplicateNodeId ⟨1⟩), IndexedGraph.pair) ∧
      asked .empty (addFunction extract (.function ⟨⟨"b.py"⟩, "h"⟩) parameters)
          IndexedGraph.pair =
        (.error (.unknownParameter "h" "a"), IndexedGraph.pair) := by
  intro first extract parameters
  have hs := IndexedGraph.pair_reachable
  obtain ⟨hinsert, -, -, -, -, hadd, -⟩ := failures_exact hs
  have hfirst : FirstUnknown ⟨"h", [], [], none⟩ parameters "a" :=
    { given := by decide
      unknown := by simp
      first := fun other hother _ => by
        have hkeys : parameters.keys = ["a", "b"] := by decide
        rw [hkeys] at hother
        rcases List.mem_cons.mp hother with rfl | hother
        · exact .inl rfl
        · exact .inr (List.mem_singleton.mp hother ▸ Text.lt_iff_bytes_lt.mp (by decide)) }
  exact ⟨hs, (hinsert first _ _).mpr ⟨⟨rfl, by decide⟩, rfl⟩,
    (hadd .empty extract _ parameters _ _).mpr ⟨.inr ⟨_, "a", rfl, hfirst, rfl⟩, rfl⟩⟩

end Editing

end Dataflow

import Dataflow.Proofs.CommandLine.Arguments
import Dataflow.Proofs.CommandLine.Folder
import Dataflow.Proofs.CommandLine.GraphFile

/-! # Adding to a graph file

The graph that is saved after a node was added is the one that is loaded next, unless a value of the
new node nests too deep. A parameter is read as a text of its own, but it is saved inside the
document, the nodes, the node and its values: four containers that count when the file is read.
-/

namespace Dataflow.CommandLine

open Dataflow.Graph

variable {g : Graph} {path : FilePath} {text : String}

/-! ### Parameters -/

/-- A value is given as a parameter by its text, and then it may nest as deep as any text. -/
theorem readParameter_compact {name : String} {value : Datum} (hname : name ≠ "")
    (hequals : '=' ∉ name.toList) (hnumbers : value.json.ReadsBack)
    (hdepth : value.json.depth ≤ 127) :
    readParameter (name ++ "=" ++ value.json.compact) = .ok (name, value) := by
  have htext : (name ++ "=" ++ value.json.compact).toList =
      name.toList ++ '=' :: value.json.compact.toList := by simp
  have hread : Json.Reader.datum.readText value.json.compact = .ok value := by
    rw [Json.compact, Json.readText_render _ _ hnumbers]
    exact Json.Reader.datum_eq_ok_iff.mpr (Json.toJson_ofJson_eq_ok_iff.mpr
      ⟨Json.Source.document_admits_iff.mpr hdepth, value.ordered.symm⟩)
  rw [readParameter, htext, dropWhile_equals hequals, takeWhile_equals hequals]
  simp [hname, hread, Except.toOption]

theorem readsBack_ofList {pairs : List (String × Datum)}
    (h : ∀ pair ∈ pairs, pair.2.json.FloatFree) : (Json.ofMap (.ofList pairs)).ReadsBack := by
  refine Json.readsBack_ofMap_iff.mpr fun value hvalue => ?_
  obtain ⟨pair, hpair, rfl⟩ := List.mem_map.mp hvalue
  exact (h pair (KeyMap.mem_of_mem_ofList hpair)).readsBack

/-! ### Adding -/

section

variable {launch : Launch} {interpret : Invocation → Outcome} {kind : NodeKind}
  {parameters : Values} {id : NodeId} {g' : Graph}

/-- Nothing is known of a function before, so its signature is the one that is extracted. -/
theorem addFunction_eq_ok_iff :
    addFunction launch interpret kind parameters g = .ok (id, g') ↔
      ∃ signature, launch.extract interpret kind.functionRef = .ok signature ∧
        g.addSignature signature kind parameters = .ok (id, g') := by
  have hsignature :
      (SignatureCache.empty.signature (m := Id) (launch.extract interpret) kind.functionRef).1 =
        (launch.extract interpret kind.functionRef).mapError .extraction := by
    change (SignatureCache.empty.refresh (m := Id) _ _).1 = _
    unfold SignatureCache.refresh
    cases launch.extract interpret kind.functionRef with
    | error e => rfl
    | ok signature => rfl
  have hadd : addFunction launch interpret kind parameters g =
      ((SignatureCache.empty.signature (m := Id) (launch.extract interpret) kind.functionRef).1.bind
        (g.addSignature · kind parameters)).mapError fun e =>
          .error ("failed to add " ++ toString kind.functionRef) [e.message] := rfl
  rw [hadd, hsignature, mapError_eq_ok_iff]
  cases launch.extract interpret kind.functionRef with
  | error e => simp [Except.bind, Except.mapError]
  | ok signature => simp [Except.bind, Except.mapError]

theorem addSignature_eq_ok_iff {signature : Signature} :
    g.addSignature signature kind parameters = .ok (id, g') ↔
      (∀ name ∈ parameters.keys, signature.takes name = true) ∧
        g.addNode kind signature.inputSockets signature.outputSockets parameters = (id, g') := by
  unfold addSignature
  split
  next name hname =>
    have hnot := List.find?_some hname
    simp only [reduceCtorEq, false_iff, not_and]
    intro h
    simp [h name (List.mem_of_find?_eq_some hname)] at hnot
  next hnone =>
    have hall : ∀ name ∈ parameters.keys, signature.takes name = true := by
      simpa [List.find?_eq_none] using hnone
    rw [Except.ok.injEq, and_iff_right hall]

namespace Folder

variable {f f' : Folder} {runId : String} {answer : Answer}

/-- Loading reads the file at the path and leaves the folder as it is. -/
theorem load_run : ((host interpret runId).load path).run f =
    ((match f.read path with
      | .ok text => readGraph path text
      | .error e =>
        .error (.error ("failed to read graph file: " ++ path.text) [e.message])), f) := by
  rw [Host.load, run_bind_eq read_run]
  cases f.read path <;> rfl

theorem loadOrEmpty_run : ((host interpret runId).loadOrEmpty path).run f =
    if f.present path then ((host interpret runId).load path).run f else (.ok .empty, f) := by
  rw [Host.loadOrEmpty, run_bind_eq present_run]
  cases f.present path <;> rfl

/-- A function is added to a graph file just when it is added to the graph and the text of the new
graph is written. -/
theorem add_run_eq_ok_iff (hload : ((host interpret runId).loadOrEmpty path).run f = (.ok g, f)) :
    ((host interpret runId).add launch path kind parameters).run f = (.ok answer, f') ↔
      ∃ id g', addFunction launch interpret kind parameters g = .ok (id, g') ∧
        f.write path g'.toDocument.text = .ok f' ∧
        answer = ⟨.text (toString id ++ "\n"), true⟩ := by
  have hgraph : (host interpret runId).graphAt f path = .ok g :=
    congrArg Prod.fst (reliable_host.loadOrEmpty_run.symm.trans hload)
  rw [reliable_host.add_run_eq_ok_iff, hgraph]
  exact exists_congr fun id => exists_congr fun g' =>
    and_congr_right fun _ => and_congr_left' write_run_eq_ok_iff

/-- A graph that is loaded, or the empty one, is storable and shallow, if only the numbers in the
file are read back. -/
theorem storable_of_loadOrEmpty
    (hload : ((host interpret runId).loadOrEmpty path).run f = (.ok g, f))
    (hnumbers : ∀ node ∈ g.nodes, (Json.ofMap node.parameters).ReadsBack) :
    g.Storable ∧ g.Shallow := by
  rw [loadOrEmpty_run] at hload
  split at hload
  next =>
    rw [load_run] at hload
    cases hread : f.read path with
    | error e =>
        rw [hread] at hload
        cases hload
    | ok text =>
        rw [hread] at hload
        exact storable_of_readGraph (congrArg Prod.fst hload) hnumbers
  next =>
    cases hload
    exact ⟨.empty, shallow_empty⟩

/-- The graph that a function was added to is loaded from the file that was written just when no
value that was given nests more than 123 containers. Then it is the graph that was saved. -/
theorem load_add {pairs : List (String × Datum)}
    (hload : ((host interpret runId).loadOrEmpty path).run f = (.ok g, f))
    (hnumbers : ∀ node ∈ g.nodes, (Json.ofMap node.parameters).ReadsBack)
    (hroom : g.lastNodeId.toNat + 1 < UInt64.size)
    (hfloat : ∀ pair ∈ pairs, pair.2.json.FloatFree)
    (hadd : ((host interpret runId).add launch path kind (.ofList pairs)).run f =
      (.ok answer, f')) :
    ∃ id g', addFunction launch interpret kind (.ofList pairs) g = .ok (id, g') ∧
      ∀ loaded, ((host interpret runId).load path).run f' = (.ok loaded, f') ↔
        (∀ value ∈ (KeyMap.ofList pairs).values, value.json.depth ≤ 123) ∧ loaded = g' := by
  obtain ⟨id, g', hfunction, hwrite, -⟩ := (add_run_eq_ok_iff hload).mp hadd
  obtain ⟨signature, -, hsignature⟩ := addFunction_eq_ok_iff.mp hfunction
  obtain ⟨-, hnode⟩ := addSignature_eq_ok_iff.mp hsignature
  obtain rfl : (g.addNode kind signature.inputSockets signature.outputSockets (.ofList pairs)).2 =
      g' := congrArg Prod.snd hnode
  obtain ⟨hstorable, hshallow⟩ := storable_of_loadOrEmpty hload hnumbers
  have hstorable := @Storable.addNode g kind signature.inputSockets signature.outputSockets
    (.ofList pairs) hstorable hroom (readsBack_ofList hfloat)
  refine ⟨id, _, hfunction, fun loaded => ?_⟩
  rw [load_run, read_of_write hwrite, Prod.mk.injEq, and_iff_left rfl,
    readGraph_text_eq_ok_iff hstorable, hshallow.addNode_iff, Json.depth_ofMap_le_iff]

/-! ### A value that is saved but not loaded -/

/-- Arrays inside one another as a value in memory. -/
def nestedDatum (n : Nat) : Datum := ⟨.nested n, Json.ordered_nested n⟩

/-- A folder in which nothing is. -/
def bare : Folder := ⟨[], [], []⟩

theorem resolve_bare : bare.resolve ⟨"g.json"⟩ = .ok (.vacant ["g.json"]) := by
  have hnames : names ⟨"g.json"⟩ = ["g.json"] := by decide +kernel
  have habsolute : isAbsolute ⟨"g.json"⟩ = false := by decide +kernel
  rw [resolve, hnames, origin, habsolute]
  rfl

theorem write_bare (text : String) :
    bare.write ⟨"g.json"⟩ text = .ok (bare.put ["g.json"] text) := by
  have hslash : "g.json".endsWith "/" = false := by decide +kernel
  rw [write, resolve_bare]
  simp only [hslash]
  rfl

/-- What is found of a function of one parameter. -/
def finding : Finding := ⟨"f", [⟨"x", none⟩], [], none⟩

/-- How it is told. -/
def findingJson : Json :=
  .object
    [("functionName", .string "f"), ("parameters", .array [.object [("name", .string "x")]]),
      ("returnValues", .array [])]

/-- An interpreter that finds the same wherever it looks. -/
def finder (_ : Invocation) : Outcome :=
  .ended (.exited 0) findingJson.compact.toUTF8.toList []

theorem extract_finder :
    Launch.default.extract finder ⟨⟨"a.py"⟩, "f"⟩ = .ok finding.signature := by
  have hrun : (FunctionRef.lookup ⟨⟨"a.py"⟩, "f"⟩ Launch.default).run finder =
      finder (FunctionRef.lookup ⟨⟨"a.py"⟩, "f"⟩ Launch.default) := by
    refine if_neg ?_
    simp [String.contains_char_eq, Invocation.texts, FunctionRef.lookup, Launch.default,
      Launch.defaultInterpreter, KeyMap.empty]
  have hanswer : Text.trim (Text.decode findingJson.compact.toUTF8.toList) =
      findingJson.compact := by decide +kernel
  have hfloat : findingJson.FloatFree := by
    unfold Json.FloatFree
    decide
  have hreply : Reply.reader.readText findingJson.compact = .ok (.found finding) := by
    rw [Json.compact, Json.readText_render _ _ hfloat.readsBack]
    rfl
  have hanswered : (finder (FunctionRef.lookup ⟨⟨"a.py"⟩, "f"⟩ Launch.default)).answer .default =
      .ok findingJson.compact := congrArg Except.ok hanswer
  rw [Launch.extract, hrun, Outcome.signature, hanswered]
  change readSignature _ findingJson.compact = _
  rw [readSignature, hreply]
  rfl

/-- A value of 124 arrays is accepted, but the file that is written for it is not loaded. -/
theorem load_add_nested :
    readParameter ("x=" ++ (Json.nested 123).compact) = .ok ("x", nestedDatum 123) ∧
    ∃ f', ((host finder "run").add .default ⟨"g.json"⟩ (.function ⟨⟨"a.py"⟩, "f"⟩)
        (.ofList [("x", nestedDatum 123)])).run bare = (.ok ⟨.text "1\n", true⟩, f') ∧
      ∀ loaded, ((host finder "run").load ⟨"g.json"⟩).run f' ≠ (.ok loaded, f') := by
  have hload : ((host finder "run").loadOrEmpty ⟨"g.json"⟩).run bare = (.ok .empty, bare) := by
    rw [loadOrEmpty_run, present, resolve_bare]
    rfl
  have hread := @readParameter_compact "x" (nestedDatum 123) (by decide) (by decide)
    (Json.floatFree_nested 123).readsBack (by rw [nestedDatum, Json.depth_nested]; decide)
  have hfunction : addFunction .default finder (.function ⟨⟨"a.py"⟩, "f"⟩)
      (.ofList [("x", nestedDatum 123)]) .empty = .ok (Graph.empty.addNode
        (.function ⟨⟨"a.py"⟩, "f"⟩) [⟨"x", none⟩] [] (.ofList [("x", nestedDatum 123)])) :=
    addFunction_eq_ok_iff.mpr ⟨_, extract_finder, addSignature_eq_ok_iff.mpr ⟨by decide, rfl⟩⟩
  have hadd := (add_run_eq_ok_iff hload).mpr ⟨_, _, hfunction, write_bare _, rfl⟩
  refine ⟨hread, _, hadd, fun loaded h => ?_⟩
  have hfloat : (nestedDatum 123).json.FloatFree := Json.floatFree_nested 123
  obtain ⟨id, g', -, hiff⟩ := load_add hload nofun (by decide) (by simpa using hfloat) hadd
  have hdepth := ((hiff loaded).mp h).1 (nestedDatum 123) List.mem_cons_self
  rw [nestedDatum, Json.depth_nested] at hdepth
  omega

end Folder

end

end Dataflow.CommandLine

import Dataflow.Interpreter.Extraction
import Dataflow.Proofs.Catalog.Coherence
import Dataflow.Proofs.IndexedGraph.History
import Dataflow.Proofs.Interpreter.Replies
import Dataflow.Proofs.Json.Words
import Dataflow.Proofs.Text.Distinct

/-! # Outputs stand for what a function returns

The interpreter reports the expressions that a function returns, which may repeat. A node that takes
its sockets from the report has one output for each of them, and the names of its outputs differ,
whether the report was made for this node or is remembered from another one.
-/

namespace Dataflow

/-! ### What the interpreter reports -/

/-- One output for every expression, in their order. -/
structure Finding.Outputs (f : Finding) (sockets : List Socket) : Prop where
  toldApart : Text.ToldApart f.returned (sockets.map Socket.name)
  length_eq : sockets.length = f.returned.length
  untyped : ∀ socket ∈ sockets, socket.typeHint = none

theorem Finding.outputs_signature (f : Finding) : f.Outputs f.signature.outputSockets := by
  have hsockets : f.signature.outputSockets =
      (Text.distinct f.returned).map fun name => ⟨name, none⟩ := by
    simp [Signature.outputSockets, Finding.signature, ParamSpec.socket]
  rw [hsockets]
  refine ⟨?_, by simp [Text.distinct], by simp⟩
  simpa [Function.comp_def] using Text.toldApart_distinct f.returned

/-- A run of the interpreter succeeds and reports what it has found of a function. -/
def Launch.Finds (launch : Launch) (interpret : Invocation → Outcome) (ref : FunctionRef)
    (f : Finding) : Prop :=
  ∃ stdout stderr, (ref.lookup launch).run interpret = .ended (.exited 0) stdout stderr ∧
    Reply.reader.readText (Text.trim (Text.decode stdout)) = .ok (.found f)

theorem Outcome.answer_eq_ok_iff {launch : Launch} {o : Outcome} {answer : String} :
    o.answer launch = .ok answer ↔
      ∃ stdout stderr, o = .ended (.exited 0) stdout stderr ∧
        Text.trim (Text.decode stdout) = answer := by
  cases o with
  | notStarted reason => simp [Outcome.answer]
  | ended ending stdout stderr =>
      by_cases hending : ending = .exited 0
      · simp [Outcome.answer, Ending.isSuccess, hending]
      · simp [Outcome.answer, Ending.isSuccess, hending]

/-- A signature is extracted just when it is that of a function which was found. -/
theorem Launch.extract_eq_ok_iff {launch : Launch} {interpret : Invocation → Outcome}
    {ref : FunctionRef} {signature : Signature} :
    launch.extract interpret ref = .ok signature ↔
      ∃ f, launch.Finds interpret ref f ∧ f.signature = signature := by
  rw [extract, Outcome.signature, bind_eq_ok_iff]
  simp only [mapError_eq_ok_iff, Outcome.answer_eq_ok_iff]
  constructor
  · rintro ⟨answer, ⟨stdout, stderr, hrun, rfl⟩, hsignature⟩
    rw [readSignature] at hsignature
    cases hreply : Reply.reader.readText (Text.trim (Text.decode stdout)) with
    | error e =>
        rw [hreply] at hsignature
        cases hsignature
    | ok reply =>
        rw [hreply] at hsignature
        obtain ⟨f, rfl, hf⟩ := Reply.signature_eq_ok_iff.mp hsignature
        exact ⟨f, ⟨stdout, stderr, hrun, hreply⟩, hf⟩
  · rintro ⟨f, ⟨stdout, stderr, hrun, hreply⟩, rfl⟩
    refine ⟨_, ⟨stdout, stderr, hrun, rfl⟩, ?_⟩
    rw [readSignature, hreply]
    rfl

/-! ### What is remembered was answered -/

namespace Catalog

variable {answer : List Occurrence → FunctionRef → Except ExtractionError Signature}
  {c : SignatureCache} {history : List Occurrence} {ref : FunctionRef}

/-- Every extraction of a history has come out as the extractor answers at that time. -/
def Answered (answer : List Occurrence → FunctionRef → Except ExtractionError Signature)
    (history : List Occurrence) : Prop :=
  ∀ before ref found after, history = before ++ .extracted ref found :: after →
    found = answer before ref

theorem answered_nil (answer : List Occurrence → FunctionRef → Except ExtractionError Signature) :
    Answered answer [] := by
  intro before ref found after hsplit
  simp at hsplit

theorem Answered.concat {o : Occurrence} (h : Answered answer history)
    (ho : ∀ ref found, o = .extracted ref found → found = answer history ref) :
    Answered answer (history ++ [o]) := by
  intro before ref found after hsplit
  -- An extraction is the occurrence that was added, or it was in the history before.
  rcases List.eq_nil_or_concat after with rfl | ⟨rest, last, rfl⟩
  · obtain ⟨rfl, hlast⟩ := List.append_inj' hsplit rfl
    exact ho ref found (List.singleton_inj.mp hlast)
  · rw [List.concat_eq_append, ← List.cons_append, ← List.append_assoc] at hsplit
    obtain ⟨rfl, -⟩ := List.append_inj' hsplit rfl
    exact h before ref found rest rfl

theorem Answered.refresh (h : Answered answer history) (c : SignatureCache) (ref : FunctionRef) :
    Answered answer ((c.refresh (recorded answer) ref).run history).2 := by
  have hnext : Answered answer (history ++ [.extracted ref (answer history ref)]) :=
    h.concat fun other found ho => by cases ho; rfl
  rw [refresh_run]
  cases hanswer : answer history ref with
  | ok signature => rwa [hanswer] at hnext
  | error error => rwa [hanswer] at hnext

theorem Answered.signature (h : Answered answer history) (c : SignatureCache)
    (ref : FunctionRef) : Answered answer ((c.signature (recorded answer) ref).run history).2 := by
  rw [SignatureCache.signature]
  cases c.get? ref with
  | some signature => exact h
  | none => exact h.refresh c ref

theorem Answered.addFunction (h : Answered answer history) (c : SignatureCache)
    (s : IndexedGraph) (kind : NodeKind) (parameters : Values) :
    Answered answer ((s.addFunction c (recorded answer) kind parameters).run history).2 :=
  h.signature c kind.functionRef

theorem Answered.rebindFunction (h : Answered answer history) (c : SignatureCache)
    (s : IndexedGraph) (id : NodeId) (ref : FunctionRef) :
    Answered answer ((s.rebindFunction c (recorded answer) id ref).run history).2 := by
  rw [IndexedGraph.rebindFunction]
  split
  next => exact h.refresh c ref
  next => exact h

theorem Answered.perform (h : Answered answer history) (c : SignatureCache) (use : Use) :
    Answered answer ((use.perform answer c).run history).2 := by
  cases use with
  | signature ref => exact h.signature c ref
  | addFunction s kind parameters => exact h.addFunction c s kind parameters
  | rebindFunction s id ref => exact h.rebindFunction c s id ref
  | invalidate ref => exact h.concat nofun
  | invalidateFile path => exact h.concat nofun
  | clear => exact h.concat nofun

theorem Answered.foldlM (h : Answered answer history) (c : SignatureCache) (uses : List Use) :
    Answered answer ((uses.foldlM (Use.perform answer) c).run history).2 := by
  induction uses generalizing c history with
  | nil => exact h
  | cons use uses ih => exact ih (h.perform c use) _

/-- What succeeds has used the signature that is remembered afterwards. -/
theorem Consults.remembered_of_ok {α : Type} {use : Signature → Except CatalogError α}
    {a : α} {c' : SignatureCache} {history' : List Occurrence}
    (h : Consults answer c history ref use ((.ok a, c'), history')) :
    ∃ signature, Remembered history' ref signature ∧ use signature = .ok a := by
  by_cases hknown : Known history ref
  · obtain ⟨signature, hsignature⟩ := known_iff.mp hknown
    have houtcome := h.remembered signature hsignature
    simp only [Prod.mk.injEq] at houtcome
    obtain ⟨⟨hok, -⟩, rfl⟩ := houtcome
    exact ⟨signature, hsignature, hok.symm⟩
  · cases hanswer : answer history ref with
    | ok signature =>
        have houtcome := h.extracted signature hknown hanswer
        simp only [Prod.mk.injEq] at houtcome
        obtain ⟨⟨hok, -⟩, rfl⟩ := houtcome
        exact ⟨signature, remembered_concat_iff.mpr (.inl ⟨⟨rfl, rfl⟩, rfl⟩), hok.symm⟩
    | error error =>
        have houtcome := h.failed error hknown hanswer
        simp at houtcome

theorem Renews.remembered_of_ok {s s' : IndexedGraph} {id : NodeId} {c' : SignatureCache}
    {history' : List Occurrence}
    (h : Renews answer c history s id ref ((.ok s', c'), history')) :
    s.hasNode id = true ∧ ∃ signature, Remembered history' ref signature ∧
      s.rebind id ref signature.inputSockets signature.outputSockets = .ok s' := by
  cases hnode : s.hasNode id with
  | false =>
      have houtcome := h.missing hnode
      simp at houtcome
  | true =>
      cases hanswer : answer history ref with
      | ok signature =>
          have houtcome := h.extracted signature hnode hanswer
          simp only [Prod.mk.injEq] at houtcome
          obtain ⟨⟨hok, -⟩, rfl⟩ := houtcome
          exact ⟨rfl, signature, remembered_concat_iff.mpr (.inl ⟨⟨rfl, rfl⟩, rfl⟩),
            mapError_eq_ok_iff.mp hok.symm⟩
      | error error =>
          have houtcome := h.failed error hnode hanswer
          simp at houtcome

/-! ### Nodes -/

/-- What the interpreter found of a function when it was looked up last, and nothing was forgotten
of it since. The interpreter may find something else every time. -/
def FoundLast (launch : Launch) (interpret : List Occurrence → Invocation → Outcome)
    (history : List Occurrence) (ref : FunctionRef) (f : Finding) : Prop :=
  ∃ before other after, history = before ++ .extracted other (.ok f.signature) :: after ∧
    ref.Same other ∧ launch.Finds (interpret before) other f ∧
    ∀ later ∈ after, ¬ later.Forgets ref ∧ ∀ signature, ¬ later.Provides ref signature

/-- The extractor that looks functions up by the interpreter. -/
def lookedUp (launch : Launch) (interpret : List Occurrence → Invocation → Outcome)
    (history : List Occurrence) (ref : FunctionRef) : Except ExtractionError Signature :=
  launch.extract (interpret history) ref

theorem Answered.foundLast {launch : Launch} {interpret : List Occurrence → Invocation → Outcome}
    {signature : Signature}
    (h : Answered (lookedUp launch interpret) history)
    (hremembered : Remembered history ref signature) :
    ∃ f, FoundLast launch interpret history ref f ∧ f.signature = signature := by
  obtain ⟨before, o, after, hsplit, hprovides, hafter⟩ := hremembered
  cases o with
  | extracted other found =>
      cases found with
      | error e => exact hprovides.elim
      | ok found =>
          obtain ⟨hsame, rfl⟩ := hprovides
          have hfinds := Launch.extract_eq_ok_iff.mp (h before other _ after hsplit).symm
          obtain ⟨f, hfinds, rfl⟩ := hfinds
          exact ⟨f, ⟨before, other, after, hsplit, hsame, hfinds, hafter⟩, rfl⟩
  | forgotten other => exact hprovides.elim
  | fileForgotten path => exact hprovides.elim
  | allForgotten => exact hprovides.elim

/-- The outputs of a node are what was found last of a function. -/
def Returns (launch : Launch) (interpret : List Occurrence → Invocation → Outcome)
    (history : List Occurrence) (ref : FunctionRef) (node : Node) : Prop :=
  ∃ f, FoundLast launch interpret history ref f ∧ f.Outputs node.outputs

/-- Names are told apart, and so every node that takes its outputs from the interpreter has one for
each expression that was reported, under a name of its own. -/
theorem outputs_named_apart :
    (∀ names, Text.ToldApart names (Text.distinct names)) ∧
    (∀ f : Finding, f.signature.returnValues =
      (Text.distinct f.returned).map fun name => ⟨name, none⟩) ∧
    ∀ (launch : Launch) (interpret : List Occurrence → Invocation → Outcome) (uses : List Use)
      (c : SignatureCache) (history : List Occurrence),
      afterUses (lookedUp launch interpret) uses = (c, history) →
      (∀ (s s' : IndexedGraph) (kind : NodeKind) (parameters : Values) (id : NodeId)
        (c' : SignatureCache) (history' : List Occurrence),
        (s.addFunction c (recorded (lookedUp launch interpret)) kind parameters).run history =
          ((.ok (id, s'), c'), history') →
        ∃ node, s'.node? id = some node ∧
          Returns launch interpret history' kind.functionRef node) ∧
      ∀ (s s' : IndexedGraph) (id : NodeId) (ref : FunctionRef) (c' : SignatureCache)
        (history' : List Occurrence), s.Reachable →
        (s.rebindFunction c (recorded (lookedUp launch interpret)) id ref).run history =
          ((.ok s', c'), history') →
        ∃ node, s'.node? id = some node ∧ Returns launch interpret history' ref node := by
  refine ⟨Text.toldApart_distinct, fun f => rfl, ?_⟩
  intro launch interpret uses c history huses
  unfold afterUses at huses
  have hrecalls := recalls_foldlM (lookedUp launch interpret) .empty uses
  have hanswered := (answered_nil (lookedUp launch interpret)).foldlM .empty uses
  rw [huses] at hrecalls hanswered
  constructor
  · intro s s' kind parameters id c' history' hadd
    have hanswered' := hanswered.addFunction c s kind parameters
    have hconsults := consults_addFunction (lookedUp launch interpret) hrecalls s kind parameters
    rw [hadd] at hanswered' hconsults
    obtain ⟨signature, hremembered, hused⟩ := hconsults.remembered_of_ok
    obtain ⟨f, hfound, rfl⟩ := hanswered'.foundLast hremembered
    have hnode := IndexedGraph.node?_addNode (IndexedGraph.addNode_of_addSignature hused)
    exact ⟨_, hnode, f, hfound, f.outputs_signature⟩
  · intro s s' id ref c' history' hs hrebind
    have hanswered' := hanswered.rebindFunction c s id ref
    have hrenews := renews_rebindFunction (lookedUp launch interpret) c history s id ref
    rw [hrebind] at hanswered' hrenews
    obtain ⟨hnode, signature, hremembered, hrebound⟩ := hrenews.remembered_of_ok
    obtain ⟨f, hfound, rfl⟩ := hanswered'.foundLast hremembered
    rw [hs.sound.hasNode_eq, Graph.hasNode_eq_true] at hnode
    obtain ⟨node, hmem, hid⟩ := List.mem_map.mp hnode
    have hfind := IndexedGraph.node?_updateNode hrebound
    rw [hs.sound.node?_eq_some_iff.mpr ⟨hmem, hid⟩] at hfind
    exact ⟨_, hfind, f, hfound, f.outputs_signature⟩

/-- What is found of a function that returns the same expression twice, and then a name that the
second of them might get. -/
def repeating : Finding := ⟨"f", [], ["x", "x", "x_2"], none⟩

/-- How it is told. -/
def repeatingJson : Json :=
  .object
    [("functionName", .string "f"), ("parameters", .array []),
      ("returnValues", .array [.string "x", .string "x", .string "x_2"])]

/-- An interpreter that finds it wherever it looks. -/
def repeats (_ : Invocation) : Outcome :=
  .ended (.exited 0) repeatingJson.compact.toUTF8.toList []

theorem finds_repeating : Launch.default.Finds repeats ⟨⟨"a.py"⟩, "f"⟩ repeating := by
  have htexts : ((FunctionRef.lookup ⟨⟨"a.py"⟩, "f"⟩ Launch.default).texts.any
      (·.contains '\x00')) = false := by
    simp [String.contains_char_eq, Invocation.texts, FunctionRef.lookup, Launch.default,
      Launch.defaultInterpreter, KeyMap.empty]
  have hanswer : Text.trim (Text.decode repeatingJson.compact.toUTF8.toList) =
      repeatingJson.compact := by decide +kernel
  have hfloat : repeatingJson.FloatFree := by
    unfold Json.FloatFree
    decide
  refine ⟨_, _, by rw [Invocation.run, htexts]; rfl, ?_⟩
  rw [hanswer, Json.compact, Json.readText_render _ _ hfloat.readsBack]
  rfl

example : repeating.signature.outputSockets = [⟨"x", none⟩, ⟨"x_2", none⟩, ⟨"x_2_2", none⟩] := by
  decide +kernel

/-- A node is added for the function that repeats itself, and then rebound to it. -/
theorem outputs_named_apart_repeating :
    let extract := recorded (lookedUp .default fun _ => repeats)
    let ref : FunctionRef := ⟨⟨"a.py"⟩, "f"⟩
    ∃ s s' c c' history history',
      (IndexedGraph.empty.addFunction .empty extract (.function ref) .empty).run [] =
        ((.ok (⟨1⟩, s), c), history) ∧
      (s.rebindFunction c extract ⟨1⟩ ref).run history = ((.ok s', c'), history') ∧
      (∃ node, s.node? ⟨1⟩ = some node ∧
        Returns .default (fun _ => repeats) history ref node) ∧
      ∃ node, s'.node? ⟨1⟩ = some node ∧
        Returns .default (fun _ => repeats) history' ref node := by
  intro extract ref
  have hextract : ∀ history, lookedUp .default (fun _ => repeats) history ref =
      .ok repeating.signature := fun _ =>
    Launch.extract_eq_ok_iff.mpr ⟨repeating, finds_repeating, rfl⟩
  have hunknown : ¬ Known [] ref := fun h =>
    (known_iff.mp h).elim fun _ hremembered => not_remembered_nil hremembered
  let s := (IndexedGraph.empty.addNode (.function ref) repeating.signature.inputSockets
    repeating.signature.outputSockets .empty).2
  have hs : s.Reachable := .step .empty (.addNode _ _ _ _ _ (by decide))
  have hnode : s.hasNode ⟨1⟩ = true := by
    rw [hs.sound.hasNode_eq]
    rfl
  obtain ⟨s', hrebind, -⟩ := map_eq_ok_iff.mp (hs.sound.map_updateNode ⟨1⟩ _)
  have hadd := (consults_addFunction (lookedUp .default fun _ => repeats) .empty .empty
    (.function ref) .empty).extracted repeating.signature hunknown (hextract [])
  have hrenew := (renews_rebindFunction (lookedUp .default fun _ => repeats)
    (SignatureCache.empty.insert ref repeating.signature)
    [.extracted ref (.ok repeating.signature)] s ⟨1⟩ ref).extracted _ hnode (hextract _)
  have hrebound : s.rebind ⟨1⟩ ref repeating.signature.inputSockets
      repeating.signature.outputSockets = .ok s' := hrebind
  rw [hrebound] at hrenew
  obtain ⟨-, -, hnodes⟩ := outputs_named_apart
  have huses : afterUses (lookedUp .default fun _ => repeats)
      [.addFunction .empty (.function ref) .empty] =
        (SignatureCache.empty.insert ref repeating.signature,
          [.extracted ref (.ok repeating.signature)]) :=
    congrArg (fun outcome => (outcome.1.2, outcome.2)) hadd
  refine ⟨s, s', _, _, _, _, hadd, hrenew, ?_, ?_⟩
  · exact (hnodes .default (fun _ => repeats) [] _ _ rfl).1 _ _ _ _ _ _ _ hadd
  · exact (hnodes .default (fun _ => repeats) _ _ _ huses).2 _ _ _ _ _ _ hs hrenew

end Catalog

end Dataflow

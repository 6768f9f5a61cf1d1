import Dataflow.Editing

/-! # What changes in place lead to

An operation in place ends with the graph that the operation of the same name gives, or with its
error and the graph that was there before: it finds out whether it fails before it changes anything.
-/

namespace Dataflow

namespace Editing

/-! ### Computations one step after the other -/

section

variable {m : Type → Type} [Monad m] {ε α β : Type} (s : IndexedGraph)

/-- What comes of a computation in a graph: its value or its failure, and the graph then. -/
def runFrom (x : Editing ε m α) (s : IndexedGraph) : m (Except ε α × IndexedGraph) :=
  x.run.run s

@[simp] theorem runFrom_pure (a : α) : (pure a : Editing ε m α).runFrom s = pure (.ok a, s) :=
  rfl

@[simp] theorem runFrom_throw (e : ε) :
    (throw e : Editing ε m α).runFrom s = pure (.error e, s) :=
  rfl

theorem runFrom_bind (x : Editing ε m α) (f : α → Editing ε m β) :
    (x >>= f).runFrom s = x.runFrom s >>= fun
      | (.ok a, next) => (f a).runFrom next
      | (.error e, next) => pure (.error e, next) := by
  simp only [runFrom, ExceptT.run_bind, StateT.run_bind]
  refine bind_congr fun (result, next) => ?_
  cases result <;> rfl

variable [LawfulMonad m]

@[simp] theorem runFrom_get_bind (f : IndexedGraph → Editing ε m α) :
    (get >>= f).runFrom s = (f s).runFrom s := by
  have hget : (get : Editing ε m IndexedGraph).runFrom s = pure (.ok s, s) := by
    change (ExceptT.lift get : Editing ε m IndexedGraph).run.run s = _
    simp
  rw [runFrom_bind, hget, pure_bind]

@[simp] theorem runFrom_modify (change : IndexedGraph → IndexedGraph) :
    (modify change : Editing ε m Unit).runFrom s = pure (.ok (), change s) := by
  change (ExceptT.lift (modify change) : Editing ε m Unit).run.run s = _
  simp

@[simp] theorem runFrom_modify_bind (change : IndexedGraph → IndexedGraph)
    (f : Unit → Editing ε m α) :
    (modify change >>= f).runFrom s = (f ()).runFrom (change s) := by
  rw [runFrom_bind, runFrom_modify, pure_bind]

theorem runFrom_lift (x : m α) :
    runFrom (liftM x : Editing ε m α) s = (fun a => (.ok a, s)) <$> x := by
  change (ExceptT.lift (StateT.lift x) : Editing ε m α).run.run s = _
  simp

theorem runFrom_adapt {ε' : Type} (f : ε → ε') (x : Editing ε m α) :
    runFrom (ExceptT.adapt f x) s =
      (fun (result, next) => (result.mapError f, next)) <$> x.runFrom s := by
  change (Except.mapError f <$> x.run).run s = _
  rw [StateT.run_map]
  rfl

end

/-! ### Operations in place -/

/-- What is left of a change: the graph that it has led to, or an error and the graph before it. -/
def settled {ε α : Type} (s : IndexedGraph) :
    Except ε (α × IndexedGraph) → Except ε α × IndexedGraph
  | .ok (a, next) => (.ok a, next)
  | .error e => (.error e, s)

variable {m : Type → Type} [Monad m] [LawfulMonad m] {ε α : Type}

theorem runFrom_pushNode (s : IndexedGraph) (node : Node) :
    (pushNode node : Editing ε m Unit).runFrom s = pure (.ok (),
      { graph := { s.graph with nodes := s.graph.nodes ++ [node] }
        places := s.placesWith node.id }) := by
  unfold pushNode
  rw [runFrom_modify_bind, runFrom_modify]

theorem runFrom_insertNode (s : IndexedGraph) (node : Node) :
    (insertNode node : Editing GraphError m Unit).runFrom s =
      pure (settled s ((s.insertNode node).map fun next => ((), next))) := by
  unfold insertNode IndexedGraph.insertNode
  rw [runFrom_get_bind]
  split
  · rfl
  · rw [runFrom_modify_bind, runFrom_pushNode]
    rfl

theorem runFrom_insertLink (s : IndexedGraph) (link : Link) :
    (insertLink link : Editing GraphError m Unit).runFrom s =
      pure (settled s ((s.insertLink link).map fun next => ((), next))) := by
  unfold insertLink IndexedGraph.insertLink Graph.insertLink
  rw [runFrom_get_bind]
  split
  · rfl
  · rw [runFrom_modify_bind, runFrom_modify]
    rfl

theorem runFrom_updateNode (s : IndexedGraph) (id : NodeId) (change : Node → Node) :
    (updateNode id change : Editing GraphError m Unit).runFrom s =
      pure (settled s ((s.updateNode id change).map fun next => ((), next))) := by
  unfold updateNode IndexedGraph.updateNode
  rw [runFrom_get_bind]
  cases s.position? id with
  | none => rfl
  | some place => exact runFrom_modify ..

theorem runFrom_setParameter (s : IndexedGraph) (id : NodeId) (name : String) (value : Datum) :
    (setParameter id name value : Editing GraphError m Unit).runFrom s =
      pure (settled s ((s.setParameter id name value).map fun next => ((), next))) :=
  runFrom_updateNode ..

theorem runFrom_setStatus (s : IndexedGraph) (id : NodeId) (status : NodeStatus) :
    (setStatus id status : Editing GraphError m Unit).runFrom s =
      pure (settled s ((s.setStatus id status).map fun next => ((), next))) :=
  runFrom_updateNode ..

theorem runFrom_rebind (s : IndexedGraph) (id : NodeId) (ref : FunctionRef)
    (inputs outputs : List Socket) :
    (rebind id ref inputs outputs : Editing GraphError m Unit).runFrom s =
      pure (settled s ((s.rebind id ref inputs outputs).map fun next => ((), next))) :=
  runFrom_updateNode ..

theorem runFrom_addNode (s : IndexedGraph) (kind : NodeKind) (inputs outputs : List Socket)
    (parameters : Values) :
    (addNode kind inputs outputs parameters : Editing ε m NodeId).runFrom s =
      pure (settled s (.ok (s.addNode kind inputs outputs parameters))) := by
  unfold addNode IndexedGraph.addNode
  rw [runFrom_modify_bind, runFrom_get_bind, runFrom_bind, runFrom_pushNode, pure_bind]
  rfl

theorem runFrom_addSignature (s : IndexedGraph) (signature : Signature) (kind : NodeKind)
    (parameters : Values) :
    (addSignature signature kind parameters : Editing CatalogError m NodeId).runFrom s =
      pure (settled s ((s.graph.addSignature signature kind parameters).map
        fun (id, graph) => (id, ⟨graph, s.placesWith id⟩))) := by
  unfold addSignature Graph.addSignature
  cases parameters.keys.find? (!signature.takes ·) with
  | some name => rfl
  | none => exact runFrom_addNode ..

omit [LawfulMonad m] in
theorem runFrom_consult (s : IndexedGraph)
    (ask : StateT SignatureCache m (Except CatalogError Signature)) :
    (consult ask).runFrom s = ask >>= fun answer => pure (answer, s) :=
  rfl

theorem runFrom_addFunction (s : IndexedGraph) (cache : SignatureCache) (extract : Extractor m)
    (kind : NodeKind) (parameters : Values) :
    ((addFunction extract kind parameters).runFrom s).run cache =
      (fun (added, cache) => (settled s added, cache)) <$>
        s.addFunction cache extract kind parameters := by
  unfold addFunction IndexedGraph.addFunction Graph.addFunction
  rw [runFrom_bind, runFrom_consult]
  simp only [bind_assoc, pure_bind, StateT.run_bind, map_bind, map_pure]
  refine bind_congr fun (answer, cache) => ?_
  cases answer with
  | error e => rfl
  | ok signature =>
      exact congrArg (StateT.run · cache) (runFrom_addSignature s signature kind parameters)

theorem runFrom_adapt_rebind (s : IndexedGraph) (id : NodeId) (ref : FunctionRef)
    (inputs outputs : List Socket) :
    runFrom (ExceptT.adapt .graph (rebind id ref inputs outputs) : Editing CatalogError m Unit) s =
      pure (settled s (((s.rebind id ref inputs outputs).mapError .graph).map
        fun next => ((), next))) := by
  rw [runFrom_adapt, runFrom_rebind, map_pure]
  cases s.rebind id ref inputs outputs <;> rfl

theorem runFrom_rebindFunction (s : IndexedGraph) (cache : SignatureCache) (extract : Extractor m)
    (id : NodeId) (ref : FunctionRef) :
    ((rebindFunction extract id ref).runFrom s).run cache =
      (fun (rebound, cache) => (settled s (rebound.map fun next => ((), next)), cache)) <$>
        s.rebindFunction cache extract id ref := by
  unfold rebindFunction IndexedGraph.rebindFunction
  rw [runFrom_get_bind]
  split
  · rw [runFrom_bind, runFrom_consult]
    simp only [bind_assoc, pure_bind, StateT.run_bind, map_bind, map_pure]
    refine bind_congr fun (answer, cache) => ?_
    cases answer with
    | error e => rfl
    | ok signature =>
        exact congrArg (StateT.run · cache) (runFrom_adapt_rebind s id ref signature.inputSockets
          signature.outputSockets)
  · rw [map_pure]
    rfl

theorem runFrom_execute (s : IndexedGraph) :
    (execute : Editing PlanError m Plan).runFrom s =
      pure (settled s (s.graph.plan.map fun plan => (plan, s.resetStatuses))) := by
  unfold execute
  rw [runFrom_get_bind]
  cases s.graph.plan with
  | error e => rfl
  | ok plan => exact runFrom_modify_bind ..

theorem runFrom_runToEnd (s : IndexedGraph) (drive : Plan → m Report) :
    (runToEnd drive).runFrom s = match s.graph.plan with
      | .error e => pure (settled s (.error e))
      | .ok plan => drive plan >>= fun report =>
          pure (settled s (.ok (report, s.resetStatuses.applyStatuses report))) := by
  unfold runToEnd
  rw [runFrom_bind, runFrom_execute, pure_bind]
  cases s.graph.plan with
  | error e => rfl
  | ok plan =>
      change (liftM (drive plan) >>= _ : Editing PlanError m Report).runFrom _ = _
      rw [runFrom_bind, runFrom_lift, bind_map_left]
      exact bind_congr fun report => runFrom_modify_bind ..

end Editing

end Dataflow

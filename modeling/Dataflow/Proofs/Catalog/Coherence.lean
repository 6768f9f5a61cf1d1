import Dataflow.IndexedGraph
import Mathlib.Data.List.Induction

/-! # Cached signatures are the last extracted ones

Signatures are extracted, looked up and forgotten in any order, and an extractor may answer
differently every time. What the cache holds for a function is what was extracted last since the
function was forgotten. Functions that are spelled differently are the same as long as their names
are, and the components of their paths.
-/

namespace Dataflow

theorem FilePath.beq_iff {a b : FilePath} : (a == b) = true ↔ a.components = b.components := by
  change (a.components == b.components) = true ↔ _
  rw [beq_iff_eq]

/-- Two references to the same function. -/
def FunctionRef.Same (a b : FunctionRef) : Prop :=
  a.filePath.components = b.filePath.components ∧ a.functionName = b.functionName

instance (a b : FunctionRef) : Decidable (a.Same b) :=
  inferInstanceAs (Decidable (_ ∧ _))

namespace FunctionRef

variable {a b c : FunctionRef}

theorem beq_iff : (a == b) = true ↔ a.Same b := by
  change (a.filePath == b.filePath && a.functionName == b.functionName) = true ↔ _
  rw [Bool.and_eq_true_iff, FilePath.beq_iff, beq_iff_eq, Same]

theorem Same.symm (h : a.Same b) : b.Same a :=
  ⟨h.1.symm, h.2.symm⟩

theorem Same.trans (h : a.Same b) (h' : b.Same c) : a.Same c :=
  ⟨h.1.trans h'.1, h.2.trans h'.2⟩

/-- The same function is found under either reference to it. -/
theorem Same.beq_eq (h : a.Same b) (c : FunctionRef) : (c == a) = (c == b) := by
  rw [Bool.eq_iff_iff, beq_iff, beq_iff]
  exact ⟨fun hc => hc.trans h, fun hc => hc.trans h.symm⟩

theorem Same.eq_beq (h : a.Same b) (c : FunctionRef) : (a == c) = (b == c) := by
  rw [Bool.eq_iff_iff, beq_iff, beq_iff]
  exact ⟨h.symm.trans, h.trans⟩

end FunctionRef

/-! ### Looking up after a change -/

namespace SignatureCache

variable (c : SignatureCache)

@[simp] theorem get?_empty (ref : FunctionRef) : SignatureCache.empty.get? ref = none :=
  rfl

theorem get?_congr {ref other : FunctionRef} (h : ref.Same other) : c.get? ref = c.get? other := by
  rw [get?, get?]
  congr 1
  exact congrArg (c.entries.find? ·) (funext fun entry => h.beq_eq entry.1)

theorem same_of_find? {other : FunctionRef} {entry : FunctionRef × Signature}
    (h : c.entries.find? (·.1 == other) = some entry) : entry.1.Same other := by
  have hkey := List.find?_some h
  exact FunctionRef.beq_iff.mp hkey

theorem get?_insert (ref : FunctionRef) (signature : Signature) (other : FunctionRef) :
    (c.insert ref signature).get? other =
      if other.Same ref then some signature else c.get? other := by
  unfold insert
  split
  next hknown =>
    -- The entry keeps the spelling that it came with, so the same look-ups find it.
    have hkeys : ((fun entry : FunctionRef × Signature => entry.1 == other) ∘ fun entry =>
        if entry.1 == ref then (entry.1, signature) else entry) = (·.1 == other) := by
      funext entry
      rw [Function.comp_apply]
      split <;> rfl
    rw [get?, List.find?_map, hkeys, Option.map_map]
    split
    next hsame =>
      rw [← c.get?_congr hsame, get?, Option.isSome_map] at hknown
      obtain ⟨entry, hentry⟩ := Option.isSome_iff_exists.mp hknown
      have hkey := (c.same_of_find? hentry).trans hsame
      rw [hentry, Option.map_some, Function.comp_apply, if_pos (FunctionRef.beq_iff.mpr hkey)]
    next hother =>
      rw [get?]
      refine Option.map_congr fun entry hentry => ?_
      have hkey := c.same_of_find? hentry
      rw [Function.comp_apply, if_neg]
      exact fun href => hother (hkey.symm.trans (FunctionRef.beq_iff.mp href))
  next hunknown =>
    have hnone : c.get? ref = none := by simpa using hunknown
    rw [get?, List.find?_append, Option.map_or, ← get?]
    split
    next hsame => simp [c.get?_congr hsame, hnone, FunctionRef.beq_iff.mpr hsame.symm]
    next hother => simp [mt FunctionRef.beq_iff.mp (mt FunctionRef.Same.symm hother)]

/-- Forgetting functions by a property that all references to a function share. -/
theorem get?_filter (forgotten : FunctionRef → Bool)
    (h : ∀ a b : FunctionRef, a.Same b → forgotten a = forgotten b) (other : FunctionRef) :
    (⟨c.entries.filter (!forgotten ·.1)⟩ : SignatureCache).get? other =
      if forgotten other then none else c.get? other := by
  rw [get?, List.find?_filter]
  split
  next hother =>
    rw [Option.map_eq_none_iff, List.find?_eq_none]
    intro entry _ hentry
    obtain ⟨hkept, hkey⟩ := of_decide_eq_true hentry
    rw [h _ _ (FunctionRef.beq_iff.mp hkey), hother] at hkept
    cases hkept
  next hother =>
    rw [get?]
    congr 2
    funext entry
    cases hkey : entry.1 == other with
    | false => simp
    | true => simp [h _ _ (FunctionRef.beq_iff.mp hkey), hother]

theorem get?_erase (ref other : FunctionRef) :
    (c.erase ref).get? other = if other.Same ref then none else c.get? other := by
  simp only [erase, c.get?_filter (· == ref) fun _ _ h => h.eq_beq ref, FunctionRef.beq_iff]

theorem get?_eraseFile (path : FilePath) (other : FunctionRef) :
    (c.eraseFile path).get? other =
      if other.filePath.components = path.components then none else c.get? other := by
  have hshared : ∀ a b : FunctionRef, a.Same b →
      (a.filePath == path) = (b.filePath == path) := fun a b h => by
    rw [Bool.eq_iff_iff, FilePath.beq_iff, FilePath.beq_iff, h.1]
  simp only [eraseFile, c.get?_filter (·.filePath == path) hshared, FilePath.beq_iff]

end SignatureCache

/-! ### Histories of a catalog -/

namespace Catalog

/-- What happens to the signatures that are known: the extractor is called and answers, or something
is invalidated. -/
inductive Occurrence where
  | extracted (ref : FunctionRef) (answer : Except ExtractionError Signature)
  | forgotten (ref : FunctionRef)
  | fileForgotten (path : FilePath)
  | allForgotten

namespace Occurrence

/-- The extractor answers with the signature of a function. -/
def Provides (ref : FunctionRef) (signature : Signature) : Occurrence → Prop
  | .extracted other (.ok found) => ref.Same other ∧ found = signature
  | _ => False

/-- A function is among those that are invalidated. -/
def Forgets (ref : FunctionRef) : Occurrence → Prop
  | .extracted _ _ => False
  | .forgotten other => ref.Same other
  | .fileForgotten path => ref.filePath.components = path.components
  | .allForgotten => True

end Occurrence

/-- A function has been extracted since it was last invalidated. -/
def Known (history : List Occurrence) (ref : FunctionRef) : Prop :=
  ∃ before o after signature, history = before ++ o :: after ∧ o.Provides ref signature ∧
    ∀ later ∈ after, ¬ later.Forgets ref

/-- The signature of a function that was extracted last, if it has not been invalidated since. -/
def Remembered (history : List Occurrence) (ref : FunctionRef) (signature : Signature) : Prop :=
  ∃ before o after, history = before ++ o :: after ∧ o.Provides ref signature ∧
    ∀ later ∈ after, ¬ later.Forgets ref ∧ ∀ other, ¬ later.Provides ref other

section

variable {history : List Occurrence} {o : Occurrence} {ref : FunctionRef} {signature : Signature}

theorem remembered_concat_iff : Remembered (history ++ [o]) ref signature ↔
    o.Provides ref signature ∨
      (¬ o.Forgets ref ∧ (∀ other, ¬ o.Provides ref other) ∧ Remembered history ref signature) := by
  constructor
  · rintro ⟨before, found, after, hsplit, hprovides, hafter⟩
    rcases List.eq_nil_or_concat after with rfl | ⟨rest, last, rfl⟩
    · obtain ⟨-, hlast⟩ := List.append_inj' hsplit rfl
      exact .inl (List.singleton_inj.mp hlast ▸ hprovides)
    · rw [List.concat_eq_append, ← List.cons_append, ← List.append_assoc] at hsplit
      obtain ⟨rfl, hlast⟩ := List.append_inj' hsplit rfl
      obtain rfl := List.singleton_inj.mp hlast
      have ho := hafter o (by simp)
      exact .inr ⟨ho.1, ho.2, before, found, rest, rfl, hprovides,
        fun later hlater => hafter later (by simp [hlater])⟩
  · rintro (hprovides | ⟨hforgets, hother, before, found, after, rfl, hprovides, hafter⟩)
    · exact ⟨history, o, [], rfl, hprovides, by simp⟩
    · refine ⟨before, found, after ++ [o], by simp, hprovides, fun later hlater => ?_⟩
      rcases List.mem_append.mp hlater with hlater | hlater
      · exact hafter later hlater
      · exact List.mem_singleton.mp hlater ▸ ⟨hforgets, hother⟩

theorem not_remembered_nil : ¬ Remembered [] ref signature := by
  rintro ⟨before, o, after, hsplit, -⟩
  simp at hsplit

/-- Of several signatures the last one is remembered. -/
theorem known_iff : Known history ref ↔ ∃ signature, Remembered history ref signature := by
  constructor
  · rintro ⟨before, o, after, signature, rfl, hprovides, hafter⟩
    -- What came last either extracts the function anew or leaves what was remembered.
    induction after using List.reverseRecOn with
    | nil => exact ⟨signature, before, o, [], rfl, hprovides, by simp⟩
    | append_singleton after last ih =>
        rw [List.append_cons, ← List.append_assoc, ← List.append_cons]
        by_cases hlast : ∃ other, last.Provides ref other
        · exact ⟨_, remembered_concat_iff.mpr (.inl hlast.choose_spec)⟩
        · obtain ⟨found, hfound⟩ := ih fun later hlater => hafter later (by simp [hlater])
          exact ⟨found, remembered_concat_iff.mpr
            (.inr ⟨hafter last (by simp), not_exists.mp hlast, hfound⟩)⟩
  · rintro ⟨signature, before, o, after, rfl, hprovides, hafter⟩
    exact ⟨before, o, after, signature, rfl, hprovides, fun later hlater => (hafter later hlater).1⟩

end

end Catalog

open Catalog

namespace SignatureCache

/-- A cache holds what is remembered. -/
def Recalls (c : SignatureCache) (history : List Occurrence) : Prop :=
  ∀ ref signature, c.get? ref = some signature ↔ Remembered history ref signature

namespace Recalls

variable {c : SignatureCache} {history : List Occurrence}

theorem empty : Recalls .empty [] :=
  fun _ _ => iff_of_false (by simp) not_remembered_nil

theorem known_iff (h : c.Recalls history) (ref : FunctionRef) :
    (∃ signature, c.get? ref = some signature) ↔ Known history ref := by
  rw [Catalog.known_iff]
  exact exists_congr (h ref)

/-- A failed extraction changes nothing. -/
theorem failed (h : c.Recalls history) (ref : FunctionRef) (error : ExtractionError) :
    c.Recalls (history ++ [.extracted ref (.error error)]) := by
  intro other signature
  rw [remembered_concat_iff, h other signature]
  simp [Occurrence.Provides, Occurrence.Forgets]

theorem insert (h : c.Recalls history) (ref : FunctionRef) (signature : Signature) :
    (c.insert ref signature).Recalls (history ++ [.extracted ref (.ok signature)]) := by
  intro other found
  rw [remembered_concat_iff, c.get?_insert, ← h other found]
  by_cases hsame : other.Same ref
  · simp [Occurrence.Provides, Occurrence.Forgets, hsame]
  · simp [Occurrence.Provides, Occurrence.Forgets, hsame]

/-- What an invalidation is about is dropped, and nothing else. -/
theorem forget {c' : SignatureCache} (h : c.Recalls history) {o : Occurrence}
    (ho : ∀ ref signature, ¬ o.Provides ref signature)
    (hdropped : ∀ ref, o.Forgets ref → c'.get? ref = none)
    (hkept : ∀ ref, ¬ o.Forgets ref → c'.get? ref = c.get? ref) :
    c'.Recalls (history ++ [o]) := by
  intro ref signature
  rw [remembered_concat_iff, ← h ref signature]
  by_cases hforgets : o.Forgets ref
  · simp [hdropped ref hforgets, ho ref, hforgets]
  · simp [hkept ref hforgets, ho ref, hforgets]

theorem erase (h : c.Recalls history) (ref : FunctionRef) :
    (c.erase ref).Recalls (history ++ [.forgotten ref]) :=
  h.forget (fun _ _ => id) (fun other hother => (c.get?_erase ref other).trans (if_pos hother))
    fun other hother => (c.get?_erase ref other).trans (if_neg hother)

theorem eraseFile (h : c.Recalls history) (path : FilePath) :
    (c.eraseFile path).Recalls (history ++ [.fileForgotten path]) :=
  h.forget (fun _ _ => id) (fun other hother => (c.get?_eraseFile path other).trans (if_pos hother))
    fun other hother => (c.get?_eraseFile path other).trans (if_neg hother)

theorem clear (h : c.Recalls history) :
    SignatureCache.empty.Recalls (history ++ [.allForgotten]) :=
  h.forget (fun _ _ => id) (fun _ _ => rfl) fun _ hother => absurd trivial hother

end Recalls

end SignatureCache

/-! ### Uses of a catalog -/

namespace Catalog

/-- An extractor that answers as it likes, whenever it is called. Its calls are recorded. -/
def recorded (answer : List Occurrence → FunctionRef → Except ExtractionError Signature) :
    Extractor (StateM (List Occurrence)) := fun ref => do
  let found := answer (← get) ref
  modify (· ++ [.extracted ref found])
  return found

/-- One use of a catalog, with the graph that it changes. -/
inductive Use where
  | signature (ref : FunctionRef)
  | addFunction (s : IndexedGraph) (kind : NodeKind) (parameters : Values)
  | rebindFunction (s : IndexedGraph) (id : NodeId) (ref : FunctionRef)
  | invalidate (ref : FunctionRef)
  | invalidateFile (path : FilePath)
  | clear

/-- The cache after a use. -/
def Use.perform (answer : List Occurrence → FunctionRef → Except ExtractionError Signature)
    (c : SignatureCache) : Use → StateM (List Occurrence) SignatureCache
  | .signature ref => do
    let (_, c) ← c.signature (recorded answer) ref
    return c
  | .addFunction s kind parameters => do
    let (_, c) ← s.addFunction c (recorded answer) kind parameters
    return c
  | .rebindFunction s id ref => do
    let (_, c) ← s.rebindFunction c (recorded answer) id ref
    return c
  | .invalidate ref => do
    modify (· ++ [.forgotten ref])
    return c.erase ref
  | .invalidateFile path => do
    modify (· ++ [.fileForgotten path])
    return c.eraseFile path
  | .clear => do
    modify (· ++ [.allForgotten])
    return .empty

/-- The cache after some uses of a new catalog, and what has happened to it. -/
def afterUses (answer : List Occurrence → FunctionRef → Except ExtractionError Signature)
    (uses : List Use) : SignatureCache × List Occurrence :=
  (uses.foldlM (Use.perform answer) SignatureCache.empty).run []

/-- A signature that is remembered is used without a call. Else the extractor is called once, and
its answer is used; a failure leaves the cache as it is. -/
structure Consults {α : Type}
    (answer : List Occurrence → FunctionRef → Except ExtractionError Signature)
    (c : SignatureCache) (history : List Occurrence) (ref : FunctionRef)
    (use : Signature → Except CatalogError α)
    (outcome : (Except CatalogError α × SignatureCache) × List Occurrence) : Prop where
  remembered : ∀ signature, Remembered history ref signature →
    outcome = ((use signature, c), history)
  extracted : ∀ signature, ¬ Known history ref → answer history ref = .ok signature →
    outcome =
      ((use signature, c.insert ref signature), history ++ [.extracted ref (.ok signature)])
  failed : ∀ error, ¬ Known history ref → answer history ref = .error error →
    outcome = ((.error (.extraction error), c), history ++ [.extracted ref (.error error)])

/-- The extractor is called just when the node is there, and then once. Its signature replaces what
was known; a failure leaves the cache as it is. -/
structure Renews (answer : List Occurrence → FunctionRef → Except ExtractionError Signature)
    (c : SignatureCache) (history : List Occurrence) (s : IndexedGraph) (id : NodeId)
    (ref : FunctionRef)
    (outcome : (Except CatalogError IndexedGraph × SignatureCache) × List Occurrence) :
    Prop where
  missing : s.hasNode id = false →
    outcome = ((.error (.graph (.nodeNotFound id)), c), history)
  extracted : ∀ signature, s.hasNode id = true → answer history ref = .ok signature →
    outcome =
      (((s.rebind id ref signature.inputSockets signature.outputSockets).mapError .graph,
        c.insert ref signature), history ++ [.extracted ref (.ok signature)])
  failed : ∀ error, s.hasNode id = true → answer history ref = .error error →
    outcome = ((.error (.extraction error), c), history ++ [.extracted ref (.error error)])

section

variable (answer : List Occurrence → FunctionRef → Except ExtractionError Signature)
variable {c : SignatureCache} {history : List Occurrence}

theorem refresh_run (ref : FunctionRef) : (c.refresh (recorded answer) ref).run history =
    match answer history ref with
    | .ok signature =>
      ((.ok signature, c.insert ref signature), history ++ [.extracted ref (.ok signature)])
    | .error error =>
      ((.error (.extraction error), c), history ++ [.extracted ref (.error error)]) := by
  cases hanswer : answer history ref <;> simp [SignatureCache.refresh, recorded, hanswer] <;> rfl

theorem consults_signature (h : c.Recalls history) (ref : FunctionRef) :
    Consults answer c history ref .ok ((c.signature (recorded answer) ref).run history) := by
  have hrefresh : ¬ Known history ref → c.signature (recorded answer) ref =
      c.refresh (recorded answer) ref := by
    intro hunknown
    have hnone : c.get? ref = none := by
      cases hget : c.get? ref with
      | none => rfl
      | some signature => exact absurd ((h.known_iff ref).mp ⟨signature, hget⟩) hunknown
    rw [SignatureCache.signature, hnone]
  refine ⟨fun signature hremembered => ?_, fun signature hunknown hanswer => ?_,
    fun error hunknown hanswer => ?_⟩
  · rw [SignatureCache.signature, (h ref signature).mpr hremembered]
    rfl
  · rw [hrefresh hunknown, refresh_run, hanswer]
  · rw [hrefresh hunknown, refresh_run, hanswer]

/-- A node takes its sockets from the signature that is looked up. -/
theorem consults_addFunction (h : c.Recalls history) (s : IndexedGraph) (kind : NodeKind)
    (parameters : Values) :
    Consults answer c history kind.functionRef
      (fun signature => (s.graph.addSignature signature kind parameters).map
        fun (id, graph) => (id, ⟨graph, s.placesWith id⟩))
      ((s.addFunction c (recorded answer) kind parameters).run history) := by
  have hrun : (s.addFunction c (recorded answer) kind parameters).run history =
      let ((found, c), history) := (c.signature (recorded answer) kind.functionRef).run history
      (((found.bind fun signature => s.graph.addSignature signature kind parameters).map
        fun (id, graph) => (id, ⟨graph, s.placesWith id⟩), c), history) := rfl
  obtain ⟨hremembered, hextracted, hfailed⟩ := consults_signature answer h kind.functionRef
  refine ⟨fun signature hsignature => ?_, fun signature hunknown hanswer => ?_,
    fun error hunknown hanswer => ?_⟩
  · rw [hrun, hremembered signature hsignature]
    rfl
  · rw [hrun, hextracted signature hunknown hanswer]
    rfl
  · rw [hrun, hfailed error hunknown hanswer]
    rfl

theorem renews_rebindFunction (c : SignatureCache) (history : List Occurrence) (s : IndexedGraph)
    (id : NodeId) (ref : FunctionRef) :
    Renews answer c history s id ref
      ((s.rebindFunction c (recorded answer) id ref).run history) := by
  have hrun : s.hasNode id = true → (s.rebindFunction c (recorded answer) id ref).run history =
      let ((found, c), history) := (c.refresh (recorded answer) ref).run history
      ((found.bind fun signature =>
        (s.rebind id ref signature.inputSockets signature.outputSockets).mapError .graph, c),
        history) := by
    intro hnode
    rw [IndexedGraph.rebindFunction, if_pos hnode]
    rfl
  refine ⟨fun hnode => ?_, fun signature hnode hanswer => ?_, fun error hnode hanswer => ?_⟩
  · rw [IndexedGraph.rebindFunction, if_neg (by simp [hnode])]
    rfl
  · rw [hrun hnode, refresh_run, hanswer]
    rfl
  · rw [hrun hnode, refresh_run, hanswer]
    rfl

/-! ### Every use keeps the cache right -/

variable {answer} in
theorem Consults.recalls {α : Type} {ref : FunctionRef} {use : Signature → Except CatalogError α}
    {outcome : (Except CatalogError α × SignatureCache) × List Occurrence}
    (h : c.Recalls history) (hc : Consults answer c history ref use outcome) :
    outcome.1.2.Recalls outcome.2 := by
  by_cases hknown : Known history ref
  · obtain ⟨signature, hsignature⟩ := known_iff.mp hknown
    rw [hc.remembered signature hsignature]
    exact h
  · cases hanswer : answer history ref with
    | ok signature =>
        rw [hc.extracted signature hknown hanswer]
        exact h.insert ref signature
    | error error =>
        rw [hc.failed error hknown hanswer]
        exact h.failed ref error

variable {answer} in
theorem Renews.recalls {s : IndexedGraph} {id : NodeId} {ref : FunctionRef}
    {outcome : (Except CatalogError IndexedGraph × SignatureCache) × List Occurrence}
    (h : c.Recalls history) (hr : Renews answer c history s id ref outcome) :
    outcome.1.2.Recalls outcome.2 := by
  cases hnode : s.hasNode id with
  | false =>
      rw [hr.missing hnode]
      exact h
  | true =>
      cases hanswer : answer history ref with
      | ok signature =>
          rw [hr.extracted signature hnode hanswer]
          exact h.insert ref signature
      | error error =>
          rw [hr.failed error hnode hanswer]
          exact h.failed ref error

theorem recalls_perform (h : c.Recalls history) (use : Use) :
    ((use.perform answer c).run history).1.Recalls ((use.perform answer c).run history).2 := by
  cases use with
  | signature ref => exact (consults_signature answer h ref).recalls h
  | addFunction s kind parameters =>
      have hadded := (consults_addFunction answer h s kind parameters).recalls h
      exact hadded
  | rebindFunction s id ref => exact (renews_rebindFunction answer c history s id ref).recalls h
  | invalidate ref => exact h.erase ref
  | invalidateFile path => exact h.eraseFile path
  | clear => exact h.clear

theorem recalls_foldlM (h : c.Recalls history) (uses : List Use) :
    ((uses.foldlM (Use.perform answer) c).run history).1.Recalls
      ((uses.foldlM (Use.perform answer) c).run history).2 := by
  induction uses generalizing c history with
  | nil => exact h
  | cons use uses ih => exact ih (recalls_perform answer h use)

end

/-- What a cache does after some uses of a catalog. -/
structure Coherent (answer : List Occurrence → FunctionRef → Except ExtractionError Signature)
    (c : SignatureCache) (history : List Occurrence) : Prop where
  known : ∀ ref, (∃ signature, c.get? ref = some signature) ↔ Known history ref
  remembered : ∀ ref signature, c.get? ref = some signature ↔ Remembered history ref signature
  signature : ∀ ref,
    Consults answer c history ref .ok ((c.signature (recorded answer) ref).run history)
  addFunction : ∀ (s : IndexedGraph) (kind : NodeKind) (parameters : Values),
    Consults answer c history kind.functionRef
      (fun signature => (s.graph.addSignature signature kind parameters).map
        fun (id, graph) => (id, ⟨graph, s.placesWith id⟩))
      ((s.addFunction c (recorded answer) kind parameters).run history)
  rebindFunction : ∀ (s : IndexedGraph) (id : NodeId) (ref : FunctionRef),
    Renews answer c history s id ref ((s.rebindFunction c (recorded answer) id ref).run history)
  replaced : ∀ ref signature other, (c.insert ref signature).get? other =
    if other.Same ref then some signature else c.get? other
  dropped : ∀ ref other : FunctionRef, (c.erase ref).get? other =
    if other.Same ref then none else c.get? other
  fileDropped : ∀ (path : FilePath) (other : FunctionRef), (c.eraseFile path).get? other =
    if other.filePath.components = path.components then none else c.get? other

/-- However a catalog is used and whatever the extractor answers, signatures are extracted just when
they are not known, and what is known is what was extracted last. -/
theorem signatures_coherent
    (answer : List Occurrence → FunctionRef → Except ExtractionError Signature) (uses : List Use)
    {c : SignatureCache} {history : List Occurrence} (h : afterUses answer uses = (c, history)) :
    Coherent answer c history := by
  have hrecalls : c.Recalls history := by
    have hall := recalls_foldlM answer .empty uses
    unfold afterUses at h
    rwa [h] at hall
  exact
    { known := hrecalls.known_iff
      remembered := hrecalls
      signature := consults_signature answer hrecalls
      addFunction := consults_addFunction answer hrecalls
      rebindFunction := renews_rebindFunction answer c history
      replaced := c.get?_insert
      dropped := c.get?_erase
      fileDropped := c.get?_eraseFile }

/-- Only the first call is answered with a signature. -/
def onceAvailable (history : List Occurrence) (ref : FunctionRef) :
    Except ExtractionError Signature :=
  match history with
  | [] => .ok ⟨ref.functionName, [], [], none⟩
  | _ :: _ => .error (.unavailable "down")

/-- A function is known under another spelling of its path when it cannot be extracted any more. -/
theorem signatures_coherent_spellings : ∃ c history,
    afterUses onceAvailable
        [.signature ⟨⟨"a//b.py"⟩, "f"⟩, .signature ⟨⟨"c.py"⟩, "f"⟩, .invalidateFile ⟨"c.py/"⟩] =
      (c, history) ∧
    history.length = 3 ∧
    (c.signature (recorded onceAvailable) ⟨⟨"a/./b.py"⟩, "f"⟩).run history =
      ((.ok ⟨"f", [], [], none⟩, c), history) ∧
    c.get? ⟨⟨"c.py"⟩, "f"⟩ = none := by
  let history : List Occurrence :=
    [.extracted ⟨⟨"a//b.py"⟩, "f"⟩ (.ok ⟨"f", [], [], none⟩),
      .extracted ⟨⟨"c.py"⟩, "f"⟩ (.error (.unavailable "down")), .fileForgotten ⟨"c.py/"⟩]
  have huses : afterUses onceAvailable
      [.signature ⟨⟨"a//b.py"⟩, "f"⟩, .signature ⟨⟨"c.py"⟩, "f"⟩, .invalidateFile ⟨"c.py/"⟩] =
        (⟨[(⟨⟨"a//b.py"⟩, "f"⟩, ⟨"f", [], [], none⟩)]⟩, history) := rfl
  have hcoherent := signatures_coherent onceAvailable _ huses
  refine ⟨_, _, huses, rfl, (hcoherent.signature _).remembered _ ?_, rfl⟩
  refine ⟨[], _, _, rfl, ⟨⟨rfl, rfl⟩, rfl⟩, ?_⟩
  have hpaths : (⟨"a/./b.py"⟩ : FilePath).components ≠ (⟨"c.py/"⟩ : FilePath).components := by
    decide
  exact List.forall_mem_cons.mpr
    ⟨⟨id, fun _ => id⟩, List.forall_mem_singleton.mpr ⟨hpaths, fun _ => id⟩⟩

end Catalog

end Dataflow

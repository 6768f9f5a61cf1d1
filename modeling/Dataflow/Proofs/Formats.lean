import Dataflow.Call
import Dataflow.Interpreter.Launch
import Dataflow.Link
import Dataflow.Proofs.Document.Entries
import Dataflow.Run.Config
import Dataflow.Signature
import Mathlib.Logic.Function.Basic

/-! # Formats that lose nothing

Whatever is exchanged is written as a value that is read back as the same. An optional field is left
out when there is nothing to write, and its reader supplies just that; so it is for empty maps. The
fields of an object may stand in any order, which matters for a kind of node, since the fields of
its function are read only after all of them have been seen.
-/

namespace Dataflow

open Json (Reader Field Fields Source Scan Arrangement)
open Json.Fields (Tuple.cons Tuple.nil)

/-- A format loses nothing: whatever has it is read back from the value that it is written as, and
nothing else is written as the same value. The fields of objects stand as they are written, in
ascending order, or in another order that depends on the value alone. -/
structure Lossless {α : Type} (toJson : α → Json) (reader : Reader α) : Prop where
  read_back : ∀ (a : α) (arrangement : Arrangement),
    reader.readValue (arrangement.apply (toJson a)) = .ok a
  injective : ∀ arrangement : Arrangement,
    Function.Injective fun a => arrangement.apply (toJson a)

/-- What is read back is never written as the same as something else. -/
theorem Lossless.of_read_back {α : Type} {toJson : α → Json} {reader : Reader α}
    (h : ∀ (a : α) (arrangement : Arrangement),
      reader .value (.ofJson (arrangement.apply (toJson a))) = .ok a) :
    Lossless toJson reader where
  read_back := h
  injective arrangement a b heq := by
    have hread := h a arrangement
    rw [show arrangement.apply (toJson a) = arrangement.apply (toJson b) from heq,
      h b arrangement] at hread
    exact (Except.ok.inj hread).symm

variable {source : Source} (arrangement : Arrangement)

/-! ### Nodes -/

@[simp] theorem FilePath.apply_toJson (path : FilePath) :
    arrangement.apply path.toJson = path.toJson :=
  arrangement.apply_string path.text

@[simp] theorem FilePath.reader_toJson (source : Source) (path : FilePath) :
    reader source (.ofJson path.toJson) = .ok path :=
  rfl

@[simp] theorem FilePath.optional_reader_toJson (source : Source) (path : FilePath) :
    reader.optional source (.ofJson path.toJson) = .ok (some path) :=
  rfl

@[simp] theorem NodeId.apply_toJson (id : NodeId) : arrangement.apply id.toJson = id.toJson :=
  arrangement.apply_ofUInt64 id.value

@[simp] theorem NodeId.reader_toJson (source : Source) (id : NodeId) :
    reader source (.ofJson id.toJson) = .ok id :=
  Reader.map_eq_ok_iff.mpr ⟨id.value, Reader.uint64_ofUInt64 id.value, rfl⟩

namespace FunctionRef

theorem nodup_keys_toFields (ref : FunctionRef) : (ref.toFields.map Prod.fst).Nodup := by
  simp [toFields]

/-- A function is read from its fields in any order. -/
theorem reader_object_of_perm (h : source.Admits 1) {ref : FunctionRef}
    {written : List (String × Json)} (hperm : written.Perm ref.toFields) :
    reader source (.ofJson (.object written)) = .ok ref := by
  obtain ⟨inner, henter, -⟩ := h.exists_enter
  refine Reader.map_eq_ok_iff.mpr
    ⟨Tuple.cons ref.filePath (Tuple.cons ref.functionName Tuple.nil), ?_, rfl⟩
  refine (Reader.record_object_eq_ok_iff_reads henter).mpr (Fields.Reads.perm ?_
    (hperm.symm.map fun part => (part.1, Scan.ofJson part.2)))
  simp [fields, toFields, Fields.reads_cons_iff, Fields.reads_nil]

theorem apply_toFields (ref : FunctionRef) :
    ref.toFields.map (fun field => (field.1, arrangement.apply field.2)) = ref.toFields := by
  simp [toFields]

theorem reader_apply_toJson (h : source.Admits 1) (ref : FunctionRef) :
    reader source (.ofJson (arrangement.apply ref.toJson)) = .ok ref := by
  obtain ⟨written, happly, hperm⟩ :=
    arrangement.apply_object ref.toFields ref.nodup_keys_toFields
  rw [apply_toFields] at hperm
  rw [toJson, happly]
  exact reader_object_of_perm h hperm

end FunctionRef

namespace NodeKind

/-- Fields that are not the tag of a kind are kept, the last one first. -/
theorem foldlM_readField {written : List (String × Json)}
    (h : ∀ field ∈ written, field.1 ≠ "kind" ∧ source.Admits field.2.depth)
    (tag? : Option (FunctionRef → NodeKind)) (others : List (Json.ScannedKey × Scan)) :
    (Json.scanFields written).foldlM (readField source) (tag?, others) =
      .ok (tag?, (Json.scanFields written).reverse ++ others) := by
  induction written generalizing others with
  | nil => rfl
  | cons field written ih =>
      obtain ⟨key, value⟩ := field
      obtain ⟨⟨hkey, hvalue⟩, hwritten⟩ := List.forall_mem_cons.mp h
      have hread := Json.toJson_ofJson_eq_ok_iff.mpr ⟨hvalue, rfl⟩
      have hstep : readField source (tag?, others) (.ok key, .ofJson value) =
          .ok (tag?, (.ok key, .ofJson value) :: others) := by
        refine bind_eq_ok_iff.mpr ⟨key, rfl, ?_⟩
        rw [if_neg hkey]
        exact bind_eq_ok_iff.mpr ⟨_, hread, rfl⟩
      rw [Json.scanFields, List.foldlM_cons, hstep, List.reverse_cons, List.append_assoc]
      exact ih hwritten _

/-- The tag of a kind makes the kind of its function. -/
theorem exists_tagReader (source : Source) (kind : NodeKind) :
    ∃ make, tagReader source (.ofJson (.string kind.tag)) = .ok make ∧
      make kind.functionRef = kind := by
  cases kind with
  | function ref => exact ⟨.function, rfl, rfl⟩
  | load ref => exact ⟨.load, rfl, rfl⟩

/-- A kind is read from its fields in any order, so its tag may come last. -/
theorem reader_object_of_perm (h : source.Admits 1) {kind : NodeKind}
    {written : List (String × Json)}
    (hperm : written.Perm (("kind", .string kind.tag) :: kind.functionRef.toFields)) :
    reader source (.ofJson (.object written)) = .ok kind := by
  obtain ⟨inner, henter, -⟩ := h.exists_enter
  obtain ⟨before, after, rfl⟩ := List.append_of_mem (hperm.mem_iff.mpr List.mem_cons_self)
  have hfields : (before ++ after).Perm kind.functionRef.toFields :=
    (List.perm_middle.symm.trans hperm).cons_inv
  have hothers : ∀ field ∈ before ++ after,
      field.1 ≠ "kind" ∧ inner.Admits field.2.depth := by
    intro field hfield
    have hfield := hfields.mem_iff.mp hfield
    simp only [FunctionRef.toFields, List.mem_cons, List.not_mem_nil, or_false] at hfield
    rcases hfield with rfl | rfl <;> exact ⟨by simp, inner.admits_zero⟩
  obtain ⟨hbefore, hafter⟩ := List.forall_mem_append.mp hothers
  obtain ⟨make, hmake, hkind⟩ := exists_tagReader inner kind
  have htag (others : List (Json.ScannedKey × Scan)) :
      readField inner (none, others) (.ok "kind", .ofJson (.string kind.tag)) =
        .ok (some make, others) :=
    bind_eq_ok_iff.mpr ⟨"kind", rfl, bind_eq_ok_iff.mpr ⟨make, hmake, rfl⟩⟩
  have hparts : (Json.scanFields (before ++ ("kind", .string kind.tag) :: after)).foldlM
      (readField inner) (none, []) =
        .ok (some make, (Json.scanFields (before ++ after)).reverse) := by
    rw [Json.scanFields_eq_map, List.map_append, List.map_cons, List.foldlM_append,
      ← Json.scanFields_eq_map, foldlM_readField hbefore]
    refine bind_eq_ok_iff.mpr ⟨_, rfl, ?_⟩
    rw [List.foldlM_cons, htag]
    refine bind_eq_ok_iff.mpr ⟨_, rfl, ?_⟩
    rw [← Json.scanFields_eq_map, foldlM_readField hafter]
    simp [Json.scanFields_eq_map]
  have hbuffer : Source.buffer.Admits 1 := trivial
  have hread := FunctionRef.reader_object_of_perm hbuffer hfields
  rw [Scan.ofJson, reader, henter]
  refine bind_eq_ok_iff.mpr ⟨_, rfl, bind_eq_ok_iff.mpr ⟨_, hparts, ?_⟩⟩
  refine bind_eq_ok_iff.mpr ⟨(), rfl, bind_eq_ok_iff.mpr ⟨_, ?_, congrArg _ hkind⟩⟩
  rw [List.reverse_reverse]
  exact hread

theorem reader_apply_toJson (h : source.Admits 1) (kind : NodeKind) :
    reader source (.ofJson (arrangement.apply kind.toJson)) = .ok kind := by
  obtain ⟨written, happly, hperm⟩ := arrangement.apply_object
    (("kind", .string kind.tag) :: kind.functionRef.toFields) (by simp [FunctionRef.toFields])
  rw [List.map_cons, arrangement.apply_string, FunctionRef.apply_toFields] at hperm
  rw [toJson, happly]
  exact reader_object_of_perm h hperm

example : reader.readValue (.object [("function_name", .string "f"), ("file_path", .string "a.py"),
    ("kind", .string "load")]) = .ok (.load ⟨⟨"a.py"⟩, "f"⟩) :=
  rfl

end NodeKind

theorem NodeStatus.reader_apply_toJson (source : Source) (status : NodeStatus) :
    reader source (.ofJson (arrangement.apply status.toJson)) = .ok status := by
  rw [toJson, arrangement.apply_string]
  cases status <;> rfl

theorem Socket.reader_apply_toJson (h : source.Admits 1) (socket : Socket) :
    reader source (.ofJson (arrangement.apply socket.toJson)) = .ok socket := by
  obtain ⟨inner, henter, -⟩ := h.exists_enter
  refine Reader.map_eq_ok_iff.mpr
    ⟨Tuple.cons socket.name (Tuple.cons socket.typeHint Tuple.nil), ?_, rfl⟩
  refine (Reader.record_apply_object_eq_ok_iff arrangement ?_ henter).mpr ?_
  · exact List.Nodup.sublist ((Json.map_fst_field?_sublist _ _ _).cons_cons "name") (by decide)
  · simp [Fields.reads_cons_iff, Fields.reads_nullable_iff, Fields.reads_field?_last_iff,
      Field.absentFrom_scans_field?]

/-! ### Links -/

@[simp] theorem LinkId.apply_toJson (id : LinkId) : arrangement.apply id.toJson = id.toJson :=
  arrangement.apply_ofUInt64 id.value

@[simp] theorem LinkId.reader_toJson (source : Source) (id : LinkId) :
    reader source (.ofJson id.toJson) = .ok id :=
  Reader.map_eq_ok_iff.mpr ⟨id.value, Reader.uint64_ofUInt64 id.value, rfl⟩

theorem Link.reader_apply_toJson (h : source.Admits 1) (link : Link) :
    reader source (.ofJson (arrangement.apply link.toJson)) = .ok link := by
  obtain ⟨inner, henter, -⟩ := h.exists_enter
  refine Reader.map_eq_ok_iff.mpr ⟨Tuple.cons link.id (Tuple.cons link.source (Tuple.cons
    link.output (Tuple.cons link.target (Tuple.cons link.input (Tuple.cons link.linkType
      Tuple.nil))))), ?_, rfl⟩
  refine (Reader.record_apply_object_eq_ok_iff arrangement (by simp) henter).mpr ?_
  have hlinkType : arrangement.apply (Json.ofOption .string link.linkType) =
      Json.ofOption .string link.linkType := by
    cases link.linkType <;> simp [Json.ofOption]
  have hread : (Field.nullable "link_type" Reader.string).reader inner
      (.ofJson (Json.ofOption .string link.linkType)) = .ok link.linkType :=
    Reader.optional_string_eq_ok_iff.mpr rfl
  simp [Fields.reads_cons_iff, Fields.reads_nil, hlinkType, hread]

/-! ### Signatures -/

theorem ParamSpec.reader_apply_toJson (h : source.Admits 1) (p : ParamSpec) :
    reader source (.ofJson (arrangement.apply p.toJson)) = .ok p := by
  obtain ⟨inner, henter, -⟩ := h.exists_enter
  refine Reader.map_eq_ok_iff.mpr
    ⟨Tuple.cons p.name (Tuple.cons p.typeHint Tuple.nil), ?_, rfl⟩
  refine (Reader.record_apply_object_eq_ok_iff arrangement ?_ henter).mpr ?_
  · exact List.Nodup.sublist ((Json.map_fst_field?_sublist _ _ _).cons_cons "name") (by decide)
  · simp [Fields.reads_cons_iff, Fields.reads_field?_last_iff, Field.absentFrom_scans_field?]

theorem Signature.reader_apply_toJson (h : source.Admits 3) (s : Signature) :
    reader source (.ofJson (arrangement.apply s.toJson)) = .ok s := by
  obtain ⟨inner, henter, hinner⟩ := h.exists_enter
  obtain ⟨innermost, hlists, hinnermost⟩ := hinner.exists_enter
  have hparams (params : List ParamSpec) : ParamSpec.reader.list inner
      (.ofJson (arrangement.apply (.array (params.map ParamSpec.toJson)))) = .ok params :=
    Reader.list_apply_array arrangement hlists fun p _ =>
      ParamSpec.reader_apply_toJson arrangement hinnermost p
  have hline (line : UInt32) : Reader.uint32.optional inner
      (.ofJson (arrangement.apply (.ofNat line.toNat))) = .ok (some line) := by
    rw [Json.ofNat, arrangement.apply_number]
    exact Reader.optional_eq_ok_iff.mpr
      (.inr ⟨by simp, line, Reader.uint32_eq_ok_iff.mpr rfl, rfl⟩)
  refine Reader.map_eq_ok_iff.mpr ⟨Tuple.cons s.functionName (Tuple.cons s.parameters
    (Tuple.cons s.returnValues (Tuple.cons s.line Tuple.nil))), ?_, rfl⟩
  refine (Reader.record_apply_object_eq_ok_iff arrangement ?_ henter).mpr ?_
  · rw [List.map_append]
    have hsublist := (List.Sublist.refl ["functionName", "parameters", "returnValues"]).append
      (Json.map_fst_field?_sublist "line" (fun line : UInt32 => .ofNat line.toNat) s.line)
    exact List.Nodup.sublist hsublist (by decide)
  · simp [Fields.reads_cons_iff, Fields.reads_field?_last_iff, Field.absentFrom_scans_field?,
      hparams, hline]

/-! ### Calls and runs -/

theorem Request.reader_apply_toJson_eq_ok_iff (h : source.Admits 2) {r r' : Request} :
    reader source (.ofJson (arrangement.apply r.toJson)) = .ok r' ↔
      source.Admits ((Json.ofMap r.inputs).depth + 1) ∧ r' = r := by
  obtain ⟨inner, henter, hinner⟩ := h.exists_enter
  obtain ⟨innermost, hlist, -⟩ := hinner.exists_enter
  have hnames : Reader.string.list inner
      (.ofJson (arrangement.apply (.ofStrings r.outputNames))) = .ok r.outputNames :=
    Reader.list_apply_array arrangement hlist fun _ _ => by simp
  have hfunction := FunctionRef.reader_apply_toJson arrangement hinner r.functionRef
  rw [reader, Reader.map_eq_ok_iff_of_inverse (g := fun r => Tuple.cons r.runId
    (Tuple.cons r.nodeId (Tuple.cons r.functionRef (Tuple.cons r.inputs
      (Tuple.cons r.outputNames Tuple.nil))))) (fun _ => rfl) (fun _ => rfl)]
  refine (Reader.record_apply_object_eq_ok_iff arrangement (by simp) henter).trans ?_
  refine Iff.trans (b := r.runId = r'.runId ∧ r.nodeId = r'.nodeId ∧
    r.functionRef = r'.functionRef ∧ (inner.Admits (Json.ofMap r.inputs).depth ∧
      r'.inputs = r.inputs) ∧ r.outputNames = r'.outputNames)
    (by simp [Fields.reads_cons_iff, Fields.reads_nil, hnames, hfunction,
      Reader.keyMap_datum_ofMap_eq_ok_iff]) ?_
  rw [Source.admits_succ_of_enter henter]
  constructor
  · rintro ⟨hrun, hnode, hfunction, ⟨hadmits, hinputs⟩, hnames⟩
    cases r'
    cases hrun; cases hnode; cases hfunction; cases hinputs; cases hnames
    exact ⟨hadmits, rfl⟩
  · rintro ⟨hadmits, rfl⟩
    exact ⟨rfl, rfl, rfl, ⟨hadmits, rfl⟩, rfl⟩

/-- Texts under names are read back. -/
theorem Json.Reader.keyMap_string_ofMap (h : source.Admits 1) (m : KeyMap String) :
    Reader.string.keyMap source (.ofJson (.ofMap (m.map .string))) = .ok m := by
  obtain ⟨inner, henter, -⟩ := h.exists_enter
  refine (Reader.keyMap_object_eq_ok_iff henter).mpr ⟨m.entries, ?_, KeyMap.ofList_entries m⟩
  exact List.forall₂_map_left_iff.mpr (List.forall₂_map_left_iff.mpr
    (List.forall₂_same.mpr fun _ _ => ⟨rfl, rfl⟩))

theorem Launch.reader_apply_toJson (h : source.Admits 2) (l : Launch) :
    reader source (.ofJson (arrangement.apply l.toJson)) = .ok l := by
  obtain ⟨inner, henter, hinner⟩ := h.exists_enter
  have henv : (Fields.cons (.withDefault "env" (Reader.keyMap Reader.string) .empty) .nil).Reads
      inner (arrangement.scans (if l.env.isEmpty then [] else
        [("env", .ofMap (l.env.map .string))])) (Tuple.cons l.env Tuple.nil) := by
    refine (Fields.reads_unlessEmpty_iff (p := True) arrangement (fun _ => trivial) ?_).mpr
      ⟨trivial, rfl⟩
    rw [arrangement.apply_ofMap, Json.Reader.keyMap_string_ofMap hinner]
    simp
  refine Reader.map_eq_ok_iff.mpr ⟨Tuple.cons l.interpreter (Tuple.cons l.workingDir
    (Tuple.cons l.env Tuple.nil)), ?_, rfl⟩
  refine (Reader.record_apply_object_eq_ok_iff arrangement ?_ henter).mpr ?_
  · simp only [List.map_append, List.map_cons]
    have hsublist := ((Json.map_fst_field?_sublist "working_dir" FilePath.toJson
      l.workingDir).cons_cons "interpreter")
    split
    · exact List.Nodup.sublist (hsublist.append (.refl [])) (by decide)
    · exact List.Nodup.sublist (hsublist.append (.refl ["env"])) (by decide)
  · simp [Fields.reads_cons_iff, Fields.reads_field?_iff, Field.absentFrom_scans_field?,
      Field.absentFrom_scans_unless, henv]

theorem RunConfig.reader_apply_toJson (h : source.Admits 1) (c : RunConfig) :
    reader source (.ofJson (arrangement.apply c.toJson)) = .ok c := by
  obtain ⟨inner, henter, -⟩ := h.exists_enter
  refine Reader.map_eq_ok_iff.mpr ⟨Tuple.cons c.maxConcurrency Tuple.nil, ?_, rfl⟩
  refine (Reader.record_apply_object_eq_ok_iff arrangement ?_ henter).mpr ?_
  · exact List.Nodup.sublist (Json.map_fst_field?_sublist "max_concurrency" _ _) (by decide)
  · refine (Fields.reads_field?_last_iff arrangement fun n => ?_).mpr rfl
    rw [arrangement.apply_ofUInt64]
    exact (Reader.optional_eq_ok_iff_ofOption (fun _ => Reader.index_eq_ok_iff) nofun).mpr rfl

/-! ### Everything that is exchanged -/

/-- The entries of a document, the parts of a graph, what is asked of an interpreter and what it
answers, and the configurations lose nothing when they are written. -/
theorem formats_lossless :
    Lossless Document.NodeEntry.toJson Document.NodeEntry.reader ∧
      Lossless Document.SocketEntry.toJson Document.SocketEntry.reader ∧
      Lossless Document.LinkEntry.toJson Document.LinkEntry.reader ∧
      Lossless Document.toJson Document.reader ∧
      Lossless FunctionRef.toJson FunctionRef.reader ∧
      Lossless NodeKind.toJson NodeKind.reader ∧
      Lossless NodeStatus.toJson NodeStatus.reader ∧
      Lossless Socket.toJson Socket.reader ∧
      Lossless Link.toJson Link.reader ∧
      Lossless ParamSpec.toJson ParamSpec.reader ∧
      Lossless Signature.toJson Signature.reader ∧
      Lossless Request.toJson Request.reader ∧
      Lossless Launch.toJson Launch.reader ∧
      Lossless RunConfig.toJson RunConfig.reader := by
  have hadmits (n : Nat) : Source.value.Admits n := trivial
  refine ⟨.of_read_back fun entry arrangement => ?_, .of_read_back fun entry arrangement => ?_,
    .of_read_back fun entry arrangement => ?_, .of_read_back fun d arrangement => ?_,
    .of_read_back fun ref arrangement => ?_, .of_read_back fun kind arrangement => ?_,
    .of_read_back fun status arrangement => ?_, .of_read_back fun socket arrangement => ?_,
    .of_read_back fun link arrangement => ?_, .of_read_back fun p arrangement => ?_,
    .of_read_back fun s arrangement => ?_, .of_read_back fun r arrangement => ?_,
    .of_read_back fun l arrangement => ?_, .of_read_back fun c arrangement => ?_⟩
  · exact (Document.NodeEntry.reader_apply_toJson_eq_ok_iff arrangement (hadmits 4)).mpr
      ⟨hadmits _, rfl⟩
  · exact Document.SocketEntry.reader_apply_toJson arrangement (hadmits 2) entry
  · exact Document.LinkEntry.reader_apply_toJson arrangement (hadmits 1) entry
  · exact (Document.reader_apply_toJson_eq_ok_iff arrangement (hadmits 6)).mpr
      ⟨fun _ _ => hadmits _, rfl⟩
  · exact FunctionRef.reader_apply_toJson arrangement (hadmits 1) ref
  · exact NodeKind.reader_apply_toJson arrangement (hadmits 1) kind
  · exact NodeStatus.reader_apply_toJson arrangement _ status
  · exact Socket.reader_apply_toJson arrangement (hadmits 1) socket
  · exact Link.reader_apply_toJson arrangement (hadmits 1) link
  · exact ParamSpec.reader_apply_toJson arrangement (hadmits 1) p
  · exact Signature.reader_apply_toJson arrangement (hadmits 3) s
  · exact (Request.reader_apply_toJson_eq_ok_iff arrangement (hadmits 2)).mpr
      ⟨hadmits _, rfl⟩
  · exact Launch.reader_apply_toJson arrangement (hadmits 2) l
  · exact RunConfig.reader_apply_toJson arrangement (hadmits 1) c

end Dataflow

import Dataflow.Interpreter.Execution
import Dataflow.Interpreter.Extraction
import Dataflow.Proofs.Json.Forms
import Dataflow.Proofs.Json.Scans
import Dataflow.Proofs.Text.Lines
import Dataflow.Proofs.Text.Utf8

/-! # What is made of a run of the interpreter

A run that was not started or not successful says why. A successful one is judged by the value that
it prints: outputs are an object, and a reply about a function is an error where it has the shape of
one, whatever else it holds, and else what was found.
-/

namespace Dataflow

open Json (Reader Field Fields Source valuesUnder OptionUnder)
open Json.Fields (Tuple.cons Tuple.nil)

/-! ### The shapes of replies -/

/-- An object with the name of an error, and a message that may be null or absent. -/
def ErrorShape (value : Json) (name : String) (message : Option String) : Prop :=
  ∃ written, value = .object written ∧ valuesUnder ["error"] written = [.string name] ∧
    OptionUnder .string "message" written message

/-- The value of a parameter: an object, or an array that may end before the type. -/
inductive ParamShape : Json → ParamSpec → Prop
  | byName {written : List (String × Json)} {p : ParamSpec}
      (hname : valuesUnder ["name"] written = [.string p.name])
      (htype : OptionUnder .string "type" written p.typeHint) : ParamShape (.object written) p
  | byPlace {p : ParamSpec} :
      ParamShape (.array [.string p.name, Json.ofOption .string p.typeHint]) p
  | untyped {p : ParamSpec} (htype : p.typeHint = none) : ParamShape (.array [.string p.name]) p

/-- The number of a line. -/
def lineJson (line : UInt32) : Json :=
  .ofNat line.toNat

/-- The value of what was found of a function: an object, or an array of four. -/
inductive FoundShape : Json → Finding → Prop
  | byName {written : List (String × Json)} {f : Finding} {parameters : List Json}
      (hname : valuesUnder ["functionName"] written = [.string f.functionName])
      (hparameters : valuesUnder ["parameters"] written = [.array parameters])
      (hshapes : List.Forall₂ ParamShape parameters f.parameters)
      (hreturned : valuesUnder ["returnValues"] written = [.ofStrings f.returned])
      (hline : OptionUnder lineJson "line" written f.line) : FoundShape (.object written) f
  | byPlace {f : Finding} {parameters : List Json}
      (hshapes : List.Forall₂ ParamShape parameters f.parameters) :
      FoundShape (.array [.string f.functionName, .array parameters, .ofStrings f.returned,
        Json.ofOption lineJson f.line]) f

section

variable {source : Source} {value : Json}

theorem optional_uint32_eq_ok_iff {o : Option UInt32} :
    Reader.uint32.optional source (.ofJson value) = .ok o ↔ value = Json.ofOption lineJson o :=
  Reader.optional_eq_ok_iff_ofOption (fun _ => Reader.uint32_eq_ok_iff) nofun

theorem finds_optional_uint32_iff {key : String} {o : Option UInt32}
    {written : List (String × Json)} :
    (Field.optional key Reader.uint32).Finds source written o ↔
      OptionUnder lineJson key written o :=
  Field.finds_optional_iff (fun _ _ => Reader.uint32_eq_ok_iff) nofun

/-- A value that was read ahead is read as deep as it nests. -/
theorem enter_buffer : Source.buffer.enter = .ok .buffer :=
  rfl

theorem ParamSpec.reader_eq_ok_iff {p : ParamSpec} :
    reader .buffer (.ofJson value) = .ok p ↔ ParamShape value p := by
  rw [reader, Reader.map_eq_ok_iff_of_inverse (g := fun p => Tuple.cons p.name
    (Tuple.cons p.typeHint Tuple.nil)) (fun _ => rfl) (fun _ => rfl),
    Reader.record_ofJson_eq_ok_iff (by decide) enter_buffer]
  simp only [Fields.takes_required_iff, Fields.takes_optional_iff, Fields.takes_nil_iff,
    Fields.finds_cons_iff, Field.finds_string_iff, Field.finds_optional_string_iff,
    Reader.optional_string_eq_ok_iff, Reader.string_eq_ok_iff]
  constructor
  · rintro (⟨_, rfl, _, _, rfl, rfl, ⟨_, _, rfl, rfl, rfl⟩ | ⟨rfl, htype, -⟩⟩ |
      ⟨written, rfl, hname, htype, -⟩)
    · exact .byPlace
    · exact .untyped htype.symm
    · exact .byName hname htype
  · rintro (⟨hname, htype⟩ | _ | htype)
    · exact .inr ⟨_, rfl, hname, htype, Fields.finds_nil _ _⟩
    · exact .inl ⟨_, rfl, _, _, rfl, rfl, .inl ⟨_, _, rfl, rfl, rfl⟩⟩
    · exact .inl ⟨_, rfl, _, _, rfl, rfl, .inr ⟨rfl, htype.symm, trivial⟩⟩

theorem Finding.reader_eq_ok_iff {f : Finding} :
    reader .buffer (.ofJson value) = .ok f ↔ FoundShape value f := by
  rw [reader, Reader.map_eq_ok_iff_of_inverse (g := fun f => Tuple.cons f.functionName
    (Tuple.cons f.parameters (Tuple.cons f.returned (Tuple.cons f.line Tuple.nil))))
    (fun _ => rfl) (fun _ => rfl), Reader.record_ofJson_eq_ok_iff (by decide) enter_buffer]
  simp only [Fields.takes_required_iff, Fields.takes_nullable_iff, Fields.takes_nil_iff,
    Fields.finds_cons_iff, Field.finds_required_iff, Field.finds_nullable_iff,
    finds_optional_uint32_iff, optional_uint32_eq_ok_iff, Reader.string_eq_ok_iff,
    Reader.list_string_eq_ok_iff enter_buffer, Reader.list_ofJson_eq_ok_iff enter_buffer,
    ParamSpec.reader_eq_ok_iff]
  constructor
  · rintro (⟨_, rfl, _, _, rfl, rfl, _, _, rfl, ⟨parameters, rfl, hshapes⟩, _, _, rfl, rfl, _, _,
      rfl, rfl, rfl⟩ | ⟨written, rfl, ⟨_, hname, rfl⟩, ⟨_, hparameters, parameters, rfl, hshapes⟩,
      ⟨_, hreturned, rfl⟩, hline, -⟩)
    · exact .byPlace hshapes
    · exact .byName hname hparameters hshapes hreturned hline
  · rintro (⟨hname, hparameters, hshapes, hreturned, hline⟩ | hshapes)
    · exact .inr ⟨_, rfl, ⟨_, hname, rfl⟩, ⟨_, hparameters, _, rfl, hshapes⟩,
        ⟨_, hreturned, rfl⟩, hline, Fields.finds_nil _ _⟩
    · exact .inl ⟨_, rfl, _, _, rfl, rfl, _, _, rfl, ⟨_, rfl, hshapes⟩, _, _, rfl, rfl, _, _, rfl,
        rfl, rfl⟩

theorem Reply.errorReader_eq_ok_iff {reply : Reply} :
    errorReader .buffer (.ofJson value) = .ok reply ↔
      ∃ name message, ErrorShape value name message ∧ reply = .error name message := by
  rw [errorReader, Reader.map_eq_ok_iff]
  constructor
  · rintro ⟨⟨name, message, ⟨⟩⟩, hread, rfl⟩
    obtain ⟨written, rfl, hname, hmessage, -⟩ :=
      (Reader.objectOnly_ofJson_eq_ok_iff (by decide) enter_buffer).mp hread
    exact ⟨name, message, ⟨written, rfl, Field.finds_string_iff.mp hname,
      Field.finds_optional_string_iff.mp hmessage⟩, rfl⟩
  · rintro ⟨name, message, ⟨written, rfl, hname, hmessage⟩, rfl⟩
    refine ⟨Tuple.cons name (Tuple.cons message Tuple.nil),
      (Reader.objectOnly_ofJson_eq_ok_iff (by decide) enter_buffer).mpr ⟨written, rfl, ?_⟩, rfl⟩
    exact ⟨Field.finds_string_iff.mpr hname, Field.finds_optional_string_iff.mpr hmessage,
      Fields.finds_nil _ _⟩

/-- A reply is an error where it has the shape of one, and else what was found. -/
def ReplyShape (value : Json) : Reply → Prop
  | .error name message => ErrorShape value name message
  | .found f => (∀ name message, ¬ErrorShape value name message) ∧ FoundShape value f

/-- A value has the shape of a reply just when it has one of the two shapes. -/
theorem exists_replyShape_iff : (∃ reply, ReplyShape value reply) ↔
    (∃ name message, ErrorShape value name message) ∨ ∃ f, FoundShape value f := by
  constructor
  · rintro ⟨_ | _, hshape⟩
    · exact .inl ⟨_, _, hshape⟩
    · exact .inr ⟨_, hshape.2⟩
  · intro h
    by_cases herror : ∃ name message, ErrorShape value name message
    · obtain ⟨name, message, hshape⟩ := herror
      exact ⟨.error name message, hshape⟩
    · obtain ⟨f, hshape⟩ := h.resolve_left herror
      exact ⟨.found f, fun name message herror' => herror ⟨name, message, herror'⟩, hshape⟩

theorem Reply.reader_eq_ok_iff (hdepth : value.depth ≤ 127) {reply : Reply} :
    reader .document (.ofJson value) = .ok reply ↔ ReplyShape value reply := by
  have hwhole : ∃ result, (Json.Scan.ofJson value).toJson .document = .ok result :=
    ⟨_, Json.toJson_ofJson_eq_ok_iff.mpr ⟨Source.document_admits_iff.mpr hdepth, rfl⟩⟩
  have hnone : (∀ reply, errorReader .buffer (.ofJson value) ≠ .ok reply) ↔
      ∀ name message, ¬ErrorShape value name message := by
    simp only [ne_eq, errorReader_eq_ok_iff]
    exact ⟨fun h name message hshape => h _ ⟨name, message, hshape, rfl⟩,
      fun h _ ⟨name, message, hshape, _⟩ => h name message hshape⟩
  rw [reader, Reader.oneOf_pair_eq_ok_iff, and_iff_right hwhole, hnone, errorReader_eq_ok_iff,
    Reader.map_eq_ok_iff]
  simp only [Finding.reader_eq_ok_iff]
  cases reply with
  | error name message => simp [ReplyShape]
  | found f => simp [ReplyShape]

example : Reply.reader .document (.ofJson (.object [("functionName", .string "f"),
    ("parameters", .array []), ("error", .string "syntax"), ("returnValues", .array [])])) =
    .ok (.error "syntax" none) :=
  rfl

theorem Reply.readText_eq_ok_iff {text : String} {reply : Reply} :
    reader.readText text = .ok reply ↔
      ∃ value, Json.IsJson text value ∧ value.depth ≤ 127 ∧ ReplyShape value reply := by
  have hwhole (s : Json.Scan) (h : reader .document s = .ok reply) :
      ∃ result, s.toJson .document = .ok result := (Reader.oneOf_pair_eq_ok_iff.mp h).1
  rw [Json.readText_eq_ok_iff_of_whole hwhole]
  exact exists_congr fun value => and_congr_right fun _ => and_congr_right fun hdepth =>
    reader_eq_ok_iff hdepth

end

/-- The values of an object, under each key the last one that is written. -/
def LastOfEach (written : List (String × Json)) (values : Values) : Prop :=
  ∀ key, values.get? key = (valuesUnder [key] written).getLast?.map Datum.of

theorem lastOfEach_iff {written : List (String × Json)} {values : Values} :
    LastOfEach written values ↔ Json.ofMap values = (Json.object written).sorted := by
  have hget (key : String) :
      (KeyMap.ofList (written.map fun field => (field.1, Datum.of field.2))).get? key =
        (valuesUnder [key] written).getLast?.map Datum.of := by
    rw [KeyMap.get?_ofList, valuesUnder, ← List.head?_reverse, ← List.map_reverse,
      ← List.map_reverse, ← List.filter_reverse, List.head?_map, List.head?_filter,
      List.find?_map]
    simp [Function.comp_def]
  have hobject : Json.ofMap (.ofList (written.map fun field => (field.1, Datum.of field.2))) =
      (Json.object written).sorted := by
    rw [Json.ofMap, KeyMap.map_ofList, List.map_map, Json.sorted_object]
    rfl
  rw [← hobject, Json.ofMap_injective.eq_iff, LastOfEach]
  constructor
  · exact fun h => KeyMap.ext_get? fun key => (h key).trans (hget key).symm
  · rintro rfl
    exact hget

theorem exists_lastOfEach (written : List (String × Json)) :
    ∃ values, LastOfEach written values := by
  have hordered : (Json.object written).sorted.Ordered := Json.ordered_sorted _
  refine ⟨(KeyMap.ofList (written.map fun field => (field.1, field.2.sorted))).map Datum.of,
    lastOfEach_iff.mpr ?_⟩
  rw [Json.ofMap_map_of, ← Json.sorted_object]
  exact hordered

/-- Outputs are read from the texts that are JSON for an object of bounded depth. -/
theorem readText_outputs_eq_ok_iff {text : String} {values : Values} :
    (Reader.keyMap Reader.datum).readText text = .ok values ↔
      ∃ written, Json.IsJson text (.object written) ∧ (Json.object written).depth ≤ 127 ∧
        LastOfEach written values := by
  have hwhole (s : Json.Scan) (h : Reader.keyMap Reader.datum .document s = .ok values) :
      ∃ result, s.toJson .document = .ok result :=
    ⟨_, (Reader.keyMap_datum_eq_ok_iff.mp h).2⟩
  rw [Json.readText_eq_ok_iff_of_whole hwhole]
  constructor
  · rintro ⟨value, hjson, hdepth, hread⟩
    obtain ⟨⟨fields, tail, hobject⟩, hvalues⟩ := Reader.keyMap_datum_eq_ok_iff.mp hread
    obtain ⟨-, hsorted⟩ := Json.toJson_ofJson_eq_ok_iff.mp hvalues
    cases value with
    | object written => exact ⟨written, hjson, hdepth, lastOfEach_iff.mpr hsorted⟩
    | _ => cases hobject
  · rintro ⟨written, hjson, hdepth, hlast⟩
    exact ⟨_, hjson, hdepth, Reader.keyMap_datum_eq_ok_iff.mpr ⟨⟨_, _, rfl⟩,
      Json.toJson_ofJson_eq_ok_iff.mpr
        ⟨Source.document_admits_iff.mpr hdepth, lastOfEach_iff.mp hlast⟩⟩⟩

/-! ### Runs -/

/-- A run is successful and prints a value: without the blanks around it, its standard output is
JSON for the value. -/
def Outcome.Prints (o : Outcome) (value : Json) : Prop :=
  ∃ stdout stderr text, o = .ended (.exited 0) stdout stderr ∧
    Text.Trims (Text.decode stdout).toList text.toList ∧ Json.IsJson text value

/-- What a run that was not successful says: the last line of its standard error that is not blank,
without the blanks around it, or how the run ended where there is none. -/
inductive Complains (ending : Ending) (stderr : List UInt8) : String → Prop
  | line {line : List Char} {message : String}
      (hline : Text.IsLastLine (Text.decode stderr).toList line)
      (htrims : Text.Trims line message.toList) : Complains ending stderr message
  | silent (hblank : ∀ c ∈ (Text.decode stderr).toList, Text.isBlank c = true) :
      Complains ending stderr ending.message

/-- What is said of a run that was not started. -/
def Launch.notStarted (launch : Launch) (reason : String) : String :=
  "failed to run " ++ launch.interpreter.text ++ ": " ++ reason

/-- How a call fails by what came of the run. -/
inductive CallFails (launch : Launch) : Outcome → CallError → Prop
  | notStarted (reason : String) :
      CallFails launch (.notStarted reason) (.unavailable (launch.notStarted reason))
  | unsuccessful {ending : Ending} {stdout stderr : List UInt8} {message : String}
      (hending : ending ≠ .exited 0) (hcomplains : Complains ending stderr message) :
      CallFails launch (.ended ending stdout stderr) (.failed message)
  | noObject {stdout stderr : List UInt8} {cause : Json.ReadError}
      (hnone : ∀ written, (Outcome.ended (.exited 0) stdout stderr).Prints (.object written) →
        127 < (Json.object written).depth)
      (hcause : (Reader.keyMap Reader.datum).readText (Text.trim (Text.decode stdout)) =
        .error cause) :
      CallFails launch (.ended (.exited 0) stdout stderr)
        (.invalidOutput ("expected a JSON object of outputs: " ++ cause.message))

/-- The error that a name stands for. -/
inductive NamedError (ref : FunctionRef) : String → Option String → ExtractionError → Prop
  | fileNotFound (message : Option String) :
      NamedError ref "file_not_found" message (.fileNotFound ref.filePath)
  | functionNotFound (message : Option String) :
      NamedError ref "function_not_found" message
        (.functionNotFound ref.filePath ref.functionName)
  | unparseable (message : Option String) :
      NamedError ref "syntax" message (.unparseable ref.filePath (message.getD ""))
  | other {name : String} (message : Option String)
      (hname : name ∉ ["file_not_found", "function_not_found", "syntax"]) :
      NamedError ref name message (.unavailable (message.getD name))

/-- How a look-up fails by what came of the run. -/
inductive LookupFails (launch : Launch) (ref : FunctionRef) : Outcome → ExtractionError → Prop
  | notStarted (reason : String) :
      LookupFails launch ref (.notStarted reason) (.unavailable (launch.notStarted reason))
  | unsuccessful {ending : Ending} {stdout stderr : List UInt8} {message : String}
      (hending : ending ≠ .exited 0) (hcomplains : Complains ending stderr message) :
      LookupFails launch ref (.ended ending stdout stderr) (.unavailable message)
  | named {o : Outcome} {value : Json} {name : String} {message : Option String}
      {error : ExtractionError} (hprints : o.Prints value) (hdepth : value.depth ≤ 127)
      (hshape : ErrorShape value name message) (hnamed : NamedError ref name message error) :
      LookupFails launch ref o error
  | neither {stdout stderr : List UInt8} {cause : Json.ReadError}
      (hnone : ∀ value, (Outcome.ended (.exited 0) stdout stderr).Prints value →
        value.depth ≤ 127 →
          (∀ name message, ¬ErrorShape value name message) ∧ ∀ f, ¬FoundShape value f)
      (hcause : Reply.reader.readText (Text.trim (Text.decode stdout)) = .error cause) :
      LookupFails launch ref (.ended (.exited 0) stdout stderr)
        (.unavailable ("unexpected extractor reply: " ++ cause.message))

theorem complains_iff {ending : Ending} {stderr : List UInt8} {message : String} :
    Complains ending stderr message ↔ Outcome.complaint ending stderr = message := by
  rw [Outcome.complaint]
  constructor
  · rintro (⟨hline, htrims⟩ | hblank)
    · rw [Text.lastLine?_eq_some_iff.mpr ⟨_, hline, htrims⟩]
      rfl
    · rw [Text.lastLine?_eq_none_iff.mpr hblank]
      rfl
  · rintro rfl
    cases hlast : Text.lastLine? (Text.decode stderr) with
    | none => exact .silent (Text.lastLine?_eq_none_iff.mp hlast)
    | some message =>
        obtain ⟨line, hline, htrims⟩ := Text.lastLine?_eq_some_iff.mp hlast
        exact .line hline htrims

example : Outcome.complaint .killed [0x20, 0x45, 0x0D, 0x0A, 0x20] = "E" :=
  rfl

theorem prints_ended_iff {stdout stderr : List UInt8} {value : Json} :
    (Outcome.ended (.exited 0) stdout stderr).Prints value ↔
      Json.IsJson (Text.trim (Text.decode stdout)) value := by
  constructor
  · rintro ⟨_, _, text, heq, htrims, hjson⟩
    cases heq
    rwa [Text.trim_eq_iff.mpr htrims]
  · exact fun hjson => ⟨_, _, _, rfl, Text.trim_eq_iff.mp rfl, hjson⟩

theorem Reply.signature_eq_ok_iff {ref : FunctionRef} {reply : Reply} {signature : Signature} :
    reply.signature ref = .ok signature ↔ ∃ f, reply = .found f ∧ f.signature = signature := by
  unfold Reply.signature
  split <;> simp

/-- Every error that is reported is the one that its name stands for. -/
theorem Reply.signature_error_eq_iff {ref : FunctionRef} {name : String} {message : Option String}
    {error : ExtractionError} :
    (Reply.error name message).signature ref = .error error ↔
      NamedError ref name message error := by
  constructor
  · intro h
    unfold Reply.signature at h
    split at h
    next heq => cases heq
    next heq =>
      cases heq
      cases h
      exact .fileNotFound message
    next heq =>
      cases heq
      cases h
      exact .functionNotFound message
    next heq =>
      cases heq
      cases h
      exact .unparseable message
    next hfile hfunction hparse heq =>
      cases heq
      cases h
      refine .other message fun hmem => ?_
      simp only [List.mem_cons, List.not_mem_nil, or_false] at hmem
      rcases hmem with rfl | rfl | rfl
      · exact hfile rfl
      · exact hfunction rfl
      · exact hparse rfl
  · rintro (_ | _ | _ | ⟨_, hname⟩)
    · rfl
    · rfl
    · rfl
    · unfold Reply.signature
      split <;> simp_all

section

variable {launch : Launch}

theorem Outcome.outputs_of_success {stdout stderr : List UInt8} :
    (Outcome.ended (.exited 0) stdout stderr).outputs launch =
      readOutputs (Text.trim (Text.decode stdout)) :=
  rfl

theorem Outcome.answer_of_failure {ending : Ending} (h : ending ≠ .exited 0)
    (stdout stderr : List UInt8) : (Outcome.ended ending stdout stderr).answer launch =
      .error (.unsuccessful (complaint ending stderr)) :=
  if_neg (by simpa [Ending.isSuccess] using h)

/-- A run is not started, or it ends without success, or with it. -/
@[elab_as_elim]
theorem Outcome.casesByEnding {motive : Outcome → Prop}
    (notStarted : ∀ reason, motive (.notStarted reason))
    (unsuccessful : ∀ ending stdout stderr, ending ≠ .exited 0 →
      motive (.ended ending stdout stderr))
    (successful : ∀ stdout stderr, motive (.ended (.exited 0) stdout stderr)) (o : Outcome) :
    motive o := by
  cases o with
  | notStarted reason => exact notStarted reason
  | ended ending stdout stderr =>
      by_cases hending : ending = .exited 0
      · subst hending
        exact successful stdout stderr
      · exact unsuccessful ending stdout stderr hending

theorem not_prints_notStarted {reason : String} {value : Json} :
    ¬(Outcome.notStarted reason).Prints value := by
  rintro ⟨_, _, _, heq, -⟩
  cases heq

theorem not_prints_of_failure {ending : Ending} (h : ending ≠ .exited 0)
    {stdout stderr : List UInt8} {value : Json} :
    ¬(Outcome.ended ending stdout stderr).Prints value := by
  rintro ⟨_, _, _, heq, -⟩
  cases heq
  exact h rfl

/-- Outputs come of the runs that print an object of bounded depth. -/
theorem Outcome.outputs_eq_ok_iff {o : Outcome} {values : Values} :
    o.outputs launch = .ok values ↔
      ∃ written, o.Prints (.object written) ∧ (Json.object written).depth ≤ 127 ∧
        LastOfEach written values := by
  cases o using casesByEnding with
  | notStarted reason => exact iff_of_false nofun fun ⟨_, h, _⟩ => not_prints_notStarted h
  | unsuccessful ending stdout stderr hending =>
      rw [outputs, answer_of_failure hending]
      exact iff_of_false nofun fun ⟨_, h, _⟩ => not_prints_of_failure hending h
  | successful stdout stderr =>
      rw [outputs_of_success, readOutputs, mapError_eq_ok_iff, readText_outputs_eq_ok_iff]
      simp only [prints_ended_iff]

theorem Outcome.outputs_eq_error_iff {o : Outcome} {error : CallError} :
    o.outputs launch = .error error ↔ CallFails launch o error := by
  constructor
  · intro h
    cases o using casesByEnding with
    | notStarted reason =>
        cases h
        exact .notStarted reason
    | unsuccessful ending stdout stderr hending =>
        rw [outputs, answer_of_failure hending] at h
        cases h
        exact .unsuccessful hending (complains_iff.mpr rfl)
    | successful stdout stderr =>
        obtain ⟨cause, hcause, rfl⟩ := mapError_eq_error_iff.mp h
        refine .noObject (fun written hprints => ?_) hcause
        obtain ⟨values, hvalues⟩ := exists_lastOfEach written
        by_contra hdepth
        have hread := readText_outputs_eq_ok_iff.mpr
          ⟨written, prints_ended_iff.mp hprints, Nat.not_lt.mp hdepth, hvalues⟩
        rw [hcause] at hread
        cases hread
  · rintro (_ | ⟨hending, hcomplains⟩ | ⟨-, hcause⟩)
    · rfl
    · rw [outputs, answer_of_failure hending, complains_iff.mp hcomplains]
      rfl
    · rw [outputs_of_success, readOutputs, hcause]
      rfl

theorem Launch.respond_eq_outputs_iff {interpret : Invocation → Outcome} {r : Request}
    {values : Values} : launch.respond interpret r = .outputs values ↔
      ((r.invocation launch).run interpret).outputs launch = .ok values := by
  rw [Launch.respond]
  cases ((r.invocation launch).run interpret).outputs launch with
  | ok values' => rw [Response.outputs.injEq, Except.ok.injEq]
  | error e => exact iff_of_false nofun nofun

theorem Launch.respond_eq_error_iff {interpret : Invocation → Outcome} {r : Request}
    {error : CallError} : launch.respond interpret r = .error error ↔
      ((r.invocation launch).run interpret).outputs launch = .error error := by
  rw [Launch.respond]
  cases ((r.invocation launch).run interpret).outputs launch with
  | ok values => exact iff_of_false nofun nofun
  | error e => rw [Response.error.injEq, Except.error.injEq]

theorem Launch.respond_ne_panic {interpret : Invocation → Outcome} {r : Request}
    {message : String} : launch.respond interpret r ≠ .panic message := by
  rw [Launch.respond]
  cases ((r.invocation launch).run interpret).outputs launch <;> nofun

variable {ref : FunctionRef}

theorem Outcome.signature_of_success {stdout stderr : List UInt8} :
    (Outcome.ended (.exited 0) stdout stderr).signature launch ref =
      readSignature ref (Text.trim (Text.decode stdout)) :=
  rfl

theorem Outcome.signature_eq_ok_iff {o : Outcome} {signature : Signature} :
    o.signature launch ref = .ok signature ↔
      ∃ value f, o.Prints value ∧ value.depth ≤ 127 ∧ ReplyShape value (.found f) ∧
        f.signature = signature := by
  cases o using casesByEnding with
  | notStarted reason => exact iff_of_false nofun fun ⟨_, _, h, _⟩ => not_prints_notStarted h
  | unsuccessful ending stdout stderr hending =>
      rw [Outcome.signature, answer_of_failure hending]
      exact iff_of_false nofun fun ⟨_, _, h, _⟩ => not_prints_of_failure hending h
  | successful stdout stderr =>
      simp only [prints_ended_iff]
      rw [signature_of_success, readSignature]
      constructor
      · intro h
        split at h
        next reply hreply =>
          obtain ⟨f, rfl, hf⟩ := Reply.signature_eq_ok_iff.mp h
          obtain ⟨value, hjson, hdepth, hshape⟩ := Reply.readText_eq_ok_iff.mp hreply
          exact ⟨value, f, hjson, hdepth, hshape, hf⟩
        next => cases h
      · rintro ⟨value, f, hjson, hdepth, hshape, rfl⟩
        rw [Reply.readText_eq_ok_iff.mpr ⟨value, hjson, hdepth, hshape⟩]
        rfl

theorem Outcome.signature_eq_error_iff {o : Outcome} {error : ExtractionError} :
    o.signature launch ref = .error error ↔ LookupFails launch ref o error := by
  constructor
  · intro h
    cases o using casesByEnding with
    | notStarted reason =>
        cases h
        exact .notStarted reason
    | unsuccessful ending stdout stderr hending =>
        rw [signature, answer_of_failure hending] at h
        cases h
        exact .unsuccessful hending (complains_iff.mpr rfl)
    | successful stdout stderr =>
        rw [signature_of_success, readSignature] at h
        split at h
        next reply hreply =>
          obtain ⟨value, hjson, hdepth, hshape⟩ := Reply.readText_eq_ok_iff.mp hreply
          cases reply with
          | error name message =>
              exact .named (prints_ended_iff.mpr hjson) hdepth hshape
                (Reply.signature_error_eq_iff.mp h)
          | found f => cases h
        next cause hcause =>
          cases h
          refine .neither (fun value hprints hdepth => ?_) hcause
          have hnone : ¬∃ reply, ReplyShape value reply := by
            rintro ⟨reply, hshape⟩
            have hread := Reply.readText_eq_ok_iff.mpr
              ⟨value, prints_ended_iff.mp hprints, hdepth, hshape⟩
            rw [hcause] at hread
            cases hread
          simpa [exists_replyShape_iff, not_or] using hnone
  · rintro (_ | ⟨hending, hcomplains⟩ |
      @⟨_, value, name, message, _, hprints, hdepth, hshape, hnamed⟩ | ⟨-, hcause⟩)
    · rfl
    · rw [signature, answer_of_failure hending, complains_iff.mp hcomplains]
      rfl
    · obtain ⟨stdout, stderr, text, rfl, htrims, hjson⟩ := hprints
      have hread : Reply.reader.readText text = .ok (.error name message) :=
        Reply.readText_eq_ok_iff.mpr ⟨value, hjson, hdepth, hshape⟩
      rw [signature_of_success, readSignature, Text.trim_eq_iff.mpr htrims, hread]
      exact Reply.signature_error_eq_iff.mpr hnamed
    · rw [signature_of_success, readSignature, hcause]

end

/-! ### A run that prints an object -/

/-- A call of a function without inputs. -/
def plainRequest : Request := ⟨"run", ⟨1⟩, ⟨⟨"a.py"⟩, "f"⟩, .empty, ["x"]⟩

theorem run_plainRequest (o : Outcome) :
    (plainRequest.invocation .default).run (fun _ => o) = o := by
  refine if_neg ?_
  simp [String.contains_char_eq, Invocation.texts, plainRequest, Request.invocation,
    Launch.default, Launch.defaultInterpreter, KeyMap.empty]

/-- A successful run that prints an object of one field. -/
def printing (value : Json) : Outcome :=
  .ended (.exited 0) (Text.bytes (Json.object [("x", value)]).compact) []

theorem printing_prints {value : Json} (h : value.ReadsBack) :
    (printing value).Prints (.object [("x", value)]) := by
  have hreads : (Json.object [("x", value)]).ReadsBack :=
    Json.readsBack_object_iff.mpr (List.forall_mem_singleton.mpr h)
  have htext : (Json.object [("x", value)]).compact.toList = '\x7b' ::
      ((Json.quoted "x" ++ ":" ++ Json.render .compact 1 value).toList ++ ['\x7d']) := by
    simp [Json.compact, Json.render, Json.renderFields, Json.Layout.break, Json.Layout.colon]
  -- The text begins and ends with a brace, so trimming leaves it as it is.
  have htrims : Text.Trims (Json.object [("x", value)]).compact.toList
      (Json.object [("x", value)]).compact.toList := by
    refine ⟨[], [], by simp, List.forall_mem_nil _, List.forall_mem_nil _, ?_, ?_⟩
    · rw [htext, List.head?_cons]
      exact fun c hc => Option.mem_some.mp hc ▸ rfl
    · rw [htext, ← List.cons_append, List.getLast?_concat]
      exact fun c hc => Option.mem_some.mp hc ▸ rfl
  exact ⟨_, _, _, rfl, (Text.decode_bytes _).symm ▸ htrims, Json.isJson_render .compact hreads⟩

/-! ### All runs -/

/-- A call and a look-up are judged by what comes of the run, whatever that is. A call gives outputs
just when the run is successful and prints an object. A function is found just when the run is
successful and prints a value that does not have the shape of an error but has that of a finding,
whatever else it holds. Else there is one error: for a run that could not be started, for one that
was not successful, for the name in an error, and for a value of no use. Of no use is also what
nests more than 127 containers. -/
theorem replies_classified (launch : Launch) (interpret : Invocation → Outcome) :
    (∀ r : Request,
      (∀ values, launch.respond interpret r = .outputs values ↔
        ∃ written, ((r.invocation launch).run interpret).Prints (.object written) ∧
          (Json.object written).depth ≤ 127 ∧ LastOfEach written values) ∧
      (∀ error, launch.respond interpret r = .error error ↔
        CallFails launch ((r.invocation launch).run interpret) error) ∧
      ∀ message, launch.respond interpret r ≠ .panic message) ∧
    ∀ ref : FunctionRef,
      (∀ signature, launch.extract interpret ref = .ok signature ↔
        ∃ value f, ((ref.lookup launch).run interpret).Prints value ∧ value.depth ≤ 127 ∧
          (∀ name message, ¬ErrorShape value name message) ∧ FoundShape value f ∧
          f.signature = signature) ∧
      ∀ error, launch.extract interpret ref = .error error ↔
        LookupFails launch ref ((ref.lookup launch).run interpret) error := by
  refine ⟨fun r => ⟨fun values => ?_, fun error => ?_, fun message => ?_⟩,
    fun ref => ⟨fun signature => ?_, fun error => ?_⟩⟩
  · exact Launch.respond_eq_outputs_iff.trans Outcome.outputs_eq_ok_iff
  · exact Launch.respond_eq_error_iff.trans Outcome.outputs_eq_error_iff
  · exact Launch.respond_ne_panic
  · rw [Launch.extract, Outcome.signature_eq_ok_iff]
    simp only [ReplyShape, and_assoc]
  · exact Outcome.signature_eq_error_iff

/-- An object that is printed gives the outputs. -/
theorem replies_classified_number :
    Launch.default.respond (fun _ => printing (.ofUInt64 1)) plainRequest =
      .outputs (.ofList [("x", .ofNat 1)]) := by
  have hprints := @printing_prints (.ofUInt64 1) (Json.readsBack_ofUInt64 1)
  rw [← run_plainRequest (printing (.ofUInt64 1))] at hprints
  exact (((replies_classified .default fun _ => printing (.ofUInt64 1)).1 plainRequest).1 _).mpr
    ⟨_, hprints, by decide, lastOfEach_iff.mpr rfl⟩

/-- An object around 127 arrays inside one another is JSON, but it is not read. -/
theorem printed_object_unread :
    (printing (.nested 126)).Prints (.object [("x", .nested 126)]) ∧
      ∀ values, Launch.default.respond (fun _ => printing (.nested 126)) plainRequest ≠
        .outputs values := by
  have hprints := printing_prints (Json.floatFree_nested 126).readsBack
  refine ⟨hprints, fun values h => ?_⟩
  obtain ⟨written, hprinted, hdepth, -⟩ :=
    Outcome.outputs_eq_ok_iff.mp (Launch.respond_eq_outputs_iff.mp h)
  rw [run_plainRequest] at hprinted
  have hsame := (prints_ended_iff.mp hprints).unique (prints_ended_iff.mp hprinted)
  rw [← hsame] at hdepth
  have hnested : (Json.object [("x", .nested 126)]).depth = 128 := by
    simp [Json.depth, Json.depthOfFields, Json.depth_nested]
  omega

end Dataflow

import Dataflow.Proofs.Document.Texts
import Dataflow.Proofs.Json.Forms

/-! # The spellings of a link

A link is five numbers and a type. It is written as an array of them, or as an object in which the
ends go by either of two names. Both forms are tried one after the other; they never disagree,
since the record is read from an array just as the tuple is.
-/

namespace Dataflow.Document.LinkEntry

open Json (Reader Field Fields Source valuesUnder)
open Json.Fields (Tuple.cons Tuple.nil)

/-- The numbers of a link in the order in which an array has them. -/
def numbers (link : LinkEntry) : List UInt64 :=
  [link.id, link.source, link.output, link.target, link.input]

/-- The names of the numbers in an object. -/
def numberNames : List (List String) :=
  [["id"], ["sourceNodeId", "origin_id"], ["sourceOutputIndex", "origin_slot"],
    ["targetNodeId", "target_id"], ["targetInputIndex", "target_slot"]]

/-- An object has every number under one of its names, and under no other of them. -/
def Names (written : List (String × Json)) (numbers : List UInt64) : Prop :=
  List.Forall₂ (fun names n => valuesUnder names written = [.ofUInt64 n]) numberNames numbers

/-- The ways to write five numbers and a type. A type that is null may be left out. -/
inductive Spells (numbers : List UInt64) (type : Json) : Json → Prop
  | array : Spells numbers type (.array (numbers.map .ofUInt64 ++ [type]))
  | shortArray (hnull : type = .null) : Spells numbers type (.array (numbers.map .ofUInt64))
  | object {written : List (String × Json)} (hnumbers : Names written numbers)
      (htype : valuesUnder ["type"] written = [type]) : Spells numbers type (.object written)
  | shortObject {written : List (String × Json)} (hnumbers : Names written numbers)
      (htype : valuesUnder ["type"] written = []) (hnull : type = .null) :
      Spells numbers type (.object written)

/-- The values of the fields of a link. -/
def fieldValues (link : LinkEntry) (type : Json) :
    Fields.Tuple [UInt64, UInt64, UInt64, UInt64, UInt64, Json] :=
  Tuple.cons link.id (Tuple.cons link.source (Tuple.cons link.output (Tuple.cons link.target
    (Tuple.cons link.input (Tuple.cons type Tuple.nil)))))

section

variable {source : Source} {items : List Json} {written : List (String × Json)}
  {value type : Json} (link : LinkEntry)

theorem arrayFields_takes_iff :
    arrayFields.Takes .buffer items (link.fieldValues type) ↔
      ∃ item : Json, items = link.numbers.map .ofUInt64 ++ [item] ∧ item.sorted = type := by
  simp [arrayFields, fieldValues, numbers, Fields.takes_required_iff, Fields.takes_nil_iff,
    Reader.uint64_eq_ok_iff, Reader.index_eq_ok_iff, Reader.json_buffer_eq_ok_iff]

theorem recordFields_takes_iff :
    recordFields.Takes .buffer items (link.fieldValues type) ↔
      (∃ item : Json, items = link.numbers.map .ofUInt64 ++ [item] ∧ item.sorted = type) ∨
        (items = link.numbers.map .ofUInt64 ∧ .null = type) := by
  have hleft : recordFields.Takes .buffer items (link.fieldValues type) ↔
      ∃ left, items = link.numbers.map .ofUInt64 ++ left ∧
        ((∃ item, left = [item] ∧ item.sorted = type) ∨ (left = [] ∧ .null = type)) := by
    simp [recordFields, fieldValues, numbers, Fields.takes_required_iff, Fields.takes_either_iff,
      Fields.takes_withDefault_iff, Fields.takes_nil_iff, Reader.uint64_eq_ok_iff,
      Reader.index_eq_ok_iff, Reader.json_buffer_eq_ok_iff]
  rw [hleft]
  constructor
  · rintro ⟨_, hitems, ⟨item, rfl, htype⟩ | ⟨rfl, htype⟩⟩
    · exact .inl ⟨item, hitems, htype⟩
    · exact .inr ⟨hitems.trans (List.append_nil _), htype⟩
  · rintro (⟨item, hitems, htype⟩ | ⟨hitems, htype⟩)
    · exact ⟨[item], hitems, .inl ⟨item, rfl, htype⟩⟩
    · exact ⟨[], hitems.trans (List.append_nil _).symm, .inr ⟨rfl, htype⟩⟩

theorem recordFields_finds_iff :
    recordFields.Finds .buffer written (link.fieldValues type) ↔
      Names written link.numbers ∧
        ((∃ value : Json, valuesUnder ["type"] written = [value] ∧ value.sorted = type) ∨
          (valuesUnder ["type"] written = [] ∧ .null = type)) := by
  simp [recordFields, fieldValues, numbers, Names, numberNames, Fields.finds_cons_iff,
    Field.finds_required_iff, Field.finds_either_iff, Field.finds_withDefault_iff,
    Fields.finds_nil, Reader.uint64_eq_ok_iff, Reader.index_eq_ok_iff,
    Reader.json_buffer_eq_ok_iff, and_assoc]

variable {link}

/-- A form fits where the fields of the link have their values, whatever the type is in order. -/
theorem map_ofTuple_eq_ok_iff
    {r : Reader (Fields.Tuple [UInt64, UInt64, UInt64, UInt64, UInt64, Json])} :
    r.map ofTuple source (.ofJson value) = .ok link ↔
      ∃ type, r source (.ofJson value) = .ok (link.fieldValues type) ∧
        typeOf type = link.linkType := by
  rw [Reader.map_eq_ok_iff]
  constructor
  · rintro ⟨⟨id, origin, output, target, input, type, ⟨⟩⟩, hread, rfl⟩
    exact ⟨type, hread, rfl⟩
  · rintro ⟨type, hread, htype⟩
    exact ⟨_, hread, congrArg (LinkEntry.mk _ _ _ _ _) htype⟩

/-- The first form reads an array of six. -/
theorem tuple_eq_ok_iff :
    (Reader.tuple "a link" arrayFields).map ofTuple .buffer (.ofJson value) = .ok link ↔
      ∃ type : Json, value = .array (link.numbers.map .ofUInt64 ++ [type]) ∧
        typeOf type.sorted = link.linkType := by
  rw [map_ofTuple_eq_ok_iff]
  constructor
  · rintro ⟨_, hread, htype⟩
    obtain ⟨items, rfl, htakes⟩ := (Reader.tuple_ofJson_eq_ok_iff rfl).mp hread
    obtain ⟨item, rfl, rfl⟩ := link.arrayFields_takes_iff.mp htakes
    exact ⟨item, rfl, htype⟩
  · rintro ⟨type, rfl, htype⟩
    refine ⟨type.sorted, (Reader.tuple_ofJson_eq_ok_iff rfl).mpr ⟨_, rfl, ?_⟩, htype⟩
    exact link.arrayFields_takes_iff.mpr ⟨type, rfl, rfl⟩

/-- The second form reads every spelling. -/
theorem record_eq_ok_iff :
    (Reader.record "a link" recordFields).map ofTuple .buffer (.ofJson value) = .ok link ↔
      ∃ type, Spells link.numbers type value ∧ typeOf type.sorted = link.linkType := by
  have hread (values) :
      Reader.record "a link" recordFields .buffer (.ofJson value) = .ok values ↔ _ :=
    Reader.record_ofJson_eq_ok_iff (by decide) rfl
  simp only [map_ofTuple_eq_ok_iff, hread]
  constructor
  · rintro ⟨_, ⟨items, rfl, htakes⟩ | ⟨written, rfl, hfinds⟩, htype⟩
    · rcases link.recordFields_takes_iff.mp htakes with ⟨item, rfl, rfl⟩ | ⟨rfl, rfl⟩
      · exact ⟨item, .array, htype⟩
      · exact ⟨.null, .shortArray rfl, htype⟩
    · obtain ⟨hnumbers, hunder⟩ := link.recordFields_finds_iff.mp hfinds
      rcases hunder with ⟨item, hunder, rfl⟩ | ⟨hunder, rfl⟩
      · exact ⟨item, .object hnumbers hunder, htype⟩
      · exact ⟨.null, .shortObject hnumbers hunder rfl, htype⟩
  · rintro ⟨type, hspells, htype⟩
    refine ⟨type.sorted, ?_, htype⟩
    cases hspells with
    | array => exact .inl ⟨_, rfl, link.recordFields_takes_iff.mpr (.inl ⟨type, rfl, rfl⟩)⟩
    | shortArray hnull =>
        subst hnull
        exact .inl ⟨_, rfl, link.recordFields_takes_iff.mpr (.inr ⟨rfl, rfl⟩)⟩
    | object hnumbers hunder =>
        refine .inr ⟨_, rfl, link.recordFields_finds_iff.mpr ⟨hnumbers, ?_⟩⟩
        exact .inl ⟨type, hunder, rfl⟩
    | shortObject hnumbers hunder hnull =>
        subst hnull
        refine .inr ⟨_, rfl, link.recordFields_finds_iff.mpr ⟨hnumbers, ?_⟩⟩
        exact .inr ⟨hunder, rfl⟩

/-- What the first form reads, the second form reads as the same. -/
theorem record_of_tuple
    (h : (Reader.tuple "a link" arrayFields).map ofTuple .buffer (.ofJson value) = .ok link) :
    (Reader.record "a link" recordFields).map ofTuple .buffer (.ofJson value) = .ok link := by
  obtain ⟨type, rfl, htype⟩ := tuple_eq_ok_iff.mp h
  exact record_eq_ok_iff.mpr ⟨type, .array, htype⟩

/-- A link is read from its spellings and from nothing else. -/
theorem reader_eq_ok_iff :
    reader source (.ofJson value) = .ok link ↔
      source.Admits value.depth ∧
        ∃ type, Spells link.numbers type value ∧ typeOf type.sorted = link.linkType := by
  have hforms : ∀ form ∈ [(Reader.tuple "a link" arrayFields).map ofTuple,
      (Reader.record "a link" recordFields).map ofTuple], ∀ link,
      form .buffer (.ofJson value) = .ok link →
        (Reader.record "a link" recordFields).map ofTuple .buffer (.ofJson value) = .ok link := by
    simpa using fun link => record_of_tuple
  rw [reader, Reader.oneOf_eq_ok_iff_of_mem (by simp) hforms, record_eq_ok_iff]
  simp only [Json.toJson_ofJson_eq_ok_iff, exists_and_left, exists_eq, and_true]

/-- A type that is read into memory is null, a text, or its text with its fields in order. -/
theorem typeOf_sorted (type : Json) : typeOf type.sorted =
    match type with
    | .null => none
    | .string text => some text
    | type => some type.sorted.compact := by
  cases type <;> rfl

theorem reader_of_spells (hadmits : source.Admits value.depth)
    (hspells : Spells link.numbers type value) (htype : typeOf type.sorted = link.linkType) :
    reader source (.ofJson value) = .ok link :=
  reader_eq_ok_iff.mpr ⟨hadmits, type, hspells, htype⟩

/-- An array of which a link is read has its numbers in front and at most one item behind them. -/
theorem items_of_reader (h : reader source (.ofJson (.array items)) = .ok link) :
    ∃ left, items = link.numbers.map .ofUInt64 ++ left ∧ left.length ≤ 1 := by
  obtain ⟨-, type, hspells, -⟩ := reader_eq_ok_iff.mp h
  cases hspells with
  | array => exact ⟨[type], rfl, Nat.le_refl 1⟩
  | shortArray => exact ⟨[], (List.append_nil _).symm, Nat.zero_le 1⟩

/-- An object of which a link is read has each of its numbers under one name. -/
theorem names_of_reader (h : reader source (.ofJson (.object written)) = .ok link) :
    Names written link.numbers := by
  obtain ⟨-, type, hspells, -⟩ := reader_eq_ok_iff.mp h
  cases hspells with
  | object hnumbers => exact hnumbers
  | shortObject hnumbers => exact hnumbers

theorem Names.exists_number {numbers : List UInt64} (h : Names written numbers)
    {names : List String} (hnames : names ∈ numberNames) :
    ∃ n, valuesUnder names written = [.ofUInt64 n] := by
  obtain ⟨i, hi, rfl⟩ := List.mem_iff_getElem.mp hnames
  exact ⟨_, h.get hi (h.length_eq ▸ hi)⟩

end

/-- All spellings of a link mean the same link, whatever its type is and whatever else an object
holds, and nothing else is read as a link: no array that is too short or too long, nothing that
lacks a number or has something else in its place, and no object that has a number under both of its
names. A link is written as an array of six, which is read back. A value in memory is always
admitted, a text where it nests at most 127 containers. -/
theorem spellings_exact :
    (∀ (source : Source) (id origin output target input : UInt64) (type value : Json),
      Spells [id, origin, output, target, input] type value → source.Admits value.depth →
        reader source (.ofJson value) = .ok
          ⟨id, origin, output, target, input,
            match type with
            | .null => none
            | .string text => some text
            | type => some type.sorted.compact⟩) ∧
      (∀ (source : Source) (value : Json) (link : LinkEntry),
        reader source (.ofJson value) = .ok link → ∃ type, Spells link.numbers type value) ∧
      (∀ (source : Source) (items : List Json) (link : LinkEntry),
        reader source (.ofJson (.array items)) = .ok link →
          (items.length = 5 ∨ items.length = 6) ∧
            ∀ i < 5, ∃ n, items[i]? = some (.ofUInt64 n)) ∧
      (∀ (source : Source) (written : List (String × Json)) (link : LinkEntry),
        reader source (.ofJson (.object written)) = .ok link → ∀ names ∈ numberNames,
          (∃ n, valuesUnder names written = [.ofUInt64 n]) ∧
            ∀ name ∈ names, ∀ name' ∈ names, name ≠ name' →
              ¬(name ∈ written.map Prod.fst ∧ name' ∈ written.map Prod.fst)) ∧
      ∀ link : LinkEntry,
        (∃ items, link.toJson = .array items ∧ items.length = 6) ∧
          reader.readValue link.toJson = .ok link ∧
          ∀ layout, reader.readText (Json.render layout 0 link.toJson) = .ok link := by
  refine ⟨?_, ?_, ?_, ?_, ?_⟩
  · intro source id origin output target input type value hspells hadmits
    exact reader_of_spells hadmits hspells (typeOf_sorted type)
  · intro source value link h
    obtain ⟨-, type, hspells, -⟩ := reader_eq_ok_iff.mp h
    exact ⟨type, hspells⟩
  · intro source items link h
    obtain ⟨left, rfl, hleft⟩ := items_of_reader h
    have hlength : (link.numbers.map Json.ofUInt64).length = 5 := rfl
    refine ⟨by grind, fun i hi => ?_⟩
    rw [List.getElem?_append_left (by omega), List.getElem?_map]
    exact ⟨_, by rw [List.getElem?_eq_getElem hi]; rfl⟩
  · intro source written link h names hnames
    obtain ⟨n, hn⟩ := (names_of_reader h).exists_number hnames
    refine ⟨⟨n, hn⟩, ?_⟩
    rintro name hname name' hname' hne ⟨hkey, hkey'⟩
    obtain ⟨field, hfield, rfl⟩ := List.mem_map.mp hkey
    obtain ⟨field', hfield', rfl⟩ := List.mem_map.mp hkey'
    exact hne (congrArg Prod.fst
      (Json.eq_of_valuesUnder_eq_singleton hn hfield hname hfield' hname'))
  · intro link
    have hvalue : Source.value.Admits 1 := trivial
    have htext : Source.document.Admits 1 := Source.document_admits_iff.mpr (by decide)
    refine ⟨⟨_, rfl, rfl⟩, reader_apply_toJson .asWritten hvalue link, fun layout => ?_⟩
    rw [Json.readText_render _ _ link.readsBack_toJson]
    exact reader_apply_toJson .asWritten htext link

/-- An object in a mix of both spellings, with a field of another name. -/
def mixedSpelling : List (String × Json) :=
  [("color", .string "red"), ("target_id", .ofUInt64 2), ("id", .ofUInt64 7),
    ("sourceOutputIndex", .ofUInt64 0), ("origin_id", .ofUInt64 1), ("target_slot", .ofUInt64 0),
    ("type", .array [.null])]

theorem mixedSpelling_spells :
    Spells [7, 1, 0, 2, 0] (.array [.null]) (.object mixedSpelling) := by
  refine .object ?_ ?_ <;> simp [mixedSpelling, Names, numberNames]

/-- The object and the array are the same link, which is written with the text of its type. With
the other name of the source as well, the object is no link. -/
theorem spellings_exact_mixed :
    reader.readValue (.object mixedSpelling) = .ok ⟨7, 1, 0, 2, 0, some "[null]"⟩ ∧
      reader.readValue (.array ([7, 1, 0, 2, 0].map .ofUInt64 ++ [.array [.null]])) =
        .ok ⟨7, 1, 0, 2, 0, some "[null]"⟩ ∧
      (∀ link, reader.readValue
        (.object (("sourceNodeId", .ofUInt64 1) :: mixedSpelling)) ≠ .ok link) ∧
      ∀ link, reader.readValue (.array ([7, 1, 0, 2, 0, 3, 4].map .ofUInt64)) ≠ .ok link := by
  obtain ⟨hspelled, -, harray, hobject, -⟩ := spellings_exact
  have htype : (Json.array [.null]).sorted.compact = "[null]" := by
    cbv
  refine ⟨?_, ?_, fun link hread => ?_, fun link hread => ?_⟩
  · exact htype ▸ hspelled .value 7 1 0 2 0 _ _ mixedSpelling_spells trivial
  · exact htype ▸ hspelled .value 7 1 0 2 0 _ _ .array trivial
  · obtain ⟨-, hone⟩ := hobject .value _ link hread ["sourceNodeId", "origin_id"] (by decide)
    exact hone "sourceNodeId" (by decide) "origin_id" (by decide) (by decide)
      ⟨by decide, by decide⟩
  · obtain ⟨hlength, -⟩ := harray .value _ link hread
    simp at hlength

end Dataflow.Document.LinkEntry

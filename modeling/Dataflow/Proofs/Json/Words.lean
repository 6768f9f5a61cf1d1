import Dataflow.Json.Printer
import Dataflow.Proofs.Json.Numerals
import Dataflow.Proofs.Json.Values

/-! # What is written is scanned

Both layouts write the same words, only the white space between them differs. The words of a value
scan as the value, whatever is open around it. So a text that is written is scanned as the value
that it was written from, as long as the numbers of the value are read back.
-/

namespace Dataflow.Json

/-! ### The numbers of a value -/

mutual

/-- The numbers that stand in a value, in the order of its text. -/
def numbers : Json → List Number
  | .number n => [n]
  | .array items => numbersOfItems items
  | .object fields => numbersOfFields fields
  | _ => []

/-- The numbers that stand in the items of an array. -/
def numbersOfItems : List Json → List Number
  | [] => []
  | item :: items => item.numbers ++ numbersOfItems items

/-- The numbers that stand in the fields of an object. -/
def numbersOfFields : List (String × Json) → List Number
  | [] => []
  | (_, value) :: fields => value.numbers ++ numbersOfFields fields

end

/-- Every number of the value is read back from its text. -/
def ReadsBack (value : Json) : Prop :=
  ∀ n ∈ value.numbers, n.ReadsBack

/-- No number of the value is a fraction. -/
def FloatFree (value : Json) : Prop :=
  ∀ n ∈ value.numbers, n.toInt? ≠ none

theorem FloatFree.readsBack {value : Json} (h : value.FloatFree) : value.ReadsBack :=
  fun n hn => Number.readsBack_of_toInt? (h n hn)

theorem mem_numbersOfItems {items : List Json} {n : Number} :
    n ∈ numbersOfItems items ↔ ∃ item ∈ items, n ∈ item.numbers := by
  induction items with
  | nil => simp [numbersOfItems]
  | cons item items ih => simp [numbersOfItems, ih]

theorem mem_numbersOfFields {fields : List (String × Json)} {n : Number} :
    n ∈ numbersOfFields fields ↔ ∃ field ∈ fields, n ∈ field.2.numbers := by
  induction fields with
  | nil => simp [numbersOfFields]
  | cons field fields ih => simp [numbersOfFields, ih]

theorem readsBack_array_iff {items : List Json} :
    (Json.array items).ReadsBack ↔ ∀ item ∈ items, item.ReadsBack := by
  simp only [ReadsBack, numbers, mem_numbersOfItems]
  exact ⟨fun h item hitem n hn => h n ⟨item, hitem, hn⟩,
    fun h n ⟨item, hitem, hn⟩ => h item hitem n hn⟩

theorem readsBack_object_iff {fields : List (String × Json)} :
    (Json.object fields).ReadsBack ↔ ∀ field ∈ fields, field.2.ReadsBack := by
  simp only [ReadsBack, numbers, mem_numbersOfFields]
  exact ⟨fun h field hfield n hn => h n ⟨field, hfield, hn⟩,
    fun h n ⟨field, hfield, hn⟩ => h field hfield n hn⟩

theorem readsBack_ofMap_iff {m : Values} :
    (Json.ofMap m).ReadsBack ↔ ∀ value ∈ m.values, value.json.ReadsBack := by
  rw [Json.ofMap, readsBack_object_iff, KeyMap.map, List.forall_mem_map, KeyMap.values,
    List.forall_mem_map]

@[simp] theorem readsBack_null : Json.null.ReadsBack :=
  nofun

@[simp] theorem readsBack_string (text : String) : (Json.string text).ReadsBack :=
  nofun

@[simp] theorem readsBack_ofUInt64 (n : UInt64) : (Json.ofUInt64 n).ReadsBack :=
  fun _ hn => List.mem_singleton.mp hn ▸ Number.readsBack_of_toInt? nofun

/-- Arrays inside one another. -/
def nested : Nat → Json
  | 0 => .array []
  | n + 1 => .array [nested n]

theorem depth_nested (n : Nat) : (nested n).depth = n + 1 := by
  induction n with
  | zero => rfl
  | succ n ih => simp [nested, depth, depthOfItems, ih]

theorem ordered_nested (n : Nat) : (nested n).Ordered := by
  induction n with
  | zero => rfl
  | succ n ih => exact .array (by simpa using ih)

theorem floatFree_nested (n : Nat) : (nested n).FloatFree := by
  induction n with
  | zero => exact nofun
  | succ n ih => simpa [nested, FloatFree, numbers, numbersOfItems] using ih

/-! ### Texts of scalars -/

/-- A control character is spelled by its number. -/
theorem hexUnit?_hexDigit {n : Nat} (hn : n < 0x20) :
    hexUnit? '0' '0' (hexDigit (n / 16)) (hexDigit n) = some n := by
  have hall : ∀ n < 0x20, hexUnit? '0' '0' (hexDigit (n / 16)) (hexDigit n) = some n := by decide
  exact hall n hn

/-- A character is escaped as itself. -/
theorem charText_escaped (c : Char) : CharText c (escaped c) := by
  unfold escaped
  split
  case h_8 hquote hbackslash _ _ _ _ _ =>
    split
    next hcontrol =>
      have hn : c.toNat < 0xD800 := by omega
      have hunit := CharText.unit (.digits (hexUnit?_hexDigit hcontrol))
        (by simp only [isLeadingSurrogate, Bool.and_eq_false_iff, decide_eq_false_iff_not]; omega)
        (by simp only [isTrailingSurrogate, Bool.and_eq_false_iff, decide_eq_false_iff_not]; omega)
      rwa [Char.ofNat_toNat] at hunit
    next hcontrol => exact .char (.plain ⟨hquote, hbackslash, Nat.not_lt.mp hcontrol⟩)
  all_goals exact .char (.letter rfl)

theorem stringText_escaped (cs : List Char) : StringText cs (cs.flatMap escaped) := by
  induction cs with
  | nil => exact .nil
  | cons c cs ih => exact .cons (charText_escaped c) ih

theorem wordText_quoted (text : String) :
    WordText (.scalar (.string (.ok text))) (quoted text).toList := by
  have hword := WordText.string (stringText_escaped text.toList)
  simpa [quoted] using hword

/-! ### The words of a value -/

mutual

/-- The words of a value. -/
def words : Json → List Token
  | .null => [.scalar .null]
  | .bool value => [.scalar (.bool value)]
  | .number n => [.scalar (.number (.ok n))]
  | .string text => [.scalar (.string (.ok text))]
  | .array [] => [.openArray, .closeArray]
  | .array (item :: items) => .openArray :: item.words ++ wordsOfItems items ++ [.closeArray]
  | .object [] => [.openObject, .closeObject]
  | .object ((key, value) :: fields) =>
    .openObject :: .scalar (.string (.ok key)) :: .colon :: value.words ++
      wordsOfFields fields ++ [.closeObject]

/-- The words of the items after the first one. -/
def wordsOfItems : List Json → List Token
  | [] => []
  | item :: items => .comma :: item.words ++ wordsOfItems items

/-- The words of the fields after the first one. -/
def wordsOfFields : List (String × Json) → List Token
  | [] => []
  | (key, value) :: fields =>
    .comma :: .scalar (.string (.ok key)) :: .colon :: value.words ++ wordsOfFields fields

end

/-- A text is JSON for a value: the words of the value are written in it. Numbers that do not fit
and strings with half a surrogate pair are JSON for no value. -/
def IsJson (text : String) (value : Json) : Prop :=
  Written value.words text.toList

/-! ### What is written of a value -/

theorem written_break (layout : Layout) (depth : Nat) :
    Written [] (layout.break depth).toList := by
  cases layout with
  | compact => exact .nil (by simp [Blank, Layout.break])
  | indented => exact .nil (by simp [Blank, Layout.break])

theorem written_colon (layout : Layout) : Written [.colon] layout.colon.toList := by
  cases layout with
  | compact => exact WordText.colon.written
  | indented =>
      have hblank : Written [] [' '] := .nil (by simp [Blank])
      exact WordText.colon.written.append hblank

section

variable {layout : Layout}

/-- A value that holds its words in a layout, at any depth. -/
def Rendered (layout : Layout) (value : Json) : Prop :=
  ∀ depth, Written value.words (render layout depth value).toList

theorem written_renderItems {items : List Json} (h : ∀ item ∈ items, Rendered layout item)
    (depth : Nat) : Written (wordsOfItems items) (renderItems layout depth items).toList := by
  induction items with
  | nil => exact written_break .compact depth
  | cons item items ih =>
      obtain ⟨hitem, hitems⟩ := List.forall_mem_cons.mp h
      have hmore := (hitem depth).append (ih hitems)
      have hcomma := WordText.comma.written.append (written_break layout depth)
      simpa [renderItems, wordsOfItems] using hcomma.append hmore

theorem written_renderFields {fields : List (String × Json)}
    (h : ∀ field ∈ fields, Rendered layout field.2) (depth : Nat) :
    Written (wordsOfFields fields) (renderFields layout depth fields).toList := by
  induction fields with
  | nil => exact written_break .compact depth
  | cons field fields ih =>
      obtain ⟨key, value⟩ := field
      obtain ⟨hvalue, hfields⟩ := List.forall_mem_cons.mp h
      have hmore := (hvalue depth).append (ih hfields)
      have hkey := (wordText_quoted key).written.append (written_colon layout)
      have hcomma := WordText.comma.written.append (written_break layout depth)
      simpa [renderFields, wordsOfFields] using (hcomma.append hkey).append hmore

theorem rendered (layout : Layout) {value : Json} (h : value.ReadsBack) :
    Rendered layout value := by
  intro depth
  induction value using Json.induct generalizing depth with
  | null => simpa [render, words] using WordText.null.written
  | bool b =>
      cases b with
      | false => simpa [render, words] using WordText.isFalse.written
      | true => simpa [render, words] using WordText.isTrue.written
  | number n => exact (h n (List.mem_singleton.mpr rfl)).wordText.written
  | string text => exact (wordText_quoted text).written
  | array items ih =>
      have hrendered : ∀ item ∈ items, Rendered layout item := fun item hitem =>
        ih item hitem (readsBack_array_iff.mp h item hitem)
      have hopen := WordText.openArray.written.append (written_break layout (depth + 1))
      have hclose := (written_break layout depth).append WordText.closeArray.written
      cases items with
      | nil =>
          simpa [render, words] using WordText.openArray.written.append WordText.closeArray.written
      | cons item items =>
          obtain ⟨hitem, hitems⟩ := List.forall_mem_cons.mp hrendered
          have hparts := (hitem (depth + 1)).append (written_renderItems hitems (depth + 1))
          simpa [render, words] using (hopen.append hparts).append hclose
  | object fields ih =>
      have hrendered : ∀ field ∈ fields, Rendered layout field.2 := fun field hfield =>
        ih field hfield (readsBack_object_iff.mp h field hfield)
      have hopen := WordText.openObject.written.append (written_break layout (depth + 1))
      have hclose := (written_break layout depth).append WordText.closeObject.written
      cases fields with
      | nil =>
          simpa [render, words] using
            WordText.openObject.written.append WordText.closeObject.written
      | cons field fields =>
          obtain ⟨key, value⟩ := field
          obtain ⟨hvalue, hfields⟩ := List.forall_mem_cons.mp hrendered
          have hkey := (wordText_quoted key).written.append (written_colon layout)
          have hparts := (hvalue (depth + 1)).append (written_renderFields hfields (depth + 1))
          simpa [render, words] using ((hopen.append hkey).append hparts).append hclose

/-- What is written of a value is JSON for it. -/
theorem isJson_render (layout : Layout) {value : Json} (h : value.ReadsBack) :
    IsJson (render layout 0 value) value :=
  rendered layout h 0

end

/-! ### Words are told apart -/

/-- Words that have values, of which scalars stand apart. -/
structure Phrase (ts : List Token) : Prop where
  whole : ∀ t ∈ ts, t.Whole
  apart : ts.IsChain Apart

theorem phrase_singleton {t : Token} (ht : t.Whole) : Phrase [t] :=
  ⟨List.forall_mem_singleton.mpr ht, .singleton t⟩

/-- Two phrases make one where a mark stands between them. -/
theorem Phrase.append {ts ts' : List Token} (h : Phrase ts) (h' : Phrase ts')
    (hmark : ∀ t ∈ ts'.head?, t.isScalar = false) : Phrase (ts ++ ts') where
  whole := List.forall_mem_append.mpr ⟨h.whole, h'.whole⟩
  apart := List.isChain_append.mpr ⟨h.apart, h'.apart, fun _ _ t ht _ => hmark t ht⟩

theorem Phrase.mark_cons {t : Token} {ts : List Token} (ht : t.Whole) (hmark : t.isScalar = false)
    (h : Phrase ts) : Phrase (t :: ts) where
  whole := List.forall_mem_cons.mpr ⟨ht, h.whole⟩
  apart := List.isChain_cons.mpr
    ⟨fun _ _ hscalar => absurd hscalar (ne_true_of_eq_false hmark), h.apart⟩

/-- The words of the fields of an object. -/
theorem Phrase.field {key : String} {ts : List Token} (h : Phrase ts) :
    Phrase (.scalar (.string (.ok key)) :: .colon :: ts) :=
  (phrase_singleton (t := .scalar (.string (.ok key))) ⟨key, rfl⟩).append
    (h.mark_cons (t := .colon) trivial rfl) (by simp [Token.isScalar])

theorem head_wordsOfItems (items : List Json) :
    ∀ t ∈ (wordsOfItems items ++ [Token.closeArray]).head?, t.isScalar = false := by
  cases items <;> simp [wordsOfItems, Token.isScalar]

theorem head_wordsOfFields (fields : List (String × Json)) :
    ∀ t ∈ (wordsOfFields fields ++ [Token.closeObject]).head?, t.isScalar = false := by
  cases fields <;> simp [wordsOfFields, Token.isScalar]

theorem phrase_wordsOfItems {items : List Json} (h : ∀ item ∈ items, Phrase item.words) :
    Phrase (wordsOfItems items ++ [.closeArray]) := by
  induction items with
  | nil => exact phrase_singleton trivial
  | cons item items ih =>
      obtain ⟨hitem, hitems⟩ := List.forall_mem_cons.mp h
      rw [wordsOfItems, List.append_assoc, List.cons_append]
      exact (hitem.append (ih hitems) (head_wordsOfItems items)).mark_cons trivial rfl

theorem phrase_wordsOfFields {fields : List (String × Json)}
    (h : ∀ field ∈ fields, Phrase field.2.words) :
    Phrase (wordsOfFields fields ++ [.closeObject]) := by
  induction fields with
  | nil => exact phrase_singleton trivial
  | cons field fields ih =>
      obtain ⟨key, value⟩ := field
      obtain ⟨hvalue, hfields⟩ := List.forall_mem_cons.mp h
      rw [wordsOfFields, List.append_assoc]
      exact (hvalue.append (ih hfields) (head_wordsOfFields fields)).field.mark_cons trivial rfl

theorem phrase_words (value : Json) : Phrase value.words := by
  induction value using Json.induct with
  | null => exact phrase_singleton trivial
  | bool b => exact phrase_singleton trivial
  | number n => exact phrase_singleton ⟨n, rfl⟩
  | string text => exact phrase_singleton ⟨text, rfl⟩
  | array items ih =>
      cases items with
      | nil => exact (phrase_wordsOfItems (List.forall_mem_nil _)).mark_cons trivial rfl
      | cons item items =>
          obtain ⟨hitem, hitems⟩ := List.forall_mem_cons.mp ih
          have hmore := phrase_wordsOfItems hitems
          rw [words, List.append_assoc, List.cons_append]
          exact (hitem.append hmore (head_wordsOfItems items)).mark_cons trivial rfl
  | object fields ih =>
      cases fields with
      | nil => exact (phrase_wordsOfFields (List.forall_mem_nil _)).mark_cons trivial rfl
      | cons field fields =>
          obtain ⟨key, value⟩ := field
          obtain ⟨hvalue, hfields⟩ := List.forall_mem_cons.mp ih
          have hmore := phrase_wordsOfFields hfields
          rw [words, List.append_assoc]
          exact (hvalue.append hmore (head_wordsOfFields fields)).field.mark_cons trivial rfl

/-- The texts that are JSON for a value are those that are cut into its words. -/
theorem isJson_iff {text : String} {value : Json} :
    IsJson text value ↔ tokens text.toList = value.words := by
  constructor
  · exact fun h => tokens_of_written h (phrase_words value).apart
  · intro h
    rw [IsJson, ← h]
    exact written_of_tokens (h ▸ (phrase_words value).whole)

/-! ### Scanning words -/

/-- A state in which a value may begin, around which the containers of a stack are open. -/
def ScanState.Awaits (s : ScanState) (stack : List Frame) : Prop :=
  ∀ t, t ≠ Token.closeArray → s.step t = beginValue stack t

theorem ScanState.awaits_value (stack : List Frame) : (ScanState.value stack).Awaits stack :=
  fun _ _ => rfl

theorem ScanState.awaits_arrayStart (stack : List Frame) :
    (ScanState.arrayStart stack).Awaits (.items [] :: stack) := by
  intro t ht
  cases t <;> first | rfl | exact absurd rfl ht

theorem ScanState.awaits_nextItem (before : List Scan) (stack : List Frame) :
    (ScanState.nextItem before stack).Awaits (.items before :: stack) := by
  intro t ht
  cases t <;> first | rfl | exact absurd rfl ht

/-- A value whose words are scanned as the value, wherever it may begin. -/
def Scanned (value : Json) : Prop :=
  ∀ s stack, ScanState.Awaits s stack →
    value.words.foldl ScanState.step s = .done (.ofJson value) stack

theorem foldl_step_wordsOfItems {items : List Json} (h : ∀ item ∈ items, Scanned item)
    (before : List Scan) (first : Scan) (stack : List Frame) :
    (wordsOfItems items ++ [Token.closeArray]).foldl ScanState.step
        (.done first (.items before :: stack)) =
      .done (.array (before.reverse ++ first :: scanItems items) .closed) stack := by
  induction items generalizing before first with
  | nil =>
      change ScanState.done (.array (first :: before).reverse .closed) stack = _
      rw [List.reverse_cons, scanItems]
  | cons item items ih =>
      obtain ⟨hitem, hitems⟩ := List.forall_mem_cons.mp h
      have hnext := hitem _ _ (ScanState.awaits_nextItem (first :: before) stack)
      rw [wordsOfItems, List.append_assoc, List.cons_append, List.foldl_cons, List.foldl_append]
      refine (congrArg (List.foldl _ · _) hnext).trans ?_
      rw [ih hitems, List.reverse_cons, List.append_assoc, scanItems]
      rfl

theorem foldl_step_wordsOfFields {fields : List (String × Json)}
    (h : ∀ field ∈ fields, Scanned field.2) (before : List (ScannedKey × Scan)) (key : ScannedKey)
    (first : Scan) (stack : List Frame) :
    (wordsOfFields fields ++ [Token.closeObject]).foldl ScanState.step
        (.done first (.fields before key :: stack)) =
      .done (.object (before.reverse ++ (key, first) :: scanFields fields) .closed) stack := by
  induction fields generalizing before key first with
  | nil =>
      change ScanState.done (.object ((key, first) :: before).reverse .closed) stack = _
      rw [List.reverse_cons, scanFields]
  | cons field fields ih =>
      obtain ⟨key', value⟩ := field
      obtain ⟨hvalue, hfields⟩ := List.forall_mem_cons.mp h
      have hnext := hvalue _ _
        (ScanState.awaits_value (.fields ((key, first) :: before) (.ok key') :: stack))
      rw [wordsOfFields, List.append_assoc, List.cons_append, List.foldl_cons, List.cons_append,
        List.foldl_cons, List.cons_append, List.foldl_cons, List.foldl_append]
      refine (congrArg (List.foldl _ · _) hnext).trans ?_
      rw [ih hfields, List.reverse_cons, List.append_assoc, scanFields]
      rfl

/-- The words of a value are scanned as the value. -/
theorem scanned (value : Json) : Scanned value := by
  induction value using Json.induct with
  | null => exact fun s stack h => h _ nofun
  | bool b => exact fun s stack h => h _ nofun
  | number n => exact fun s stack h => h _ nofun
  | string text => exact fun s stack h => h _ nofun
  | array items ih =>
      intro s stack h
      have hopen : s.step .openArray = .arrayStart stack := h _ nofun
      cases items with
      | nil =>
          rw [words, List.foldl_cons, hopen]
          rfl
      | cons item items =>
          obtain ⟨hitem, hitems⟩ := List.forall_mem_cons.mp ih
          have hfirst := hitem _ _ (ScanState.awaits_arrayStart stack)
          rw [words, List.append_assoc, List.cons_append, List.foldl_cons, hopen,
            List.foldl_append, hfirst, foldl_step_wordsOfItems hitems]
          rfl
  | object fields ih =>
      intro s stack h
      have hopen : s.step .openObject = .objectStart stack := h _ nofun
      cases fields with
      | nil =>
          rw [words, List.foldl_cons, hopen]
          rfl
      | cons field fields =>
          obtain ⟨key, value⟩ := field
          obtain ⟨hvalue, hfields⟩ := List.forall_mem_cons.mp ih
          have hfirst := hvalue _ _ (ScanState.awaits_value (.fields [] (.ok key) :: stack))
          rw [words, List.append_assoc, List.cons_append, List.foldl_cons, hopen, List.cons_append,
            List.foldl_cons, List.cons_append, List.foldl_cons, List.foldl_append]
          refine (congrArg (List.foldl _ · _) hfirst).trans ?_
          rw [foldl_step_wordsOfFields hfields]
          rfl

/-- A text that is JSON for a value is scanned as the value, and nothing stands behind it. -/
theorem IsJson.scanText_eq {text : String} {value : Json} (h : IsJson text value) :
    scanText text = (.ofJson value, false) := by
  rw [scanText, isJson_iff.mp h, scanned value _ _ (ScanState.awaits_value [])]
  rfl

/-- Reading the text of a value is reading the value, as deep as a text may nest. -/
theorem readText_render {α : Type} (r : Reader α) (layout : Layout) {value : Json}
    (h : value.ReadsBack) :
    r.readText (render layout 0 value) = r .document (.ofJson value) := by
  rw [Reader.readText, (isJson_render layout h).scanText_eq]
  exact bind_pure (r .document (.ofJson value))

end Dataflow.Json

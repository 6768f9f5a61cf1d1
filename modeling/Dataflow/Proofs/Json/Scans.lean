import Dataflow.Proofs.Json.Words

/-! # Which texts are read

A text is scanned as a value just when it is JSON for it. The words of a scan are what it was
scanned from: every token that is taken in goes behind the words of the state, until one fits
nowhere, and then the scan is not that of a value. So a reader that needs the whole value reads the
texts that are JSON, as deep as it may go, and no others.
-/

namespace Dataflow.Json

/-! ### The words of a scan -/

mutual

/-- The words that a scan was made from. -/
def Scan.words : Scan → List Token
  | .scalar value => [.scalar value]
  | .array [] _ => [.openArray, .closeArray]
  | .array (item :: items) _ =>
    .openArray :: item.words ++ wordsOfScans items ++ [.closeArray]
  | .object [] _ => [.openObject, .closeObject]
  | .object ((key, value) :: fields) _ =>
    .openObject :: .scalar (.string key) :: .colon :: value.words ++
      wordsOfScannedFields fields ++ [.closeObject]
  | .broken _ => []

/-- The words of the items after the first one. -/
def wordsOfScans : List Scan → List Token
  | [] => []
  | item :: items => .comma :: item.words ++ wordsOfScans items

/-- The words of the fields after the first one. -/
def wordsOfScannedFields : List (ScannedKey × Scan) → List Token
  | [] => []
  | (key, value) :: fields =>
    .comma :: .scalar (.string key) :: .colon :: value.words ++ wordsOfScannedFields fields

end

/-- The words of a field. -/
def wordsOfField (field : ScannedKey × Scan) : List Token :=
  .scalar (.string field.1) :: .colon :: field.2.words

/-- The words of an array that is open, each of its items with a comma behind it. -/
def wordsOfOpenArray (items : List Scan) : List Token :=
  .openArray :: items.flatMap fun item => item.words ++ [.comma]

/-- The words of an object that is open, each of its fields with a comma behind it. -/
def wordsOfOpenObject (fields : List (ScannedKey × Scan)) : List Token :=
  .openObject :: fields.flatMap fun field => wordsOfField field ++ [.comma]

theorem words_array_concat (items : List Scan) (last : Scan) (tail : Tail) :
    (Scan.array (items ++ [last]) tail).words =
      wordsOfOpenArray items ++ last.words ++ [.closeArray] := by
  have hrest (items : List Scan) : wordsOfScans (items ++ [last]) =
      .comma :: (items.flatMap (fun item => item.words ++ [.comma]) ++ last.words) := by
    induction items with
    | nil => simp [wordsOfScans]
    | cons item items ih => simp [wordsOfScans, ih]
  cases items with
  | nil => simp [Scan.words, wordsOfScans, wordsOfOpenArray]
  | cons first items => simp [Scan.words, wordsOfOpenArray, hrest]

theorem words_object_concat (fields : List (ScannedKey × Scan)) (last : ScannedKey × Scan)
    (tail : Tail) : (Scan.object (fields ++ [last]) tail).words =
      wordsOfOpenObject fields ++ wordsOfField last ++ [.closeObject] := by
  have hrest (fields : List (ScannedKey × Scan)) : wordsOfScannedFields (fields ++ [last]) =
      .comma :: (fields.flatMap (fun field => wordsOfField field ++ [.comma]) ++
        wordsOfField last) := by
    induction fields with
    | nil => simp [wordsOfScannedFields, wordsOfField]
    | cons field fields ih => simp [wordsOfScannedFields, wordsOfField, ih]
  cases fields with
  | nil => simp [Scan.words, wordsOfScannedFields, wordsOfField, wordsOfOpenObject]
  | cons first fields => simp [Scan.words, wordsOfField, wordsOfOpenObject, hrest]

/-- The words of the scan of a value are its own. -/
theorem words_ofJson (value : Json) : (Scan.ofJson value).words = value.words := by
  induction value using Json.induct with
  | null => rfl
  | bool b => rfl
  | number n => rfl
  | string text => rfl
  | array items ih =>
      have hrest (items : List Json) (h : ∀ item ∈ items, (Scan.ofJson item).words = item.words) :
          wordsOfScans (scanItems items) = wordsOfItems items := by
        induction items with
        | nil => rfl
        | cons item items ih =>
            obtain ⟨hitem, hitems⟩ := List.forall_mem_cons.mp h
            rw [scanItems, wordsOfScans, wordsOfItems, hitem, ih hitems]
      cases items with
      | nil => rfl
      | cons item items =>
          obtain ⟨hitem, hitems⟩ := List.forall_mem_cons.mp ih
          rw [Scan.ofJson, scanItems, Scan.words, words, hitem, hrest items hitems]
  | object fields ih =>
      have hrest (fields : List (String × Json))
          (h : ∀ field ∈ fields, (Scan.ofJson field.2).words = field.2.words) :
          wordsOfScannedFields (scanFields fields) = wordsOfFields fields := by
        induction fields with
        | nil => rfl
        | cons field fields ih =>
            obtain ⟨hfield, hfields⟩ := List.forall_mem_cons.mp h
            rw [scanFields, wordsOfScannedFields, wordsOfFields, hfield, ih hfields]
      cases fields with
      | nil => rfl
      | cons field fields =>
          obtain ⟨hfield, hfields⟩ := List.forall_mem_cons.mp ih
          rw [Scan.ofJson, scanFields, Scan.words, words, hfield, hrest fields hfields]

/-! ### Scans of no value -/

/-- A scan that is not that of a value. -/
def Scan.Broken (s : Scan) : Prop :=
  ∀ value, s ≠ .ofJson value

theorem broken_broken (cause : Malformed) : (Scan.broken cause).Broken := by
  intro value
  cases value <;> nofun

theorem broken_array (items : List Scan) (cause : Malformed) :
    (Scan.array items (.broken cause)).Broken := by
  intro value
  cases value <;> nofun

theorem broken_object (fields : List (ScannedKey × Scan)) (cause : Malformed) :
    (Scan.object fields (.broken cause)).Broken := by
  intro value
  cases value <;> nofun

theorem broken_string (cause : Malformed) : (Scan.scalar (.string (.error cause))).Broken := by
  intro value
  cases value <;> nofun

/-- Whatever is open around a malformed place is malformed, too. -/
theorem Scan.Broken.abandon {s : Scan} (h : s.Broken) (cause : Malformed) (stack : List Frame) :
    (Json.abandon cause s stack).Broken := by
  induction stack generalizing s with
  | nil => exact h
  | cons frame stack ih =>
      cases frame with
      | items before => exact ih (broken_array _ cause)
      | fields before key => exact ih (broken_object _ cause)

/-! ### Tokens of a text -/

/-- A string that breaks off has no value. -/
def Token.Sound : Token → Prop
  | .brokenString value _ => ∃ cause, value = .error cause
  | _ => True

theorem joinParts_eq_error {ending : StringEnd} {cause : Malformed}
    (h : ending.rest = .error cause) (parts : List StringPart) :
    ∃ cause', joinParts ending parts = .error cause' := by
  fun_induction joinParts ending parts with
  | case1 => simp [h, Except.map]
  | case2 c parts ih =>
      obtain ⟨cause', hparts⟩ := ih
      exact ⟨cause', by rw [hparts]; rfl⟩
  | case3 n parts htrailing => exact ⟨_, rfl⟩
  | case4 n htrailing hleading m parts hpair ih =>
      obtain ⟨cause', hparts⟩ := ih
      exact ⟨cause', by rw [hparts]; rfl⟩
  | case5 => exact ⟨_, rfl⟩
  | case6 => exact ⟨_, rfl⟩
  | case7 => exact ⟨_, rfl⟩
  | case8 n parts htrailing hleading ih =>
      obtain ⟨cause', hparts⟩ := ih
      exact ⟨cause', by rw [hparts]; rfl⟩

theorem sound_stringToken (cs : List Char) : (stringToken cs).1.Sound := by
  unfold stringToken
  generalize stringParts cs = scanned
  obtain ⟨parts, ending⟩ := scanned
  cases hrest : ending.rest with
  | error cause =>
      obtain ⟨cause', hjoin⟩ := joinParts_eq_error hrest parts
      simp only [hrest]
      exact ⟨cause', by rw [hjoin]; rfl⟩
  | ok rest =>
      simp only [hrest]
      trivial

theorem sound_numberToken (negative : Bool) (cs : List Char) :
    (numberToken negative cs).1.Sound := by
  unfold numberToken
  split
  · trivial
  · split <;> trivial

theorem sound_word (letters : List Char) (value : Scalar) (cs : List Char) :
    (word letters value cs).1.Sound := by
  unfold word
  split
  · trivial
  · split <;> trivial

theorem sound_token (c : Char) (cs : List Char) : (token c cs).1.Sound := by
  unfold token
  split
  case h_7 => exact sound_stringToken cs
  case h_8 => exact sound_numberToken true cs
  case h_9 => exact sound_word _ _ cs
  case h_10 => exact sound_word _ _ cs
  case h_11 => exact sound_word _ _ cs
  case h_12 =>
    split
    · exact sound_numberToken false _
    · trivial
  all_goals trivial

theorem sound_of_mem_tokens {cs : List Char} {t : Token} (h : t ∈ tokens cs) : t.Sound := by
  fun_induction tokens cs with
  | case1 => cases h
  | case2 cs c rest hcs ih =>
      rcases List.mem_cons.mp h with rfl | h
      · exact sound_token c rest
      · exact ih h

/-! ### Taking in tokens -/

/-- The words of an open container. -/
def Frame.words : Frame → List Token
  | .items before => wordsOfOpenArray before.reverse
  | .fields before key =>
    wordsOfOpenObject before.reverse ++ [.scalar (.string key), .colon]

/-- The words of the open containers, the outermost first. -/
def wordsOfStack (stack : List Frame) : List Token :=
  stack.reverse.flatMap Frame.words

@[simp] theorem wordsOfStack_nil : wordsOfStack [] = [] :=
  rfl

@[simp] theorem wordsOfStack_cons (frame : Frame) (stack : List Frame) :
    wordsOfStack (frame :: stack) = wordsOfStack stack ++ frame.words := by
  simp [wordsOfStack]

namespace ScanState

/-- A state comes from some tokens: they are its words, or they fit nowhere. -/
def ComesFrom : ScanState → List Token → Prop
  | .value stack, ts => ts = wordsOfStack stack
  | .arrayStart stack, ts => ts = wordsOfStack stack ++ [.openArray]
  | .nextItem before stack, ts => ts = wordsOfStack stack ++ wordsOfOpenArray before.reverse
  | .objectStart stack, ts => ts = wordsOfStack stack ++ [.openObject]
  | .nextKey before stack, ts => ts = wordsOfStack stack ++ wordsOfOpenObject before.reverse
  | .colon before key stack, ts =>
    ts = wordsOfStack stack ++ wordsOfOpenObject before.reverse ++ [.scalar (.string key)]
  | .done scan stack, ts => ts = wordsOfStack stack ++ scan.words
  | .stopped scan trailing, _ => trailing = true ∨ scan.Broken

variable {ts : List Token} {stack : List Frame} {t : Token}

theorem comesFrom_noValue (cause : Malformed) (stack : List Frame) (ts : List Token) :
    (noValue cause stack).ComesFrom ts :=
  .inr ((broken_broken cause).abandon cause stack)

theorem comesFrom_noItem (cause : Malformed) (before : List Scan) (stack : List Frame)
    (ts : List Token) : (noItem cause before stack).ComesFrom ts :=
  .inr ((broken_array _ cause).abandon cause stack)

theorem comesFrom_noField (cause : Malformed) (before : List (ScannedKey × Scan))
    (stack : List Frame) (ts : List Token) : (noField cause before stack).ComesFrom ts :=
  .inr ((broken_object _ cause).abandon cause stack)

theorem comesFrom_beginValue (stack : List Frame) (ht : t.Sound) :
    (beginValue stack t).ComesFrom (wordsOfStack stack ++ [t]) := by
  cases t with
  | openArray => rfl
  | openObject => rfl
  | scalar value => rfl
  | brokenString value cause =>
      obtain ⟨cause', rfl⟩ := ht
      exact .inr ((broken_string cause').abandon cause stack)
  | bad cause => exact comesFrom_noValue cause stack _
  | closeArray => exact comesFrom_noValue .expectedValue stack _
  | closeObject => exact comesFrom_noValue .expectedValue stack _
  | colon => exact comesFrom_noValue .expectedValue stack _
  | comma => exact comesFrom_noValue .expectedValue stack _

theorem comesFrom_beginKey (before : List (ScannedKey × Scan)) (stack : List Frame) (t : Token) :
    (beginKey before stack t).ComesFrom
      (wordsOfStack stack ++ wordsOfOpenObject before.reverse ++ [t]) := by
  unfold beginKey
  split
  · rfl
  · exact comesFrom_noValue _ _ _
  · exact comesFrom_noField _ before stack _

theorem comesFrom_step_done {scan : Scan} {stack : List Frame}
    (h : (done scan stack).ComesFrom ts) (t : Token) :
    ((done scan stack).step t).ComesFrom (ts ++ [t]) := by
  obtain rfl : ts = wordsOfStack stack ++ scan.words := h
  match stack with
  | [] => exact .inl rfl
  | .items before :: stack =>
      cases t with
      | comma => simp [step, ComesFrom, Frame.words, wordsOfOpenArray]
      | closeArray =>
          have hwords := words_array_concat before.reverse scan .closed
          simp [step, ComesFrom, Frame.words, hwords]
      | _ => exact comesFrom_noItem _ _ _ _
  | .fields before key :: stack =>
      cases t with
      | comma => simp [step, ComesFrom, Frame.words, wordsOfOpenObject, wordsOfField]
      | closeObject =>
          have hwords := words_object_concat before.reverse (key, scan) .closed
          simp [step, ComesFrom, Frame.words, hwords, wordsOfField]
      | _ => exact comesFrom_noField _ _ _ _

/-- A token that is taken in goes behind the words of the state. -/
theorem ComesFrom.step {s : ScanState} (h : s.ComesFrom ts) (ht : t.Sound) :
    (s.step t).ComesFrom (ts ++ [t]) := by
  cases s with
  | value stack =>
      obtain rfl := h
      exact comesFrom_beginValue stack ht
  | arrayStart stack =>
      obtain rfl := h
      by_cases hclose : t = .closeArray
      · subst hclose
        simp [ScanState.step, ComesFrom, Scan.words]
      · rw [awaits_arrayStart stack t hclose]
        have hitem := comesFrom_beginValue (.items [] :: stack) ht
        simpa [Frame.words, wordsOfOpenArray] using hitem
  | nextItem before stack =>
      obtain rfl := h
      by_cases hclose : t = .closeArray
      · subst hclose
        exact comesFrom_noItem _ _ _ _
      · rw [awaits_nextItem before stack t hclose]
        have hitem := comesFrom_beginValue (.items before :: stack) ht
        simpa [Frame.words] using hitem
  | objectStart stack =>
      obtain rfl := h
      have hkey : (beginKey [] stack t).ComesFrom (wordsOfStack stack ++ [.openObject] ++ [t]) :=
        comesFrom_beginKey [] stack t
      cases t with
      | closeObject => simp [ScanState.step, ComesFrom, Scan.words]
      | _ => exact hkey
  | nextKey before stack =>
      obtain rfl := h
      have hkey := comesFrom_beginKey before stack t
      cases t with
      | closeObject => exact comesFrom_noField _ _ _ _
      | _ => exact hkey
  | colon before key stack =>
      obtain rfl := h
      cases t with
      | colon => simp [ScanState.step, ComesFrom, Frame.words]
      | _ => exact comesFrom_noValue _ _ _
  | done scan stack => exact comesFrom_step_done h t
  | stopped scan trailing => exact h

theorem comesFrom_foldl {s : ScanState} (h : s.ComesFrom ts) {more : List Token}
    (hmore : ∀ t ∈ more, t.Sound) : (more.foldl ScanState.step s).ComesFrom (ts ++ more) := by
  induction more generalizing s ts with
  | nil => simpa using h
  | cons t more ih =>
      obtain ⟨ht, hmore⟩ := List.forall_mem_cons.mp hmore
      rw [List.foldl_cons, List.append_cons]
      exact ih (h.step ht) hmore

/-- Where the end leaves the scan of a value, its words are what was taken in. -/
theorem ComesFrom.eq_words {s : ScanState} (h : s.ComesFrom ts) {value : Json}
    (hfinish : s.finish = (.ofJson value, false)) : ts = value.words := by
  have hbroken {scan : Scan} (hscan : scan.Broken) (cause : Malformed) (stack : List Frame) :
      (abandon cause scan stack, false) ≠ (Scan.ofJson value, false) := fun heq =>
    hscan.abandon cause stack value (congrArg Prod.fst heq)
  cases s with
  | value stack => exact absurd hfinish (hbroken (broken_broken _) _ _)
  | arrayStart stack => exact absurd hfinish (hbroken (broken_array _ _) _ _)
  | nextItem before stack => exact absurd hfinish (hbroken (broken_array _ _) _ _)
  | objectStart stack => exact absurd hfinish (hbroken (broken_object _ _) _ _)
  | nextKey before stack => exact absurd hfinish (hbroken (broken_object _ _) _ _)
  | colon before key stack => exact absurd hfinish (hbroken (broken_broken _) _ _)
  | done scan stack =>
      match stack with
      | [] =>
          obtain rfl : scan = .ofJson value := congrArg Prod.fst hfinish
          exact h.trans (words_ofJson value)
      | .items before :: stack => exact absurd hfinish (hbroken (broken_array _ _) _ _)
      | .fields before key :: stack => exact absurd hfinish (hbroken (broken_object _ _) _ _)
  | stopped scan trailing =>
      obtain ⟨rfl, rfl⟩ := Prod.mk.inj hfinish
      rcases h with htrailing | hscan
      · cases htrailing
      · exact absurd rfl (hscan value)

end ScanState

/-- A text is scanned as a value just when it is JSON for it. -/
theorem scanText_eq_iff {text : String} {value : Json} :
    scanText text = (.ofJson value, false) ↔ IsJson text value := by
  refine ⟨fun hscan => isJson_iff.mpr ?_, IsJson.scanText_eq⟩
  have hstart : (ScanState.value []).ComesFrom [] := rfl
  exact (ScanState.comesFrom_foldl hstart fun t ht => sound_of_mem_tokens ht).eq_words hscan

theorem eq_of_map_eq_map {α β : Type} {f : α → β} {as as' : List α}
    (h : ∀ a ∈ as, ∀ a', f a = f a' → a = a') (heq : as.map f = as'.map f) : as = as' := by
  induction as generalizing as' with
  | nil => exact (List.map_eq_nil_iff.mp heq.symm).symm
  | cons a as ih =>
      obtain ⟨ha, has⟩ := List.forall_mem_cons.mp h
      obtain ⟨a', rest, rfl, hfirst, hrest⟩ := List.map_eq_cons_iff.mp heq.symm
      rw [ha a' hfirst.symm, ih has hrest.symm]

theorem ofJson_injective : Function.Injective Scan.ofJson := by
  intro value
  induction value using Json.induct with
  | array items ih =>
      intro other h
      cases other with
      | array items' =>
          simp only [Scan.ofJson, scanItems_eq_map] at h
          refine congrArg Json.array (eq_of_map_eq_map (fun item hitem item' hsame => ?_)
            (Scan.array.inj h).1)
          exact ih item hitem hsame
      | _ => cases h
  | object fields ih =>
      intro other h
      cases other with
      | object fields' =>
          simp only [Scan.ofJson, scanFields_eq_map] at h
          refine congrArg Json.object (eq_of_map_eq_map (fun field hfield field' hsame => ?_)
            (Scan.object.inj h).1)
          obtain ⟨hkey, hvalue⟩ := Prod.mk.inj hsame
          exact Prod.ext (Except.ok.inj hkey) (ih field hfield hvalue)
      | _ => cases h
  | _ =>
      intro other h
      cases other <;> cases h
      rfl

/-- A text is JSON for one value at most. -/
theorem IsJson.unique {text : String} {value value' : Json} (h : IsJson text value)
    (h' : IsJson text value') : value = value' :=
  ofJson_injective (congrArg Prod.fst (h.scanText_eq.symm.trans h'.scanText_eq))

/-! ### Reading texts -/

/-- Only the scan of a value is read whole. -/
theorem exists_ofJson_of_toJson {source : Source} {s : Scan} {result : Json}
    (h : s.toJson source = .ok result) : ∃ value, s = .ofJson value := by
  induction s using Scan.induct generalizing source result with
  | scalar scalar =>
      cases scalar with
      | null => exact ⟨.null, rfl⟩
      | bool b => exact ⟨.bool b, rfl⟩
      | number n =>
          obtain ⟨n, hn, -⟩ := map_eq_ok_iff.mp h
          obtain rfl := mapError_eq_ok_iff.mp hn
          exact ⟨.number n, rfl⟩
      | string text =>
          obtain ⟨text, htext, -⟩ := map_eq_ok_iff.mp h
          obtain rfl := mapError_eq_ok_iff.mp htext
          exact ⟨.string text, rfl⟩
  | array items tail ih =>
      simp only [Scan.toJson, itemsToJson_eq_mapM, bind_eq_ok_iff, pure_eq_ok_iff] at h
      obtain ⟨inner, -, results, hitems, _, htail, -⟩ := h
      obtain rfl := Tail.check_eq_ok_iff.mp htail
      have hvalues : ∃ values, items = scanItems values := by
        induction mapM_eq_ok_iff.mp hitems with
        | nil => exact ⟨[], rfl⟩
        | cons hitem hrest ihrest =>
            obtain ⟨hfirst, hmore⟩ := List.forall_mem_cons.mp ih
            obtain ⟨value, rfl⟩ := hfirst hitem
            obtain ⟨values, rfl⟩ := ihrest hmore (mapM_eq_ok_iff.mpr hrest)
            exact ⟨value :: values, rfl⟩
      obtain ⟨values, rfl⟩ := hvalues
      exact ⟨.array values, rfl⟩
  | object fields tail ih =>
      simp only [Scan.toJson, fieldsToJson_eq_mapM, bind_eq_ok_iff, pure_eq_ok_iff] at h
      obtain ⟨inner, -, entries, hfields, _, htail, -⟩ := h
      obtain rfl := Tail.check_eq_ok_iff.mp htail
      have hvalues : ∃ values, fields = scanFields values := by
        induction mapM_eq_ok_iff.mp hfields with
        | nil => exact ⟨[], rfl⟩
        | cons hfield hrest ihrest =>
            obtain ⟨hfirst, hmore⟩ := List.forall_mem_cons.mp ih
            obtain ⟨hkey, hvalue⟩ := readEntry_eq_ok_iff.mp hfield
            obtain ⟨value, hscan⟩ := hfirst hvalue
            obtain ⟨values, rfl⟩ := ihrest hmore (mapM_eq_ok_iff.mpr hrest)
            exact ⟨(_, value) :: values, congrArg (· :: _) (Prod.ext hkey hscan)⟩
      obtain ⟨values, rfl⟩ := hvalues
      exact ⟨.object values, rfl⟩
  | broken cause => cases h

theorem toJson_eq_ok_iff {source : Source} {s : Scan} {result : Json} :
    s.toJson source = .ok result ↔
      ∃ value, s = .ofJson value ∧ source.Admits value.depth ∧ result = value.sorted := by
  constructor
  · intro h
    obtain ⟨value, rfl⟩ := exists_ofJson_of_toJson h
    exact ⟨value, rfl, toJson_ofJson_eq_ok_iff.mp h⟩
  · rintro ⟨value, rfl, h⟩
    exact toJson_ofJson_eq_ok_iff.mpr h

theorem readText_eq_ok_iff {α : Type} {r : Reader α} {text : String} {a : α} :
    r.readText text = .ok a ↔ ∃ s, scanText text = (s, false) ∧ r .document s = .ok a := by
  unfold Reader.readText
  generalize scanText text = scanned
  obtain ⟨s, trailing⟩ := scanned
  refine bind_eq_ok_iff.trans ?_
  cases trailing with
  | true => simp [throw, throwThe, MonadExceptOf.throw]
  | false => simp [pure, Except.pure]

/-- A reader that needs the whole value reads the texts that are JSON for a value that it reads, as
long as at most 127 containers are inside one another. -/
theorem readText_eq_ok_iff_of_whole {α : Type} {r : Reader α} {text : String} {a : α}
    (hwhole : ∀ s, r .document s = .ok a → ∃ result, s.toJson .document = .ok result) :
    r.readText text = .ok a ↔
      ∃ value, IsJson text value ∧ value.depth ≤ 127 ∧ r .document (.ofJson value) = .ok a := by
  rw [readText_eq_ok_iff]
  constructor
  · rintro ⟨s, hscan, hread⟩
    obtain ⟨result, hresult⟩ := hwhole s hread
    obtain ⟨value, rfl, hadmits, -⟩ := toJson_eq_ok_iff.mp hresult
    exact ⟨value, scanText_eq_iff.mp hscan, Source.document_admits_iff.mp hadmits, hread⟩
  · rintro ⟨value, hjson, -, hread⟩
    exact ⟨_, hjson.scanText_eq, hread⟩

end Dataflow.Json

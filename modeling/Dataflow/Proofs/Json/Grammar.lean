import Dataflow.Json.Token
import Dataflow.Proofs.Failure
import Mathlib.Data.List.Chain
import Mathlib.Data.List.TakeWhile

/-! # How words are written

The texts of the words of JSON, without a word on how they are found: a numeral is made of its
digits, a string of its characters, each plain or escaped, and a text of its words and the blanks
around them. What is cut out of a text is written there; and what is written is cut out again,
as long as no scalar stands right behind another one, where nothing would tell them apart.
-/

namespace Dataflow.Json

/-! ### Texts -/

/-- A text of white space. -/
def Blank (cs : List Char) : Prop :=
  ∀ c ∈ cs, c ∈ [' ', '\n', '\t', '\r']

/-- One digit or more. -/
structure DigitsText (digits : List Nat) (cs : List Char) : Prop where
  nonempty : cs ≠ []
  isDigit : ∀ c ∈ cs, c.isDigit = true
  values : digits = cs.map digitValue

/-- The digits before the point: a zero stands alone. -/
structure WholeText (digits : List Nat) (cs : List Char) : Prop extends DigitsText digits cs where
  alone : cs.head? = some '0' → cs = ['0']

/-- The point and the digits behind it, if there is one. -/
inductive FractionText : Option (List Nat) → List Char → Prop
  | none : FractionText none []
  | some {digits : List Nat} {cs : List Char} (h : DigitsText digits cs) :
      FractionText (some digits) ('.' :: cs)

/-- The sign of an exponent, by whether it is negative. -/
inductive SignText : Bool → List Char → Prop
  | minus : SignText true ['-']
  | plus : SignText false ['+']
  | none : SignText false []

/-- The exponent with its mark, if there is one. -/
inductive ExponentText : Option (Bool × List Nat) → List Char → Prop
  | none : ExponentText none []
  | some {mark : Char} {negative : Bool} {digits : List Nat} {sign cs : List Char}
      (hmark : mark = 'e' ∨ mark = 'E') (hsign : SignText negative sign)
      (hdigits : DigitsText digits cs) :
      ExponentText (some (negative, digits)) (mark :: (sign ++ cs))

/-- A numeral behind its sign. -/
structure UnsignedText (n : Numeral) (whole fraction exponent : List Char) : Prop where
  whole : WholeText n.whole whole
  fraction : FractionText n.fraction fraction
  exponent : ExponentText n.exponent exponent

/-- A numeral. -/
inductive NumeralText (n : Numeral) : List Char → Prop
  | negative {whole fraction exponent : List Char} (hsign : n.negative = true)
      (h : UnsignedText n whole fraction exponent) :
      NumeralText n ('-' :: (whole ++ fraction ++ exponent))
  | positive {whole fraction exponent : List Char} (hsign : n.negative = false)
      (h : UnsignedText n whole fraction exponent) :
      NumeralText n (whole ++ fraction ++ exponent)

/-- A part of a string: a character as it is, an escape of one letter, or one of four digits. -/
inductive PartText : StringPart → List Char → Prop
  | plain {c : Char} (hc : c ≠ '"' ∧ c ≠ '\\' ∧ 0x20 ≤ c.toNat) : PartText (.char c) [c]
  | letter {l c : Char} (h : escapedChar? l = some c) : PartText (.char c) ['\\', l]
  | digits {a b c d : Char} {n : Nat} (h : hexUnit? a b c d = some n) :
      PartText (.unit n) ['\\', 'u', a, b, c, d]

/-- A character of a string: a part, or the two halves of a surrogate pair. -/
inductive CharText : Char → List Char → Prop
  | char {c : Char} {cs : List Char} (h : PartText (.char c) cs) : CharText c cs
  | unit {n : Nat} {cs : List Char} (h : PartText (.unit n) cs)
      (hleading : isLeadingSurrogate n = false) (htrailing : isTrailingSurrogate n = false) :
      CharText (Char.ofNat n) cs
  | pair {n m : Nat} {cs ds : List Char} (h : PartText (.unit n) cs) (h' : PartText (.unit m) ds)
      (hleading : isLeadingSurrogate n = true) (htrailing : isTrailingSurrogate m = true) :
      CharText (Char.ofNat (0x10000 + (n - 0xD800) * 0x400 + (m - 0xDC00))) (cs ++ ds)

/-- The characters between two quotes. -/
inductive StringText : List Char → List Char → Prop
  | nil : StringText [] []
  | cons {c : Char} {text piece rest : List Char} (hc : CharText c piece)
      (h : StringText text rest) : StringText (c :: text) (piece ++ rest)

/-- A word. What has no value is written nowhere: a number that does not fit, a string with half a
surrogate pair. -/
inductive WordText : Token → List Char → Prop
  | openArray : WordText .openArray ['[']
  | closeArray : WordText .closeArray [']']
  | openObject : WordText .openObject ['\x7b']
  | closeObject : WordText .closeObject ['\x7d']
  | colon : WordText .colon [':']
  | comma : WordText .comma [',']
  | null : WordText (.scalar .null) ['n', 'u', 'l', 'l']
  | isTrue : WordText (.scalar (.bool true)) ['t', 'r', 'u', 'e']
  | isFalse : WordText (.scalar (.bool false)) ['f', 'a', 'l', 's', 'e']
  | number {n : Numeral} {value : Number} {cs : List Char} (h : NumeralText n cs)
      (hvalue : n.toNumber? = some value) : WordText (.scalar (.number (.ok value))) cs
  | string {text : String} {cs : List Char} (h : StringText text.toList cs) :
      WordText (.scalar (.string (.ok text))) ('"' :: (cs ++ ['"']))

/-- Words, with blanks before, between and behind them. -/
inductive Written : List Token → List Char → Prop
  | nil {blanks : List Char} (h : Blank blanks) : Written [] blanks
  | cons {blanks word rest : List Char} {t : Token} {ts : List Token} (hblanks : Blank blanks)
      (hword : WordText t word) (h : Written ts rest) :
      Written (t :: ts) (blanks ++ word ++ rest)

/-! ### Numerals -/

/-- A text that does not go on a numeral. -/
def Ends (rest : List Char) : Prop :=
  ∀ c ∈ rest.head?, c.isDigit = false ∧ c ≠ '.' ∧ c ≠ 'e' ∧ c ≠ 'E'

theorem ends_nil : Ends [] := by
  simp [Ends]

theorem ends_cons {c : Char} {rest : List Char}
    (h : c.isDigit = false ∧ c ≠ '.' ∧ c ≠ 'e' ∧ c ≠ 'E') : Ends (c :: rest) := by
  simpa [Ends] using h

section

variable {cs rest : List Char}

theorem someDigits_sound {digits : List Nat} (h : someDigits cs = .ok (digits, rest)) :
    ∃ text, cs = text ++ rest ∧ DigitsText digits text := by
  simp only [someDigits] at h
  split at h
  next => cases h
  next hsome =>
    cases h
    refine ⟨_, List.takeWhile_append_dropWhile.symm, ?_, ?_, rfl⟩
    · simpa using hsome
    · exact fun c hc => List.mem_takeWhile_imp hc

theorem someDigits_complete {digits : List Nat} {text : List Char} (h : DigitsText digits text)
    (hrest : ∀ c ∈ rest.head?, c.isDigit = false) :
    someDigits (text ++ rest) = .ok (digits, rest) := by
  have hstop : rest.takeWhile Char.isDigit = [] ∧ rest.dropWhile Char.isDigit = rest := by
    cases rest with
    | nil => exact ⟨rfl, rfl⟩
    | cons c rest => simp [hrest c rfl]
  have htake : (text ++ rest).takeWhile Char.isDigit = text := by
    rw [List.takeWhile_append_of_pos h.isDigit, hstop.1, List.append_nil]
  have hdrop : (text ++ rest).dropWhile Char.isDigit = rest := by
    rw [List.dropWhile_append_of_pos h.isDigit, hstop.2]
  simp only [someDigits, htake, hdrop, List.isEmpty_iff, h.nonempty, if_false, h.values]

theorem DigitsText.head {digits : List Nat} {text : List Char} (h : DigitsText digits text) :
    ∃ c text', text = c :: text' ∧ c.isDigit = true := by
  cases text with
  | nil => exact absurd rfl h.nonempty
  | cons c text' => exact ⟨c, text', rfl, h.isDigit c List.mem_cons_self⟩

theorem wholeDigits_sound {digits : List Nat} (h : wholeDigits cs = .ok (digits, rest)) :
    ∃ text, cs = text ++ rest ∧ WholeText digits text := by
  unfold wholeDigits at h
  split at h
  next tail =>
    split at h
    next => cases h
    next =>
      cases h
      exact ⟨['0'], rfl, ⟨by simp, by simp, rfl⟩, fun _ => rfl⟩
  next hzero =>
    obtain ⟨text, rfl, htext⟩ := someDigits_sound h
    obtain ⟨c, text', rfl, -⟩ := htext.head
    refine ⟨_, rfl, htext, fun hhead => ?_⟩
    obtain rfl : c = '0' := by simpa using hhead
    exact absurd rfl (hzero (text' ++ rest))

theorem wholeDigits_complete {digits : List Nat} {text : List Char} (h : WholeText digits text)
    (hrest : ∀ c ∈ rest.head?, c.isDigit = false) :
    wholeDigits (text ++ rest) = .ok (digits, rest) := by
  by_cases hzero : text.head? = some '0'
  · obtain rfl := h.alone hzero
    obtain rfl := h.values
    change (if _ then _ else _) = _
    rw [if_neg]
    · rfl
    · cases rest with
      | nil => simp
      | cons c rest => simp [hrest c rfl]
  · obtain ⟨c, text', rfl, -⟩ := h.head
    rw [← someDigits_complete h.toDigitsText hrest]
    refine wholeDigits.eq_2 _ fun tail heq => hzero ?_
    simpa using (List.cons.inj heq).1

theorem fractionDigits_sound {digits : Option (List Nat)}
    (h : fractionDigits cs = .ok (digits, rest)) :
    ∃ text, cs = text ++ rest ∧ FractionText digits text := by
  unfold fractionDigits at h
  split at h
  next tail =>
    obtain ⟨⟨spelled, _⟩, hsome, heq⟩ := map_eq_ok_iff.mp h
    cases heq
    obtain ⟨text, rfl, htext⟩ := someDigits_sound hsome
    exact ⟨'.' :: text, rfl, .some htext⟩
  next =>
    cases h
    exact ⟨[], rfl, .none⟩

theorem fractionDigits_complete {digits : Option (List Nat)} {text : List Char}
    (h : FractionText digits text) (hrest : ∀ c ∈ rest.head?, c.isDigit = false ∧ c ≠ '.') :
    fractionDigits (text ++ rest) = .ok (digits, rest) := by
  cases h with
  | none =>
      refine fractionDigits.eq_2 _ fun tail heq => ?_
      obtain rfl : rest = '.' :: tail := heq
      exact (hrest '.' rfl).2 rfl
  | some h =>
      rw [List.cons_append, fractionDigits, someDigits_complete h fun c hc => (hrest c hc).1]
      rfl

theorem exponentDigits_sound {negative : Bool} {digits : List Nat}
    (h : exponentDigits cs = .ok ((negative, digits), rest)) :
    ∃ sign text, cs = sign ++ text ++ rest ∧ SignText negative sign ∧ DigitsText digits text := by
  have hpart {marked : Bool} {sign tail : List Char} (hsign : SignText marked sign)
      (hread : (someDigits tail).map (fun read => ((marked, read.1), read.2)) =
        .ok ((negative, digits), rest)) :
      ∃ sign' text, sign ++ tail = sign' ++ text ++ rest ∧ SignText negative sign' ∧
        DigitsText digits text := by
    obtain ⟨⟨spelled, _⟩, hsome, heq⟩ := map_eq_ok_iff.mp hread
    cases heq
    obtain ⟨text, rfl, htext⟩ := someDigits_sound hsome
    exact ⟨sign, text, (List.append_assoc ..).symm, hsign, htext⟩
  unfold exponentDigits at h
  split at h
  next => exact hpart .minus h
  next => exact hpart .plus h
  next => exact hpart .none h

theorem exponentDigits_complete {negative : Bool} {digits : List Nat} {sign text : List Char}
    (hsign : SignText negative sign) (h : DigitsText digits text)
    (hrest : ∀ c ∈ rest.head?, c.isDigit = false) :
    exponentDigits (sign ++ text ++ rest) = .ok ((negative, digits), rest) := by
  have hsome := someDigits_complete h hrest
  cases hsign with
  | minus =>
      change (someDigits (text ++ rest)).map _ = _
      rw [hsome]
      rfl
  | plus =>
      change (someDigits (text ++ rest)).map _ = _
      rw [hsome]
      rfl
  | none =>
      obtain ⟨c, text', rfl, hc⟩ := h.head
      rw [List.nil_append, List.cons_append, exponentDigits.eq_3, ← List.cons_append, hsome]
      · rfl
      · rintro tail heq
        cases (List.cons.inj heq).1
        cases hc
      · rintro tail heq
        cases (List.cons.inj heq).1
        cases hc

theorem exponentPart_sound {exponent : Option (Bool × List Nat)}
    (h : exponentPart cs = .ok (exponent, rest)) :
    ∃ text, cs = text ++ rest ∧ ExponentText exponent text := by
  have hpart {mark : Char} {tail : List Char} (hmark : mark = 'e' ∨ mark = 'E')
      (hread : (exponentDigits tail).map (fun read => (some read.1, read.2)) =
        .ok (exponent, rest)) :
      ∃ text, mark :: tail = text ++ rest ∧ ExponentText exponent text := by
    obtain ⟨⟨⟨negative, digits⟩, _⟩, hdigits, heq⟩ := map_eq_ok_iff.mp hread
    cases heq
    obtain ⟨sign, text, rfl, hsign, htext⟩ := exponentDigits_sound hdigits
    exact ⟨mark :: (sign ++ text), rfl, .some hmark hsign htext⟩
  unfold exponentPart at h
  split at h
  next => exact hpart (.inl rfl) h
  next => exact hpart (.inr rfl) h
  next =>
    cases h
    exact ⟨[], rfl, .none⟩

theorem exponentPart_complete {exponent : Option (Bool × List Nat)} {text : List Char}
    (h : ExponentText exponent text) (hrest : Ends rest) :
    exponentPart (text ++ rest) = .ok (exponent, rest) := by
  cases h with
  | none =>
      refine exponentPart.eq_3 _ (fun tail heq => ?_) fun tail heq => ?_
      · exact (hrest 'e' (by rw [show rest = 'e' :: tail from heq]; rfl)).2.2.1 rfl
      · exact (hrest 'E' (by rw [show rest = 'E' :: tail from heq]; rfl)).2.2.2 rfl
  | some hmark hsign hdigits =>
      have hread := exponentDigits_complete hsign hdigits fun c hc => (hrest c hc).1
      rcases hmark with rfl | rfl
      · rw [List.cons_append, exponentPart, hread]
        rfl
      · rw [List.cons_append, exponentPart, hread]
        rfl

theorem ExponentText.head {exponent : Option (Bool × List Nat)} {text : List Char}
    (h : ExponentText exponent text) (hrest : Ends rest) :
    ∀ c ∈ (text ++ rest).head?, c.isDigit = false ∧ c ≠ '.' := by
  cases h with
  | none => exact fun c hc => ⟨(hrest c hc).1, (hrest c hc).2.1⟩
  | some hmark hsign hdigits =>
      rintro c hc
      obtain rfl := Option.mem_some.mp hc
      rcases hmark with rfl | rfl <;> decide

theorem FractionText.head {digits : Option (List Nat)} {text : List Char}
    (h : FractionText digits text) (hrest : ∀ c ∈ rest.head?, c.isDigit = false) :
    ∀ c ∈ (text ++ rest).head?, c.isDigit = false := by
  cases h with
  | none => exact hrest
  | some h =>
      rintro c hc
      obtain rfl := Option.mem_some.mp hc
      decide

theorem numeral_sound {negative : Bool} {n : Numeral} (h : numeral negative cs = .ok (n, rest)) :
    n.negative = negative ∧ ∃ whole fraction exponent,
      cs = whole ++ fraction ++ exponent ++ rest ∧ UnsignedText n whole fraction exponent := by
  simp only [numeral, bind_eq_ok_iff, pure_eq_ok_iff, Prod.exists] at h
  obtain ⟨digits, _, hwhole, fractionDigits', _, hfraction, exponentDigits', _, hexponent, heq⟩ := h
  cases heq
  obtain ⟨whole, rfl, hwholeText⟩ := wholeDigits_sound hwhole
  obtain ⟨fraction, rfl, hfractionText⟩ := fractionDigits_sound hfraction
  obtain ⟨exponent, rfl, hexponentText⟩ := exponentPart_sound hexponent
  exact ⟨rfl, whole, fraction, exponent, by simp, hwholeText, hfractionText, hexponentText⟩

/-- A numeral is read to its end in front of anything that does not go on it. -/
theorem numeral_complete {n : Numeral} {whole fraction exponent : List Char}
    (h : UnsignedText n whole fraction exponent) (hrest : Ends rest) :
    numeral n.negative (whole ++ fraction ++ exponent ++ rest) = .ok (n, rest) := by
  have hexponent := h.exponent.head hrest
  have hfraction := h.fraction.head fun c hc => (hexponent c hc).1
  simp only [numeral, bind_eq_ok_iff, pure_eq_ok_iff, Prod.exists, List.append_assoc]
  exact ⟨_, _, wholeDigits_complete h.whole hfraction, _, _,
    fractionDigits_complete h.fraction hexponent, _, _, exponentPart_complete h.exponent hrest, rfl⟩

end

/-! ### Strings -/

section

variable {rest : List Char}

theorem stringParts_sound {cs : List Char} {parts : List StringPart}
    (h : stringParts cs = (parts, .closed rest)) :
    ∃ pieces, cs = pieces.flatten ++ '"' :: rest ∧ List.Forall₂ PartText parts pieces := by
  have hpart {part : StringPart} {piece tail : List Char} (hpiece : PartText part piece)
      {all : List StringPart} (ih : ∀ {parts}, stringParts tail = (parts, .closed rest) →
        ∃ pieces, tail = pieces.flatten ++ '"' :: rest ∧ List.Forall₂ PartText parts pieces)
      (hread : (stringParts tail).map (part :: ·) id = (all, .closed rest)) :
      ∃ pieces, piece ++ tail = pieces.flatten ++ '"' :: rest ∧
        List.Forall₂ PartText all pieces := by
    obtain ⟨rfl, hend⟩ := Prod.mk.inj hread
    obtain ⟨pieces, htail, hpieces⟩ := ih (Prod.ext rfl hend)
    exact ⟨piece :: pieces, by simp [← htail], .cons hpiece hpieces⟩
  fun_induction stringParts cs generalizing parts with
  | case2 tail =>
      cases h
      exact ⟨[], rfl, .nil⟩
  | case4 a b c d tail n hn ih => exact hpart (.digits hn) ih h
  | case5 => split at h <;> cases h
  | case8 l tail _ _ c hc ih => exact hpart (.letter hc) ih h
  | case10 c tail hquote _ _ hend hletter hcontrol ih =>
      have hbackslash : c ≠ '\\' := fun hc => by
        cases tail with
        | nil => exact hend hc rfl
        | cons l tail => exact hletter l tail hc rfl
      exact hpart (.plain ⟨hquote, hbackslash, Nat.not_lt.mp hcontrol⟩) ih h
  | _ => cases h

theorem stringParts_piece {part : StringPart} {piece : List Char} (h : PartText part piece)
    (cs : List Char) :
    stringParts (piece ++ cs) = (stringParts cs).map (part :: ·) id := by
  cases h with
  | @plain c hc =>
      obtain ⟨hquote, hbackslash, hcontrol⟩ := hc
      have hplain := stringParts.eq_7 c cs hquote (fun _ _ _ _ _ h => (hbackslash h).elim)
        (fun _ h => (hbackslash h).elim) (fun h => (hbackslash h).elim)
        (fun _ _ h => (hbackslash h).elim)
      exact hplain.trans (if_neg (Nat.not_lt.mpr hcontrol))
  | @letter l c h =>
      unfold escapedChar? at h
      split at h <;> cases h <;> rfl
  | @digits a b c d n h => simp [stringParts, h]

theorem stringParts_complete {parts : List StringPart} {pieces : List (List Char)}
    (h : List.Forall₂ PartText parts pieces) :
    stringParts (pieces.flatten ++ '"' :: rest) = (parts, .closed rest) := by
  induction h with
  | nil => rfl
  | cons hpart _ ih =>
      rw [List.flatten_cons, List.append_assoc, stringParts_piece hpart, ih]
      rfl

theorem joinParts_unit {n : Nat} (hleading : isLeadingSurrogate n = false)
    (htrailing : isTrailingSurrogate n = false) (ending : StringEnd) (parts : List StringPart) :
    joinParts ending (.unit n :: parts) = (joinParts ending parts).map (Char.ofNat n :: ·) := by
  rw [joinParts.eq_def]
  exact (if_neg (ne_true_of_eq_false htrailing)).trans (if_neg (ne_true_of_eq_false hleading))

theorem joinParts_pair {n m : Nat} (hleading : isLeadingSurrogate n = true)
    (htrailing : isTrailingSurrogate m = true) (ending : StringEnd) (parts : List StringPart) :
    joinParts ending (.unit n :: .unit m :: parts) = (joinParts ending parts).map
      (Char.ofNat (0x10000 + (n - 0xD800) * 0x400 + (m - 0xDC00)) :: ·) := by
  have hfirst : isTrailingSurrogate n = false := by
    simp only [isLeadingSurrogate, Bool.and_eq_true, decide_eq_true_eq] at hleading
    simp only [isTrailingSurrogate, Bool.and_eq_false_iff, decide_eq_false_iff_not]
    omega
  rw [joinParts.eq_3, hfirst, hleading, htrailing]
  rfl

/-- Parts that are joined spell what they are joined to. -/
theorem joinParts_sound {ending : StringEnd} {parts : List StringPart} {pieces : List (List Char)}
    {text : List Char} (h : List.Forall₂ PartText parts pieces)
    (hjoin : joinParts ending parts = .ok text) : StringText text pieces.flatten := by
  fun_induction joinParts ending parts generalizing pieces text with
  | case1 =>
      cases h
      obtain ⟨_, -, rfl⟩ := map_eq_ok_iff.mp hjoin
      exact .nil
  | case2 c parts ih =>
      obtain ⟨text, hparts, rfl⟩ := map_eq_ok_iff.mp hjoin
      cases h with
      | cons hpart h => exact .cons (.char hpart) (ih h hparts)
  | case4 n htrailing hleading m parts hpair ih =>
      obtain ⟨text, hparts, rfl⟩ := map_eq_ok_iff.mp hjoin
      obtain _ | ⟨hfirst, _ | ⟨hsecond, h⟩⟩ := h
      have hchar := StringText.cons (.pair hfirst hsecond hleading hpair) (ih h hparts)
      rwa [List.append_assoc] at hchar
  | case8 n parts htrailing hleading ih =>
      obtain ⟨text, hparts, rfl⟩ := map_eq_ok_iff.mp hjoin
      cases h with
      | cons hpart h =>
          have hchar := CharText.unit hpart (Bool.not_eq_true _ ▸ hleading)
            (Bool.not_eq_true _ ▸ htrailing)
          exact .cons hchar (ih h hparts)
  | _ => cases hjoin

/-- What is written between quotes is made of parts that are joined to it. -/
theorem joinParts_complete {text cs : List Char} (h : StringText text cs) (rest : List Char) :
    ∃ parts pieces, cs = pieces.flatten ∧ List.Forall₂ PartText parts pieces ∧
      joinParts (.closed rest) parts = .ok text := by
  induction h with
  | nil => exact ⟨[], [], rfl, .nil, rfl⟩
  | cons hc _ ih =>
      obtain ⟨parts, pieces, rfl, hpieces, hjoin⟩ := ih
      cases hc with
      | char h =>
          refine ⟨_ :: parts, _ :: pieces, rfl, .cons h hpieces, ?_⟩
          rw [joinParts, hjoin]
          rfl
      | unit h hleading htrailing =>
          refine ⟨_ :: parts, _ :: pieces, rfl, .cons h hpieces, ?_⟩
          rw [joinParts_unit hleading htrailing, hjoin]
          rfl
      | pair h h' hleading htrailing =>
          refine ⟨_ :: _ :: parts, _ :: _ :: pieces, by simp, .cons h (.cons h' hpieces), ?_⟩
          rw [joinParts_pair hleading htrailing, hjoin]
          rfl

theorem stringToken_sound {cs : List Char} {text : String}
    (h : stringToken cs = (.scalar (.string (.ok text)), rest)) :
    ∃ body, cs = body ++ '"' :: rest ∧ StringText text.toList body := by
  unfold stringToken at h
  generalize hread : stringParts cs = scanned at h
  obtain ⟨parts, ending⟩ := scanned
  cases ending with
  | closed rest' =>
      obtain ⟨htoken, rfl⟩ := Prod.mk.inj h
      obtain ⟨pieces, rfl, hpieces⟩ := stringParts_sound hread
      simp only [Token.scalar.injEq, Scalar.string.injEq] at htoken
      obtain ⟨text', hjoin, rfl⟩ := map_eq_ok_iff.mp htoken
      rw [String.toList_ofList]
      exact ⟨_, rfl, joinParts_sound hpieces hjoin⟩
  | _ => cases h

theorem stringToken_complete {text : String} {body : List Char}
    (h : StringText text.toList body) :
    stringToken (body ++ '"' :: rest) = (.scalar (.string (.ok text)), rest) := by
  obtain ⟨parts, pieces, rfl, hpieces, hjoin⟩ := joinParts_complete h rest
  simp [stringToken, stringParts_complete hpieces, hjoin, StringEnd.rest, Except.map]

end

/-! ### Words -/

/-- A word that has a value, if it is a scalar. -/
def Token.Whole : Token → Prop
  | .scalar (.number value) => ∃ n, value = .ok n
  | .scalar (.string value) => ∃ text, value = .ok text
  | .brokenString _ _ => False
  | .bad _ => False
  | _ => True

def Token.isScalar : Token → Bool
  | .scalar _ => true
  | _ => false

section

variable {c : Char} {cs rest : List Char} {t : Token}

theorem isSpace_iff : isSpace c = true ↔ c ∈ [' ', '\n', '\t', '\r'] := by
  simp [isSpace, or_assoc]

theorem not_numeral_of_blank :
    ∀ c ∈ [' ', '\n', '\t', '\r'], c.isDigit = false ∧ c ≠ '.' ∧ c ≠ 'e' ∧ c ≠ 'E' := by
  simp

theorem isSpace_eq_false_of_isDigit (h : c.isDigit = true) : isSpace c = false := by
  by_contra hspace
  rw [Bool.not_eq_false, isSpace_iff] at hspace
  exact absurd h (ne_true_of_eq_false (not_numeral_of_blank c hspace).1)

theorem token_of_isDigit (hc : c.isDigit = true) : token c cs = numberToken false (c :: cs) := by
  unfold token
  split
  case h_12 => rw [if_pos hc]
  all_goals exact absurd hc (by decide)

theorem word_sound {letters : List Char} {value : Scalar}
    (h : (word letters value cs).1.Whole) :
    ∃ rest, cs = letters ++ rest ∧ word letters value cs = (.scalar value, rest) := by
  unfold word at h ⊢
  split at h
  next hprefix =>
    obtain ⟨rest, rfl⟩ := List.isPrefixOf_iff_prefix.mp hprefix
    exact ⟨rest, rfl, by simp⟩
  next => split at h <;> cases h

theorem word_complete (letters : List Char) (value : Scalar) (rest : List Char) :
    word letters value (letters ++ rest) = (.scalar value, rest) := by
  simp [word]

theorem numberToken_sound {negative : Bool} (h : (numberToken negative cs).1.Whole) :
    ∃ n value whole fraction exponent rest,
      numberToken negative cs = (.scalar (.number (.ok value)), rest) ∧
        n.toNumber? = some value ∧ n.negative = negative ∧
          cs = whole ++ fraction ++ exponent ++ rest ∧
            UnsignedText n whole fraction exponent := by
  unfold numberToken at h ⊢
  split at h
  next => cases h
  next n rest hnumeral =>
    split at h
    next value hvalue =>
      obtain ⟨rfl, whole, fraction, exponent, rfl, htext⟩ := numeral_sound hnumeral
      exact ⟨n, value, whole, fraction, exponent, rest, by simp, hvalue, rfl, rfl, htext⟩
    next =>
      obtain ⟨_, hvalue⟩ := h
      cases hvalue

theorem numberToken_complete {n : Numeral} {value : Number} {whole fraction exponent : List Char}
    (h : UnsignedText n whole fraction exponent) (hvalue : n.toNumber? = some value)
    (hrest : Ends rest) : numberToken n.negative (whole ++ fraction ++ exponent ++ rest) =
      (.scalar (.number (.ok value)), rest) := by
  simp only [numberToken, numeral_complete h hrest, hvalue]

theorem stringToken_of_whole (h : (stringToken cs).1.Whole) :
    ∃ text rest, stringToken cs = (.scalar (.string (.ok text)), rest) := by
  unfold stringToken at h ⊢
  generalize stringParts cs = scanned at h ⊢
  obtain ⟨parts, ending⟩ := scanned
  cases ending with
  | closed rest =>
      obtain ⟨text, htext⟩ := h
      exact ⟨text, rest, by simp [StringEnd.rest, htext]⟩
  | _ => cases h

/-- What is cut out of a text as a word with a value is that word. -/
theorem token_sound (h : (token c cs).1.Whole) :
    ∃ word, c :: cs = word ++ (token c cs).2 ∧ WordText (token c cs).1 word := by
  unfold token at h ⊢
  split at h
  case h_1 => exact ⟨_, rfl, .openArray⟩
  case h_2 => exact ⟨_, rfl, .closeArray⟩
  case h_3 => exact ⟨_, rfl, .openObject⟩
  case h_4 => exact ⟨_, rfl, .closeObject⟩
  case h_5 => exact ⟨_, rfl, .colon⟩
  case h_6 => exact ⟨_, rfl, .comma⟩
  case h_7 =>
    obtain ⟨text, rest, hread⟩ := stringToken_of_whole h
    obtain ⟨body, rfl, htext⟩ := stringToken_sound hread
    rw [hread]
    exact ⟨_, by simp, .string htext⟩
  case h_8 =>
    obtain ⟨n, value, whole, fraction, exponent, rest, hread, hvalue, hsign, rfl, htext⟩ :=
      numberToken_sound h
    rw [hread]
    exact ⟨_, by simp, .number (.negative hsign htext) hvalue⟩
  case h_9 =>
    obtain ⟨rest, rfl, hread⟩ := word_sound h
    rw [hread]
    exact ⟨_, rfl, .null⟩
  case h_10 =>
    obtain ⟨rest, rfl, hread⟩ := word_sound h
    rw [hread]
    exact ⟨_, rfl, .isTrue⟩
  case h_11 =>
    obtain ⟨rest, rfl, hread⟩ := word_sound h
    rw [hread]
    exact ⟨_, rfl, .isFalse⟩
  case h_12 =>
    split at h
    next hdigit =>
      obtain ⟨n, value, whole, fraction, exponent, rest, hread, hvalue, hsign, hcs, htext⟩ :=
        numberToken_sound h
      rw [if_pos hdigit, hread]
      exact ⟨_, hcs, .number (.positive hsign htext) hvalue⟩
    next => cases h

theorem UnsignedText.head {n : Numeral} {whole fraction exponent : List Char}
    (h : UnsignedText n whole fraction exponent) :
    ∃ c cs, whole ++ fraction ++ exponent = c :: cs ∧ c.isDigit = true := by
  obtain ⟨c, tail, rfl, hdigit⟩ := h.whole.head
  exact ⟨c, tail ++ fraction ++ exponent, rfl, hdigit⟩

/-- A word is cut out of a text again; a scalar only in front of what ends it. -/
theorem token_complete {word : List Char} (h : WordText t word)
    (hrest : t.isScalar = true → Ends rest) :
    ∃ c cs, word ++ rest = c :: cs ∧ isSpace c = false ∧ token c cs = (t, rest) := by
  cases h with
  | null => exact ⟨_, _, rfl, rfl, word_complete ['u', 'l', 'l'] .null rest⟩
  | isTrue => exact ⟨_, _, rfl, rfl, word_complete ['r', 'u', 'e'] (.bool true) rest⟩
  | isFalse => exact ⟨_, _, rfl, rfl, word_complete ['a', 'l', 's', 'e'] (.bool false) rest⟩
  | @string _ body htext =>
      exact ⟨'"', body ++ '"' :: rest, by simp, rfl, stringToken_complete htext⟩
  | @number n value _ htext hvalue =>
      cases htext with
      | negative hsign htext =>
          have hread := numberToken_complete htext hvalue (hrest rfl)
          rw [hsign] at hread
          exact ⟨_, _, rfl, rfl, hread⟩
      | positive hsign htext =>
          have hread := numberToken_complete htext hvalue (hrest rfl)
          obtain ⟨c, cs, hcs, hdigit⟩ := htext.head
          rw [hsign, hcs] at hread
          rw [hcs]
          exact ⟨c, cs ++ rest, rfl, isSpace_eq_false_of_isDigit hdigit,
            (token_of_isDigit hdigit).trans hread⟩
  | _ => exact ⟨_, _, rfl, rfl, rfl⟩

theorem tokens_eq (cs : List Char) : tokens cs =
    match cs.dropWhile isSpace with
    | [] => []
    | c :: rest => (token c rest).1 :: tokens (token c rest).2 := by
  rw [tokens]
  split
  next h => rw [h]
  next h => rw [h]

theorem tokens_nil : tokens [] = [] :=
  tokens_eq []

theorem tokens_cons (h : isSpace c = false) :
    tokens (c :: cs) = (token c cs).1 :: tokens (token c cs).2 := by
  rw [tokens_eq, List.dropWhile_cons_of_neg (by simp [h])]

theorem tokens_blank {blanks : List Char} (h : Blank blanks) :
    tokens (blanks ++ rest) = tokens rest := by
  have hspace := fun c hc => isSpace_iff.mpr (h c hc)
  rw [tokens_eq, tokens_eq, List.dropWhile_append_of_pos hspace]

theorem tokens_word {word : List Char} (h : WordText t word)
    (hrest : t.isScalar = true → Ends rest) : tokens (word ++ rest) = t :: tokens rest := by
  obtain ⟨c, cs, heq, hspace, hread⟩ := token_complete h hrest
  rw [heq, tokens_cons hspace, hread]

/-! ### Texts of words -/

theorem Written.blank_append {ts : List Token} {blanks : List Char} (hblanks : Blank blanks)
    (h : Written ts cs) : Written ts (blanks ++ cs) := by
  cases h with
  | nil h => exact .nil (List.forall_mem_append.mpr ⟨hblanks, h⟩)
  | cons h hword hrest =>
      rw [← List.append_assoc, ← List.append_assoc]
      exact .cons (List.forall_mem_append.mpr ⟨hblanks, h⟩) hword hrest

theorem Written.append {ts ts' : List Token} {cs' : List Char} (h : Written ts cs)
    (h' : Written ts' cs') : Written (ts ++ ts') (cs ++ cs') := by
  induction h with
  | nil hblanks => exact h'.blank_append hblanks
  | cons hblanks hword _ ih =>
      rw [List.append_assoc]
      exact .cons hblanks hword ih

theorem WordText.written {word : List Char} (h : WordText t word) : Written [t] word := by
  have hblank : Blank [] := List.forall_mem_nil _
  simpa using Written.cons hblank h (.nil hblank)

/-- What is cut into words with values is written so. -/
theorem written_of_tokens (h : ∀ t ∈ tokens cs, t.Whole) : Written (tokens cs) cs := by
  fun_induction tokens cs with
  | case1 cs hblank =>
      exact .nil fun c hc => isSpace_iff.mp (List.dropWhile_eq_nil_iff.mp hblank c hc)
  | case2 cs c rest hcs ih =>
      obtain ⟨hfirst, hmore⟩ := List.forall_mem_cons.mp h
      obtain ⟨word, hword, htext⟩ := token_sound hfirst
      have hblank : Blank (cs.takeWhile isSpace) := fun c hc =>
        isSpace_iff.mp (List.mem_takeWhile_imp hc)
      have hwritten := Written.cons hblank htext (ih hmore)
      rwa [List.append_assoc, ← hword, ← hcs, List.takeWhile_append_dropWhile] at hwritten

/-- A scalar does not stand in front of another one. -/
def Apart (t t' : Token) : Prop :=
  t.isScalar = true → t'.isScalar = false

theorem Blank.ends {blanks : List Char} (h : Blank blanks) (hrest : Ends rest) :
    Ends (blanks ++ rest) := by
  cases blanks with
  | nil => exact hrest
  | cons c blanks => exact ends_cons (not_numeral_of_blank c (h c List.mem_cons_self))

theorem WordText.ends {word : List Char} (h : WordText t word) (ht : t.isScalar = false) :
    Ends (word ++ rest) := by
  cases h with
  | openArray | closeArray | openObject | closeObject | colon | comma =>
      exact ends_cons (by decide)
  | _ => cases ht

theorem Written.ends {ts : List Token} (h : Written ts cs)
    (hts : ∀ t ∈ ts.head?, t.isScalar = false) : Ends cs := by
  cases h with
  | nil h =>
      rw [← List.append_nil cs]
      exact h.ends ends_nil
  | cons hblank hword h =>
      rw [List.append_assoc]
      exact hblank.ends (hword.ends (hts _ rfl))

/-- What is written as words is cut into them, as long as scalars stand apart. -/
theorem tokens_of_written {ts : List Token} (h : Written ts cs) (hts : ts.IsChain Apart) :
    tokens cs = ts := by
  induction h with
  | @nil blanks hblank =>
      rw [← List.append_nil blanks, tokens_blank hblank, tokens_nil]
  | @cons _ _ _ t ts hblank hword h ih =>
      obtain ⟨hnext, hts⟩ := List.isChain_cons.mp hts
      have hends (hscalar : t.isScalar = true) := h.ends fun t' ht' => hnext t' ht' hscalar
      rw [List.append_assoc, tokens_blank hblank, tokens_word hword hends, ih hts]

end

end Dataflow.Json

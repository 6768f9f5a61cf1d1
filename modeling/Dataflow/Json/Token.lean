import Dataflow.Json.Numeral

/-! # The words of a JSON text

A text is cut into brackets, marks and scalars. Where it cannot be cut any further the last token
says why. An escape of half a surrogate pair does not stop the cutting: such a string may be
skipped, but it has no value. A string that breaks off may have both faults; who reads it meets
them in their order, who skips it meets the second one only.
-/

namespace Dataflow.Json

/-- What can be wrong with a text that is not JSON. -/
inductive Malformed where
  | endInList
  | endInObject
  | endInString
  | endInValue
  | expectedColon
  | expectedListCommaOrEnd
  | expectedObjectCommaOrEnd
  | expectedWord
  | expectedValue
  | invalidEscape
  | invalidNumber
  | numberOutOfRange
  | controlCharacter
  | keyMustBeString
  | loneSurrogate
  | brokenSurrogatePair
  | trailingComma
  | trailingCharacters
  | tooDeep
  deriving DecidableEq, Repr

def Malformed.message : Malformed → String
  | .endInList => "EOF while parsing a list"
  | .endInObject => "EOF while parsing an object"
  | .endInString => "EOF while parsing a string"
  | .endInValue => "EOF while parsing a value"
  | .expectedColon => "expected `:`"
  | .expectedListCommaOrEnd => "expected `,` or `]`"
  | .expectedObjectCommaOrEnd => "expected `,` or `\x7d`"
  | .expectedWord => "expected ident"
  | .expectedValue => "expected value"
  | .invalidEscape => "invalid escape"
  | .invalidNumber => "invalid number"
  | .numberOutOfRange => "number out of range"
  | .controlCharacter =>
    "control character (\\u0000-\\u001F) found while parsing a string"
  | .keyMustBeString => "key must be a string"
  | .loneSurrogate => "lone leading surrogate in hex escape"
  | .brokenSurrogatePair => "unexpected end of hex escape"
  | .trailingComma => "trailing comma"
  | .trailingCharacters => "trailing characters"
  | .tooDeep => "recursion limit exceeded"

/-- A value without parts. A numeral out of range and a text with half a surrogate pair have a
place in a text but no value. -/
inductive Scalar where
  | null
  | bool (value : Bool)
  | number (value : Except Malformed Number)
  | string (value : Except Malformed String)

/-- A word of a JSON text. -/
inductive Token where
  | openArray
  | closeArray
  | openObject
  | closeObject
  | colon
  | comma
  | scalar (value : Scalar)
  /-- A string that breaks off, with its value, which is an error, and why it breaks off. -/
  | brokenString (value : Except Malformed String) (cause : Malformed)
  | bad (cause : Malformed)

/-- The white space between words. -/
def isSpace (c : Char) : Bool :=
  c == ' ' || c == '\n' || c == '\t' || c == '\r'

/-- The value of a hexadecimal digit. -/
def hexValue? (c : Char) : Option Nat :=
  if '0' ≤ c ∧ c ≤ '9' then some (c.toNat - 48)
  else if 'a' ≤ c ∧ c ≤ 'f' then some (c.toNat - 87)
  else if 'A' ≤ c ∧ c ≤ 'F' then some (c.toNat - 55)
  else none

/-- A character between quotes, or the sixteen bits of a `\u` escape. -/
inductive StringPart where
  | char (c : Char)
  | unit (n : Nat)

/-- The character of an escape of one letter. -/
def escapedChar? : Char → Option Char
  | '"' => some '"'
  | '\\' => some '\\'
  | '/' => some '/'
  | 'b' => some '\x08'
  | 'f' => some '\x0c'
  | 'n' => some '\n'
  | 'r' => some '\r'
  | 't' => some '\t'
  | _ => none

/-- The number of a `\u` escape. -/
def hexUnit? (a b c d : Char) : Option Nat :=
  match hexValue? a, hexValue? b, hexValue? c, hexValue? d with
  | some a, some b, some c, some d => some (((a * 16 + b) * 16 + c) * 16 + d)
  | _, _, _, _ => none

/-- What stands behind the last part of a string. -/
inductive StringEnd where
  /-- The closing quote, and what follows it. -/
  | closed (rest : List Char)
  /-- The end of the text, maybe inside an escape. -/
  | endOfText
  | badLetter
  | badDigits
  | controlCharacter

/-- What follows the closing quote, or why there is none. -/
def StringEnd.rest : StringEnd → Except Malformed (List Char)
  | .closed rest => .ok rest
  | .endOfText => .error .endInString
  | .badLetter => .error .invalidEscape
  | .badDigits => .error .invalidEscape
  | .controlCharacter => .error .controlCharacter

/-- What is wrong with the first half of a surrogate pair in front of an end. Only an escape that
begins like the second half is looked at. -/
def StringEnd.afterHalf : StringEnd → Malformed
  | .endOfText => .endInString
  | .badDigits => .invalidEscape
  | _ => .brokenSurrogatePair

/-- Reads up to the closing quote, or as far as the string goes. The four digits of a `\u` escape
are cut off by the end of the text only if fewer than four bytes are left. -/
def stringParts : List Char → List StringPart × StringEnd
  | [] => ([], .endOfText)
  | '"' :: rest => ([], .closed rest)
  | '\\' :: 'u' :: a :: b :: c :: d :: rest =>
    match hexUnit? a b c d with
    | none => ([], .badDigits)
    | some n => (stringParts rest).map (.unit n :: ·) id
  | '\\' :: 'u' :: rest =>
    ([], if (String.ofList rest).utf8ByteSize < 4 then .endOfText else .badDigits)
  | ['\\'] => ([], .endOfText)
  | '\\' :: c :: rest =>
    match escapedChar? c with
    | none => ([], .badLetter)
    | some c => (stringParts rest).map (.char c :: ·) id
  | c :: rest =>
    if c.toNat < 0x20 then ([], .controlCharacter)
    else (stringParts rest).map (.char c :: ·) id

/-- Whether sixteen bits are the first half of a surrogate pair. -/
def isLeadingSurrogate (n : Nat) : Bool :=
  0xD800 ≤ n && n < 0xDC00

/-- Whether sixteen bits are the second half of a surrogate pair. -/
def isTrailingSurrogate (n : Nat) : Bool :=
  0xDC00 ≤ n && n < 0xE000

/-- The characters of the parts in front of an end: the halves of surrogate pairs are joined. -/
def joinParts (ending : StringEnd) : List StringPart → Except Malformed (List Char)
  | [] => ending.rest.map fun _ => []
  | .char c :: parts => (joinParts ending parts).map (c :: ·)
  | .unit n :: parts =>
    if isTrailingSurrogate n then .error .loneSurrogate
    else if isLeadingSurrogate n then
      match parts with
      | .unit m :: parts =>
        if isTrailingSurrogate m then
          (joinParts ending parts).map
            (Char.ofNat (0x10000 + (n - 0xD800) * 0x400 + (m - 0xDC00)) :: ·)
        else .error .loneSurrogate
      | .char _ :: _ => .error .brokenSurrogatePair
      | [] => .error ending.afterHalf
    else (joinParts ending parts).map (Char.ofNat n :: ·)

/-- The value of a decimal digit. -/
def digitValue (c : Char) : Nat :=
  c.toNat - 48

/-- Reads one digit or more. -/
def someDigits (cs : List Char) : Except Malformed (List Nat × List Char) :=
  let digits := cs.takeWhile Char.isDigit
  let rest := cs.dropWhile Char.isDigit
  if digits.isEmpty then .error (if rest.isEmpty then .endInValue else .invalidNumber)
  else .ok (digits.map digitValue, rest)

/-- Reads the digits before the point, without a zero in front of others. -/
def wholeDigits : List Char → Except Malformed (List Nat × List Char)
  | '0' :: rest =>
    if (rest.head?.map Char.isDigit).getD false then .error .invalidNumber else .ok ([0], rest)
  | cs => someDigits cs

/-- Reads a point and the digits behind it, if there is one. -/
def fractionDigits : List Char → Except Malformed (Option (List Nat) × List Char)
  | '.' :: rest => (someDigits rest).map fun (digits, rest) => (some digits, rest)
  | cs => .ok (none, cs)

/-- Reads the sign and the digits of an exponent, whose mark is already read. -/
def exponentDigits : List Char → Except Malformed ((Bool × List Nat) × List Char)
  | '-' :: rest => (someDigits rest).map fun (digits, rest) => ((true, digits), rest)
  | '+' :: rest => (someDigits rest).map fun (digits, rest) => ((false, digits), rest)
  | rest => (someDigits rest).map fun (digits, rest) => ((false, digits), rest)

/-- Reads an exponent, if there is one. -/
def exponentPart : List Char → Except Malformed (Option (Bool × List Nat) × List Char)
  | 'e' :: rest => (exponentDigits rest).map fun (exponent, rest) => (some exponent, rest)
  | 'E' :: rest => (exponentDigits rest).map fun (exponent, rest) => (some exponent, rest)
  | rest => .ok (none, rest)

/-- Reads a numeral behind its sign. -/
def numeral (negative : Bool) (cs : List Char) : Except Malformed (Numeral × List Char) := do
  let (whole, cs) ← wholeDigits cs
  let (fraction, cs) ← fractionDigits cs
  let (exponent, cs) ← exponentPart cs
  return (⟨negative, whole, fraction, exponent⟩, cs)

/-- Reads the rest of a word. -/
def word (letters : List Char) (value : Scalar) (cs : List Char) : Token × List Char :=
  if letters.isPrefixOf cs then (.scalar value, cs.drop letters.length)
  else if cs.isPrefixOf letters then (.bad .endInValue, [])
  else (.bad .expectedWord, [])

/-- Reads a numeral behind its sign as a token. -/
def numberToken (negative : Bool) (cs : List Char) : Token × List Char :=
  match numeral negative cs with
  | .error cause => (.bad cause, [])
  | .ok (n, rest) =>
    match n.toNumber? with
    | some value => (.scalar (.number (.ok value)), rest)
    | none => (.scalar (.number (.error .numberOutOfRange)), rest)

/-- Reads a string behind its opening quote as a token. -/
def stringToken (cs : List Char) : Token × List Char :=
  let (parts, ending) := stringParts cs
  let value := (joinParts ending parts).map String.ofList
  match ending.rest with
  | .error cause => (.brokenString value cause, [])
  | .ok rest => (.scalar (.string value), rest)

/-- Reads the word that begins with a character that is no white space. -/
def token (c : Char) (cs : List Char) : Token × List Char :=
  match c with
  | '[' => (.openArray, cs)
  | ']' => (.closeArray, cs)
  | '\x7b' => (.openObject, cs)
  | '\x7d' => (.closeObject, cs)
  | ':' => (.colon, cs)
  | ',' => (.comma, cs)
  | '"' => stringToken cs
  | '-' => numberToken true cs
  | 'n' => word ['u', 'l', 'l'] .null cs
  | 't' => word ['r', 'u', 'e'] (.bool true) cs
  | 'f' => word ['a', 'l', 's', 'e'] (.bool false) cs
  | c => if c.isDigit then numberToken false (c :: cs) else (.bad .expectedValue, [])

/-- Changing what was read leaves what is still to read. -/
theorem length_of_map {α β : Type} {f : α → β} {n : Nat} {x : Except Malformed (α × List Char)}
    (hx : ∀ a rest, x = .ok (a, rest) → rest.length < n) {b : β} {rest : List Char}
    (h : (x.map fun (a, rest) => (f a, rest)) = .ok (b, rest)) : rest.length < n := by
  match x with
  | .error _ => simp [Except.map] at h
  | .ok (a, left) =>
    simp only [Except.map, Except.ok.injEq, Prod.mk.injEq] at h
    exact h.2 ▸ hx a left rfl

theorem length_stringParts {cs rest : List Char} (h : (stringParts cs).2.rest = .ok rest) :
    rest.length < cs.length := by
  fun_induction stringParts cs with
  | case2 => simp_all [StringEnd.rest]
  | case4 a b c d tail n hn ih =>
      have := ih h
      simp only [List.length_cons]
      omega
  | case5 => split at h <;> simp [StringEnd.rest] at h
  | case8 c tail _ _ _ _ ih =>
      have := ih h
      simp only [List.length_cons]
      omega
  | case10 c tail _ _ _ _ _ _ ih =>
      have := ih h
      simp only [List.length_cons]
      omega
  | _ => simp [StringEnd.rest] at h

theorem length_someDigits {cs : List Char} {digits : List Nat} {rest : List Char}
    (h : someDigits cs = .ok (digits, rest)) : rest.length < cs.length := by
  simp only [someDigits] at h
  split at h
  · simp at h
  next hsome =>
    simp only [Except.ok.injEq, Prod.mk.injEq] at h
    have hlength := congrArg List.length
      (List.takeWhile_append_dropWhile (p := Char.isDigit) (l := cs))
    rw [List.length_append, h.2] at hlength
    have : 0 < (cs.takeWhile Char.isDigit).length := by
      simpa [List.length_pos_iff] using hsome
    omega

theorem length_wholeDigits {cs : List Char} {digits : List Nat} {rest : List Char}
    (h : wholeDigits cs = .ok (digits, rest)) : rest.length < cs.length := by
  unfold wholeDigits at h
  split at h
  · split at h
    · simp at h
    · simp_all
  · exact length_someDigits h

theorem length_fractionDigits {cs : List Char} {digits : Option (List Nat)} {rest : List Char}
    (h : fractionDigits cs = .ok (digits, rest)) : rest.length ≤ cs.length := by
  unfold fractionDigits at h
  split at h
  next tail =>
    have := length_of_map (fun _ _ => length_someDigits) h
    simp only [List.length_cons]
    omega
  · simp_all

theorem length_exponentDigits {cs : List Char} {exponent : Bool × List Nat} {rest : List Char}
    (h : exponentDigits cs = .ok (exponent, rest)) : rest.length ≤ cs.length := by
  unfold exponentDigits at h
  split at h
  · have := length_of_map (fun _ _ => length_someDigits) h
    simp only [List.length_cons]
    omega
  · have := length_of_map (fun _ _ => length_someDigits) h
    simp only [List.length_cons]
    omega
  · exact Nat.le_of_lt (length_of_map (fun _ _ => length_someDigits) h)

theorem length_exponentPart {cs : List Char} {exponent : Option (Bool × List Nat)}
    {rest : List Char} (h : exponentPart cs = .ok (exponent, rest)) :
    rest.length ≤ cs.length := by
  unfold exponentPart at h
  split at h
  · have := length_of_map (fun _ _ he => Nat.lt_succ_of_le (length_exponentDigits he)) h
    simp only [List.length_cons]
    omega
  · have := length_of_map (fun _ _ he => Nat.lt_succ_of_le (length_exponentDigits he)) h
    simp only [List.length_cons]
    omega
  · simp_all

theorem length_numeral {negative : Bool} {cs : List Char} {n : Numeral} {rest : List Char}
    (h : numeral negative cs = .ok (n, rest)) : rest.length < cs.length := by
  unfold numeral at h
  match hwhole : wholeDigits cs with
  | .error _ => simp [hwhole, bind, Except.bind] at h
  | .ok (_, afterWhole) =>
    match hfraction : fractionDigits afterWhole with
    | .error _ => simp [hwhole, hfraction, bind, Except.bind] at h
    | .ok (_, afterFraction) =>
      match hexponent : exponentPart afterFraction with
      | .error _ => simp [hwhole, hfraction, hexponent, bind, Except.bind] at h
      | .ok (_, afterExponent) =>
        simp only [hwhole, hfraction, hexponent, bind, Except.bind, pure, Except.pure,
          Except.ok.injEq, Prod.mk.injEq] at h
        have := length_wholeDigits hwhole
        have := length_fractionDigits hfraction
        have := length_exponentPart hexponent
        rw [← h.2]
        omega

theorem length_word {letters cs : List Char} {value : Scalar} :
    (word letters value cs).2.length ≤ cs.length := by
  unfold word
  split
  · simp
  · split <;> simp

theorem length_numberToken {negative : Bool} {cs : List Char} :
    (numberToken negative cs).2.length ≤ cs.length - 1 := by
  unfold numberToken
  split
  · simp
  next n rest h =>
    have := length_numeral h
    split <;> (simp only; omega)

theorem length_stringToken {cs : List Char} : (stringToken cs).2.length ≤ cs.length := by
  unfold stringToken
  simp only
  split
  · simp
  next h => exact Nat.le_of_lt (length_stringParts h)

/-- A token takes at least the character that it begins with. -/
theorem length_token {c : Char} {cs : List Char} : (token c cs).2.length ≤ cs.length := by
  have hnumber : (numberToken true cs).2.length ≤ cs.length :=
    Nat.le_trans length_numberToken (Nat.sub_le _ _)
  have hdigit : (numberToken false (c :: cs)).2.length ≤ cs.length := length_numberToken
  unfold token
  split <;> try simp [length_stringToken, length_word, hnumber]
  split <;> simp [hdigit]

/-- The tokens of a text. After a bad token nothing is read. -/
def tokens (cs : List Char) : List Token :=
  match _h : cs.dropWhile isSpace with
  | [] => []
  | c :: rest => (token c rest).1 :: tokens (token c rest).2
termination_by cs.length
decreasing_by
  have hlength := (List.dropWhile_sublist isSpace (l := cs)).length_le
  rw [_h, List.length_cons] at hlength
  have := @length_token c rest
  omega

end Dataflow.Json

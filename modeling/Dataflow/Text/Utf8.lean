/-! # Bytes read as UTF-8

Every maximal part of the bytes that begins no well-formed sequence is read as one replacement
character: a byte that cannot follow ends the sequence before it and is looked at again.
-/

namespace Dataflow.Text

/-- U+FFFD, written for what is no text. -/
def replacement : Char := '\uFFFD'

/-- A sequence that has begun: the bits so far, how many bytes are owed, and the least and the
greatest byte that may come next. -/
structure Pending where
  bits : Nat
  owed : Nat
  least : UInt8
  greatest : UInt8

/-- What a byte between sequences gives: a character, a replacement, or the start of a sequence. -/
def firstByte (b : UInt8) : List Char × Option Pending :=
  let n := b.toNat
  if b ≤ 0x7F then ([Char.ofNat n], none)
  else if 0xC2 ≤ b && b ≤ 0xDF then ([], some ⟨n - 0xC0, 1, 0x80, 0xBF⟩)
  else if b == 0xE0 then ([], some ⟨0, 2, 0xA0, 0xBF⟩)
  else if b == 0xED then ([], some ⟨0xD, 2, 0x80, 0x9F⟩)
  else if 0xE1 ≤ b && b ≤ 0xEF then ([], some ⟨n - 0xE0, 2, 0x80, 0xBF⟩)
  else if b == 0xF0 then ([], some ⟨0, 3, 0x90, 0xBF⟩)
  else if 0xF1 ≤ b && b ≤ 0xF3 then ([], some ⟨n - 0xF0, 3, 0x80, 0xBF⟩)
  else if b == 0xF4 then ([], some ⟨4, 3, 0x80, 0x8F⟩)
  else ([replacement], none)

/-- The characters of the bytes that follow what has begun. -/
def decodeAfter : Option Pending → List UInt8 → List Char
  | none, [] => []
  | some _, [] => [replacement]
  | none, b :: bytes =>
    (firstByte b).1 ++ decodeAfter (firstByte b).2 bytes
  | some p, b :: bytes =>
    if p.least ≤ b && b ≤ p.greatest then
      let bits := p.bits * 64 + (b.toNat - 0x80)
      if p.owed ≤ 1 then Char.ofNat bits :: decodeAfter none bytes
      else decodeAfter (some ⟨bits, p.owed - 1, 0x80, 0xBF⟩) bytes
    else replacement :: (firstByte b).1 ++ decodeAfter (firstByte b).2 bytes

/-- The text of a sequence of bytes. -/
def decode (bytes : List UInt8) : String :=
  String.ofList (decodeAfter none bytes)

end Dataflow.Text

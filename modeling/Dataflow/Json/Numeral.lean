import Dataflow.Decimal.Shortest
import Dataflow.Json.Basic

/-! # The text of numbers

A numeral is a number as it stands in a text. An integer that fits 64 bits is itself. Everything
else is a fraction: as many leading digits as fit 64 bits, scaled by a power of ten in binary
arithmetic, so a numeral of many digits may be read one unit away from the nearest fraction.
-/

namespace Dataflow.Json

/-- A number as it is spelled: digits are their values. -/
structure Numeral where
  negative : Bool
  whole : List Nat
  fraction : Option (List Nat)
  exponent : Option (Bool × List Nat)
  deriving DecidableEq, Repr

/-- The number that a list of digits spells. -/
def ofDigits (digits : List Nat) : Nat :=
  digits.foldl (fun n d => n * 10 + d) 0

/-- Appends digits to a number as long as it stays below `2 ^ 64`; the other digits are left. -/
def absorb (n : Nat) : List Nat → Nat × List Nat
  | [] => (n, [])
  | d :: digits =>
    if n * 10 + d < UInt64.size then absorb (n * 10 + d) digits else (n, d :: digits)

/-- The power of ten that is nearest to `10 ^ n`. -/
def powerOfTen (n : Nat) : Float :=
  Float.ofScientific 1 false n

/-- A fraction times a power of ten, or nothing when it grows out of range. Exponents below -308
are applied in steps of 308. -/
def scale? (f : Float) (exponent : Int) : Option Float :=
  if 308 < exponent then
    if f == 0 then some f else none
  else if 0 ≤ exponent then
    let scaled := f * powerOfTen exponent.toNat
    if scaled.isInf then none else some scaled
  else if -308 ≤ exponent then some (f / powerOfTen exponent.natAbs)
  else if f == 0 then some f
  else scale? (f / powerOfTen 308) (exponent + 308)
termination_by exponent.natAbs
decreasing_by omega

namespace Numeral

/-- The exponent that is spelled behind the digits, zero if there is none. -/
def tenExponent (n : Numeral) : Int :=
  match n.exponent with
  | none => 0
  | some (true, digits) => -(ofDigits digits : Int)
  | some (false, digits) => ofDigits digits

/-- The fraction that a numeral spells, or nothing when it is out of range. -/
def toFloat? (n : Numeral) : Option Float :=
  let (leading, dropped) := absorb 0 n.whole
  let fraction := n.fraction.getD []
  let (leading, rest) := absorb leading fraction
  let taken := fraction.length - rest.length
  (scale? (UInt64.ofNat leading).toFloat (n.tenExponent + dropped.length - taken)).map
    fun f => if n.negative then -f else f

/-- The number that a numeral spells, or nothing when it is out of range. There is no negative
zero among the integers, so `-0` is a fraction. -/
def toNumber? (n : Numeral) : Option Number :=
  match n.fraction, n.exponent, absorb 0 n.whole with
  | none, none, (value, []) =>
    if n.negative then
      if h : 0 < value ∧ value ≤ Nat.pow 2 63 then some (.negative ⟨value - 1, by omega⟩)
      else some (.float (-(UInt64.ofNat value).toFloat))
    else some (.natural (UInt64.ofNat value))
  | _, _, _ => n.toFloat?.map .float

end Numeral

/-- Fractions are written with a point from `0.00001` up to sixteen digits before it, else with a
signed exponent. -/
def floatStyle : Decimal.Style := ⟨-5, 15, 'e', true⟩

/-- The shortest text of a fraction that reads back; there is none for what is not finite. -/
def floatText (f : Float) : String :=
  if f.isNaN || f.isInf then "null"
  else
    let bits := f.toBits
    let sign := if bits.toNat / Nat.pow 2 63 = 1 then ['-'] else []
    let (mantissa, exponent, closerBelow) := Decimal.binaryParts bits
    let digits :=
      if mantissa = 0 then ['0', '.', '0']
      else (Decimal.shortest mantissa exponent closerBelow).write floatStyle
    String.ofList (sign ++ digits)

/-- The text of a number. -/
def Number.text : Number → String
  | .natural value => toString value.toNat
  | .negative below => "-" ++ toString (below.val + 1)
  | .float value => floatText value

end Dataflow.Json

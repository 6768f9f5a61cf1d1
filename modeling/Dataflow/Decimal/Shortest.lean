/-! # Shortest decimals of binary numbers

A binary number stands for every real that rounds to it. Among the decimals in that interval the
shortest is chosen, of two equally short ones the nearer, and of two equally near ones the even
one. Everything is exact arithmetic on natural numbers.
-/

namespace Dataflow

/-- The number `digits · 10 ^ exponent`. -/
structure Decimal where
  digits : Nat
  exponent : Int
  deriving DecidableEq, Repr

namespace Decimal

/-- The decimal digits of a number, the most significant first. -/
def digitsOf (n : Nat) : List Char :=
  Nat.toDigits 10 n

/-- A positive real between its two bounds, all three over one denominator. The bounds belong to
the interval when `closed` holds. -/
structure Interval where
  low : Nat
  value : Nat
  high : Nat
  denominator : Nat
  closed : Bool

/-- The reals that round to `mantissa · 2 ^ exponent`. Half a unit is allowed on both sides, but
only a quarter below a power of two, where the numbers stand twice as close. -/
def Interval.ofBinary (mantissa : Nat) (exponent : Int) (closerBelow : Bool) : Interval :=
  let scale := Nat.pow 2 (exponent - 2).toNat
  { low := (4 * mantissa - if closerBelow then 1 else 2) * scale
    value := 4 * mantissa * scale
    high := (4 * mantissa + 2) * scale
    denominator := Nat.pow 2 (2 - exponent).toNat
    closed := mantissa % 2 == 0 }

/-- The exponent of the first significant digit of a positive fraction. -/
def leadingExponent (numerator denominator : Nat) : Int :=
  if denominator ≤ numerator then ((digitsOf (numerator / denominator)).length : Int) - 1
  else -((digitsOf ((denominator - 1) / numerator)).length : Int)

/-- The better of the two multiples of `10 ^ exponent` around the value, if one lies in the
interval. -/
def Interval.onGrid? (i : Interval) (exponent : Int) : Option Nat :=
  let up := Nat.pow 10 (-exponent).toNat
  let step := i.denominator * Nat.pow 10 exponent.toNat
  let below := i.value * up / step
  let within (n : Nat) : Bool :=
    if i.closed then i.low * up ≤ n * step && n * step ≤ i.high * up
    else i.low * up < n * step && n * step < i.high * up
  let toBelow := i.value * up - below * step
  let toAbove := (below + 1) * step - i.value * up
  match within below, within (below + 1) with
  | true, true =>
    some (if toBelow < toAbove || (toBelow == toAbove && below % 2 == 0) then below else below + 1)
  | true, false => some below
  | false, true => some (below + 1)
  | false, false => none

/-- The first grid that meets the interval, from `count` digits on; at most `more` are tried. -/
def Interval.search (i : Interval) (leading : Int) : Nat → Nat → Decimal
  | _, 0 => ⟨i.value / i.denominator, 0⟩
  | count, more + 1 =>
    let exponent := leading - count
    match i.onGrid? exponent with
    | some n => ⟨n, exponent⟩
    | none => i.search leading (count + 1) more

/-- The shortest decimal of a positive binary number. Seventeen digits always suffice for a
mantissa of 53 bits. -/
def shortest (mantissa : Nat) (exponent : Int) (closerBelow : Bool) : Decimal :=
  let i := Interval.ofBinary mantissa exponent closerBelow
  i.search (leadingExponent i.value i.denominator) 0 17

/-- Mantissa and binary exponent of the finite number with the given bits, and whether the next
smaller number is closer than the next greater one. -/
def binaryParts (bits : UInt64) : Nat × Int × Bool :=
  let fraction : Nat := bits.toNat % Nat.pow 2 52
  let biased : Nat := bits.toNat / Nat.pow 2 52 % Nat.pow 2 11
  if biased = 0 then (fraction, -1074, false)
  else (Nat.pow 2 52 + fraction, (biased : Int) - 1075, fraction == 0 && biased != 1)

/-- The significant digits of a decimal, without zeros at the end. -/
def significant (d : Decimal) : List Char :=
  ((digitsOf d.digits).reverse.dropWhile (· = '0')).reverse

/-- The exponent of the first digit of a decimal. -/
def leading (d : Decimal) : Int :=
  d.exponent + (digitsOf d.digits).length - 1

/-- When a decimal is written with a point among its digits, and how its exponent is written when
it is not. -/
structure Style where
  leastPositional : Int
  greatestPositional : Int
  mark : Char
  plus : Bool

/-- The digits of a decimal in a given style; an integer written with a point keeps one zero
behind it. -/
def write (style : Style) (d : Decimal) : List Char :=
  let digits := d.significant
  let leading := d.leading
  if style.leastPositional ≤ leading ∧ leading ≤ style.greatestPositional then
    if leading < 0 then
      '0' :: '.' :: List.replicate (-leading - 1).toNat '0' ++ digits
    else
      let whole := leading.toNat + 1
      let fraction := digits.drop whole
      digits.take whole ++ List.replicate (whole - digits.length) '0' ++
        '.' :: if fraction.isEmpty then ['0'] else fraction
  else
    let fraction := digits.drop 1
    digits.take 1 ++ (if fraction.isEmpty then [] else '.' :: fraction) ++ style.mark ::
      (if leading < 0 then ['-'] else if style.plus then ['+'] else []) ++
      digitsOf leading.natAbs

end Decimal

end Dataflow

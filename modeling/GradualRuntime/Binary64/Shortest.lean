import GradualRuntime.Binary64

/-!
# The shortest decimal that reads back

Every positive finite word owns an interval of reals, those that round to it. Among the decimals
`d · 10 ^ k` in that interval `shortestDecimal` takes one with the fewest digits, and of those the
one nearest to the word's own value; of two equally near ones it takes the larger.

The search walks over digit counts. With `n` digits the candidates are the two neighbours of the
value on the grid `10 ^ k` whose step gives `n` digits (`neighbour?`); the first grid with a
candidate inside the interval wins. All comparisons are between natural numbers, so the answer is
exact. Seventeen digits always suffice for this format.

`text` writes the result positionally, whatever its size: no exponent, no trailing zero after the
point, and no point when the value is an integer.
-/

set_option autoImplicit false

namespace GradualRuntime

/-- A positive decimal `digits · 10 ^ exponent`. -/
structure Decimal where
  digits : Nat
  exponent : Int
  deriving DecidableEq, Repr

/-- The reals that round to a positive word, with everything counted over one denominator: the
value is `value / denominator`, and the interval runs from `low` to `high`. -/
structure RoundingInterval where
  low : Nat
  value : Nat
  high : Nat
  denominator : Nat
  /-- Whether the two ends themselves round to the word. -/
  closed : Bool

namespace RoundingInterval

/-- Whether `numerator / divisor` lies in the interval. -/
def contains (interval : RoundingInterval) (numerator divisor : Nat) : Bool :=
  let scaled := numerator * interval.denominator
  if interval.closed then
    decide (interval.low * divisor ≤ scaled ∧ scaled ≤ interval.high * divisor)
  else
    decide (interval.low * divisor < scaled ∧ scaled < interval.high * divisor)

/-- The number of decimal digits of a natural number. -/
def digitCount (number : Nat) : Nat := (Nat.toDigits 10 number).length

/-- The power of ten of the leading digit of the value: the `p` with
`10 ^ p ≤ value < 10 ^ (p + 1)`. -/
def leadingExponent (interval : RoundingInterval) : Int :=
  if interval.denominator ≤ interval.value then
    (digitCount (interval.value / interval.denominator) : Int) - 1
  else
    let places := digitCount (interval.denominator / interval.value)
    if interval.denominator ≤ interval.value * tenTo (places - 1) then
      1 - (places : Int)
    else
      -(places : Int)

/-- The best candidate with `count` digits: of the two neighbours of the value on the grid the one
inside the interval, and the nearer when both are. -/
def neighbour? (interval : RoundingInterval) (count : Nat) : Option Decimal :=
  let exponent := interval.leadingExponent - (count : Int) + 1
  let step := tenTo exponent.toNat
  let divisor := tenTo (-exponent).toNat
  let below := interval.value * divisor / (interval.denominator * step)
  let excess := interval.value * divisor % (interval.denominator * step)
  let belowFits := interval.contains (below * step) divisor
  let aboveFits := interval.contains ((below + 1) * step) divisor
  let belowIsNearer := decide (2 * excess < interval.denominator * step)
  if belowFits && (belowIsNearer || !aboveFits) then some ⟨below, exponent⟩
  else if aboveFits then some ⟨below + 1, exponent⟩
  else none

/-- The first digit count from `count` on, among `remaining` many, whose grid has a candidate. -/
def search (interval : RoundingInterval) : Nat → Nat → Option Decimal
  | 0, _ => none
  | remaining + 1, count =>
    match interval.neighbour? count with
    | some decimal => some decimal
    | none => interval.search remaining (count + 1)

end RoundingInterval

namespace Binary64

/-- The reals that round to a positive finite word. The gap below a power of two is half the gap
above it, save at the bottom of the range; the ends belong to the words with an even significand. -/
def roundingInterval (number : Binary64) : RoundingInterval where
  low :=
    if number.fraction = 0 ∧ 1 < number.exponentField then
      4 * number.units - twoTo number.scale
    else
      4 * number.units - 2 * twoTo number.scale
  value := 4 * number.units
  high := 4 * number.units + 2 * twoTo number.scale
  denominator := 4 * unitsPerOne
  closed := decide (number.significand % 2 = 0)

/-- The fewest digits that read back to a positive finite word. -/
def shortestDecimal (number : Binary64) : Decimal :=
  (number.roundingInterval.search 17 1).getD ⟨0, 0⟩

end Binary64

namespace Decimal

/-- The digits of a decimal without trailing zeros. -/
def significantDigits (decimal : Decimal) : List Char :=
  ((Nat.toDigits 10 decimal.digits).reverse.dropWhile (· = '0')).reverse

/-- Positional notation: no exponent, and a point only before a fractional part. -/
def positional (decimal : Decimal) : String :=
  let shown := decimal.significantDigits
  let pointAt : Int := ((Nat.toDigits 10 decimal.digits).length : Int) + decimal.exponent
  if pointAt ≤ 0 then
    String.ofList ('0' :: '.' :: List.replicate (-pointAt).toNat '0' ++ shown)
  else if shown.length ≤ pointAt.toNat then
    String.ofList (shown ++ List.replicate (pointAt.toNat - shown.length) '0')
  else
    String.ofList (shown.take pointAt.toNat ++ '.' :: shown.drop pointAt.toNat)

end Decimal

namespace Binary64

/-- The text of a word. A word that is not a number shows neither sign nor payload. -/
def text (number : Binary64) : String :=
  if number.isNaN then "NaN"
  else
    let mark := if number.isNegative then "-" else ""
    if !number.isFinite then mark ++ "inf"
    else if number.isZero then mark ++ "0"
    else mark ++ number.shortestDecimal.positional

end Binary64

end GradualRuntime

/-!
# Binary floating-point words

A `Binary64` is a 64-bit word read as a double-precision number: a sign, eleven bits of exponent
and fifty-two bits of fraction. The word itself is the value, so the payload and the sign of a
not-a-number and the sign of zero are kept.

A finite word denotes `± units / 2 ^ 1074`, where `units` is a natural number: the magnitude counted
in steps of the smallest positive number (`units`). On this view the numeric facts are facts about
natural numbers. `numericallyEqual` is comparison as numbers (both zeros are equal and a
not-a-number equals nothing), and `exactInteger?` is the integer that a word denotes exactly, as
far as 64-bit integers reach.
-/

set_option autoImplicit false

namespace GradualRuntime

/-- A power of two. -/
def twoTo (exponent : Nat) : Nat := Nat.pow 2 exponent

/-- A power of ten. -/
def tenTo (exponent : Nat) : Nat := Nat.pow 10 exponent

/-- Whether an integer has a 64-bit representation. -/
def fitsInt64 (value : Int) : Prop := -(twoTo 63 : Int) ≤ value ∧ value < (twoTo 63 : Int)

instance (value : Int) : Decidable (fitsInt64 value) := inferInstanceAs (Decidable (_ ∧ _))

/-- A double-precision word. -/
structure Binary64 where
  bits : UInt64
  deriving DecidableEq, Inhabited

namespace Binary64

/-- The word as a natural number below `2 ^ 64`. -/
def code (number : Binary64) : Nat := number.bits.toNat

/-- The sign bit. -/
def isNegative (number : Binary64) : Bool := decide (twoTo 63 ≤ number.code)

/-- The eleven exponent bits. -/
def exponentField (number : Binary64) : Nat := number.code / twoTo 52 % twoTo 11

/-- The fifty-two fraction bits. -/
def fraction (number : Binary64) : Nat := number.code % twoTo 52

/-- An exponent of ones marks infinities and the words that are not numbers. -/
def isFinite (number : Binary64) : Bool := decide (number.exponentField ≠ 2047)

/-- Not a number. -/
def isNaN (number : Binary64) : Bool :=
  decide (number.exponentField = 2047 ∧ number.fraction ≠ 0)

/-- Positive or negative zero. -/
def isZero (number : Binary64) : Bool :=
  decide (number.exponentField = 0 ∧ number.fraction = 0)

/-- The fraction with its leading bit, which subnormal numbers lack. -/
def significand (number : Binary64) : Nat :=
  if number.exponentField = 0 then number.fraction else twoTo 52 + number.fraction

/-- The power of two that one step of the significand counts for, in units of `2 ^ (-1074)`. -/
def scale (number : Binary64) : Nat := number.exponentField - 1

/-- The magnitude of a finite word in units of `2 ^ (-1074)`. -/
def units (number : Binary64) : Nat := number.significand * twoTo number.scale

/-- How many units make one. -/
def unitsPerOne : Nat := twoTo 1074

/-- Comparison as numbers: the two zeros are equal, and a word that is not a number equals nothing,
itself included. -/
def numericallyEqual (left right : Binary64) : Bool :=
  !left.isNaN && !right.isNaN && (left == right || (left.isZero && right.isZero))

/-- The 64-bit integer that a word denotes exactly, if there is one. Both zeros denote `0`; the
range is `-2 ^ 63 ≤ n < 2 ^ 63`. -/
def exactInteger? (number : Binary64) : Option Int64 :=
  if number.isFinite ∧ number.units % unitsPerOne = 0 then
    let magnitude : Int := (number.units / unitsPerOne : Nat)
    let value := if number.isNegative then -magnitude else magnitude
    if fitsInt64 value then some (Int64.ofInt value) else none
  else none

end Binary64

end GradualRuntime

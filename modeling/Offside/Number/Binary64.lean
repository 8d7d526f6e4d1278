import Offside.Number.Decimal

/-!
# Binary floating point numbers of 64 bits

The numbers that a decimal numeral can round to: a sign, a significand below `2 ^ 53` and a power of
two not below `-1074`, or an infinity. Rounding is to nearest, ties to the even significand, and is
done in exact arithmetic.
-/

namespace Offside

namespace Number

/-- A floating point number of 64 bits, not a NaN. -/
inductive Binary64
  /-- The number `± significand · 2 ^ exponent`. -/
  | finite (negative : Bool) (significand : Nat) (exponent : Int)
  /-- What is too large for the format. -/
  | infinite (negative : Bool)
deriving DecidableEq, Repr

namespace Binary64

/-- The least power of two that scales a significand. -/
def leastExponent : Int := -1074

/-- The greatest power of two that scales a significand. -/
def greatestExponent : Int := 971

/-- The whole number nearest to a quotient; of two, the even one. -/
def roundQuotient (numerator denominator : Nat) : Nat :=
  let quotient := numerator / denominator
  let twice := 2 * (numerator % denominator)
  if denominator < twice || (denominator = twice && quotient % 2 = 1) then quotient + 1
  else quotient

/-- A quotient divided by `2 ^ exponent`, as a fraction. -/
def scaled (numerator denominator : Nat) (exponent : Int) : Nat × Nat :=
  if 0 ≤ exponent then (numerator, denominator * Nat.pow 2 exponent.toNat)
  else (numerator * Nat.pow 2 (-exponent).toNat, denominator)

/-- The number nearest to `± numerator / denominator`. -/
def ofQuotient (negative : Bool) (numerator denominator : Nat) : Binary64 :=
  let estimate := (numerator.log2 : Int) - denominator.log2 - 53
  let low := max estimate leastExponent
  let (top, bottom) := scaled numerator denominator low
  let exponent := if top / bottom < Nat.pow 2 53 then low else low + 1
  let (top, bottom) := scaled numerator denominator exponent
  let significand := roundQuotient top bottom
  let (significand, exponent) :=
    if significand < Nat.pow 2 53 then (significand, exponent)
    else (Nat.pow 2 52, exponent + 1)
  if greatestExponent < exponent then .infinite negative
  else .finite negative significand exponent

/-- The number nearest to a decimal, which may be far outside the range. -/
def ofDecimal (decimal : Decimal) : Binary64 :=
  let magnitude := (Nat.toDigits 10 decimal.digits).length + decimal.exponent
  if decimal.digits = 0 || magnitude < -400 then .finite decimal.negative 0 leastExponent
  else if 400 < magnitude then .infinite decimal.negative
  else if 0 ≤ decimal.exponent then
    ofQuotient decimal.negative (decimal.digits * Nat.pow 10 decimal.exponent.toNat) 1
  else ofQuotient decimal.negative decimal.digits (Nat.pow 10 (-decimal.exponent).toNat)

end Binary64

end Number

end Offside

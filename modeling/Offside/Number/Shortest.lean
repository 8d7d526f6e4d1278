import Offside.Number.Binary64

/-!
# The shortest decimal that reads back

A floating point number is shown with the fewest decimal digits that round back to it; of several
such decimals the nearest is shown, and of two equally near ones the larger.
-/

namespace Offside

namespace Number

namespace Shortest

/-- The reals that round to one positive number, as fractions over one denominator. -/
structure Interval where
  low : Nat
  value : Nat
  high : Nat
  denominator : Nat
  /-- Whether the ends belong to the interval. -/
  closed : Bool
deriving DecidableEq, Repr

/-- The interval that rounds to `significand · 2 ^ exponent`; below a binade the grid is finer. -/
def Interval.around (significand : Nat) (exponent : Int) : Interval :=
  let unit := if 0 ≤ exponent then Nat.pow 2 exponent.toNat else 1
  let denominator := if 0 ≤ exponent then 4 else 4 * Nat.pow 2 (-exponent).toNat
  let finer := significand = Nat.pow 2 52 && Binary64.leastExponent < exponent
  { low := (4 * significand - (if finer then 1 else 2)) * unit
    value := 4 * significand * unit
    high := (4 * significand + 2) * unit
    denominator
    closed := significand % 2 = 0 }

/-- Whether `numerator / denominator` lies in the interval. -/
def Interval.contains (interval : Interval) (numerator denominator : Nat) : Bool :=
  let point := numerator * interval.denominator
  let low := interval.low * denominator
  let high := interval.high * denominator
  if interval.closed then low ≤ point && point ≤ high else low < point && point < high

/-- The nearest multiple of `10 ^ exponent` in the interval; of two, the larger. -/
def Interval.onGrid? (interval : Interval) (exponent : Int) : Option Nat :=
  let step := if 0 ≤ exponent then Nat.pow 10 exponent.toNat else 1
  let parts := if 0 ≤ exponent then 1 else Nat.pow 10 (-exponent).toNat
  let below := interval.value * parts / (interval.denominator * step)
  let above := below + 1
  let hitsBelow := interval.contains (below * step) parts
  let hitsAbove := interval.contains (above * step) parts
  let nearerBelow :=
    2 * interval.value * parts < (below + above) * interval.denominator * step
  if hitsBelow && (!hitsAbove || nearerBelow) then some below
  else if hitsAbove then some above
  else none

/-- The power of ten of the leading digit of a positive fraction. -/
def leadingPower (numerator denominator : Nat) : Int :=
  (Nat.toDigits 10 (numerator * Nat.pow 10 400 / denominator)).length - 401

/-- The first decimal in the interval, by counts of digits in order. -/
def Interval.search (interval : Interval) (leading : Int) : List Nat → Nat × Int
  | [] => (0, 0)
  | count :: counts =>
      let exponent := leading + 1 - count
      match interval.onGrid? exponent with
      | some factor => (factor, exponent)
      | none => interval.search leading counts

/-- Drops the trailing zeros of digits that are not all zeros. -/
def trim (digits : List Char) : List Char :=
  (digits.reverse.dropWhile (· = '0')).reverse

/-- The shortest digits of `significand · 2 ^ exponent`, and the power of ten of the first. -/
def digits (significand : Nat) (exponent : Int) : List Char × Int :=
  let interval := Interval.around significand exponent
  let leading := leadingPower interval.value interval.denominator
  let (factor, power) := interval.search leading ((List.range 17).map (· + 1))
  let written := Nat.toDigits 10 factor
  (trim written, power + written.length - 1)

/-- How a number is laid out once its digits are known. -/
structure Layout where
  /-- The least power of ten that is written positionally. -/
  leastPositional : Int
  /-- The least power of ten above them that is written with an exponent. -/
  leastScientific : Int
deriving DecidableEq, Repr

/-- Numbers from `0.0001` up to `10 ^ 16` are written positionally. -/
def Layout.standard : Layout := ⟨-4, 16⟩

/-- Digits written positionally, the first at a power of ten. -/
def positional (digits : List Char) (power : Int) : String :=
  if power < 0 then
    "0." ++ String.ofList (List.replicate ((-power).toNat - 1) '0' ++ digits)
  else
    let count := power.toNat + 1
    let whole := digits.take count ++ List.replicate (count - digits.length) '0'
    let fraction := digits.drop count
    String.ofList whole ++ "." ++ String.ofList (if fraction.isEmpty then ['0'] else fraction)

/-- Digits written with an exponent, the first at a power of ten. -/
def scientific (digits : List Char) (power : Int) : String :=
  let mantissa := match digits with
    | [] => ""
    | [digit] => digit.toString
    | digit :: rest => digit.toString ++ "." ++ String.ofList rest
  mantissa ++ "e" ++ toString power

end Shortest

namespace Binary64

/-- The minus sign of a negative number. -/
def signText (negative : Bool) : String := if negative then "-" else ""

/-- The text of a number under a layout. -/
def render (layout : Shortest.Layout) : Binary64 → String
  | .infinite negative => signText negative ++ "inf"
  | .finite negative significand exponent =>
      if significand = 0 then signText negative ++ "0.0"
      else
        let (digits, power) := Shortest.digits significand exponent
        let body :=
          if layout.leastPositional ≤ power && power < layout.leastScientific then
            Shortest.positional digits power
          else Shortest.scientific digits power
        signText negative ++ body

/-- The text of a number in dumps and in generated code. -/
def text (number : Binary64) : String := number.render .standard

end Binary64

end Number

end Offside

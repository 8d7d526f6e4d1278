/-!
# Decimal numerals

Reading of signed decimal numerals, whole ones and ones with a point. A numeral with a point is kept
as an exact decimal; rounding it is the business of the number format that takes it.
-/

namespace Offside

namespace Number

/-- The value of a list of decimal digits, most significant first. -/
def digitsValue (digits : List Char) : Nat :=
  digits.foldl (fun value digit => 10 * value + (digit.toNat - '0'.toNat)) 0

/-- The value of a non-empty list that holds digits only. -/
def natural? (digits : List Char) : Option Nat :=
  if digits.isEmpty || digits.any (!·.isDigit) then none else some (digitsValue digits)

/-- An optional sign, `true` for minus, and what follows it. -/
def splitSign : List Char → Bool × List Char
  | '-' :: rest => (true, rest)
  | '+' :: rest => (false, rest)
  | chars => (false, chars)

/-- A whole number with an optional sign. -/
def whole? (text : String) : Option Int :=
  let (negative, digits) := splitSign text.toList
  (natural? digits).map fun value => if negative then -(value : Int) else value

/-- A whole number that fits in 64 bits with a sign. -/
def int64? (text : String) : Option Int :=
  (whole? text).filter fun value => -9223372036854775808 ≤ value && value ≤ 9223372036854775807

/-- A whole number without a minus sign, of 64 bits. -/
def size? (text : String) : Option Nat :=
  let digits := match text.toList with
    | '+' :: rest => rest
    | chars => chars
  (natural? digits).filter (· ≤ 18446744073709551615)

/-- The exact decimal number `± digits · 10 ^ exponent`. -/
structure Decimal where
  negative : Bool
  digits : Nat
  exponent : Int
deriving DecidableEq, Repr

namespace Decimal

/-- The power of ten written after an exponent mark. -/
def exponent? : List Char → Option Int
  | [] => some 0
  | mark :: rest =>
      if mark = 'e' || mark = 'E' then
        let (negative, digits) := splitSign rest
        (natural? digits).map fun value => if negative then -(value : Int) else value
      else none

/-- Reads an optional sign, digits around an optional point, and an optional exponent. -/
def parse? (text : String) : Option Decimal :=
  let (negative, unsigned) := splitSign text.toList
  let whole := unsigned.takeWhile Char.isDigit
  let afterWhole := unsigned.dropWhile Char.isDigit
  let (fraction, tail) := match afterWhole with
    | '.' :: rest => (rest.takeWhile Char.isDigit, rest.dropWhile Char.isDigit)
    | rest => ([], rest)
  if whole.isEmpty && fraction.isEmpty then none
  else (exponent? tail).map fun power =>
    ⟨negative, digitsValue (whole ++ fraction), power - fraction.length⟩

end Decimal

end Number

end Offside

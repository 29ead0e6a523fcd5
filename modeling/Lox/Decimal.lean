/-!
Decimal numbers `digits * 10 ^ exponent` and the binary64 number each of them reads as. Reading
goes through the reduced form, so it depends on the number alone and not on how it is written.
-/

set_option autoImplicit false

namespace Lox

/-- The number `digits * 10 ^ exponent`. -/
structure Decimal where
  digits : Nat
  exponent : Int
  deriving DecidableEq, Inhabited

namespace Decimal

/-- The same number with no final zero among its digits; zero itself has exponent 0. -/
def reduced (decimal : Decimal) : Decimal :=
  if decimal.digits = 0 then ⟨0, 0⟩
  else if decimal.digits % 10 = 0 then reduced ⟨decimal.digits / 10, decimal.exponent + 1⟩
  else decimal
termination_by decimal.digits
decreasing_by omega

/-- The binary64 number nearest to a decimal, a tie going to the even one. -/
def toFloat (decimal : Decimal) : Float :=
  let reduced := decimal.reduced
  Float.ofScientific reduced.digits (reduced.exponent < 0) reduced.exponent.natAbs

/-- The digits `0` to `9`, the only ones that write a number. -/
def isDigit (char : Char) : Bool :=
  '0' ≤ char && char ≤ '9'

/-- The number that a run of digits writes. -/
def natOfDigits (digits : List Char) : Nat :=
  digits.foldl (fun total digit => 10 * total + (digit.toNat - '0'.toNat)) 0

/-- The digits that write a number, with no leading zero but for zero itself. -/
def digitsOfNat (number : Nat) : List Char :=
  Nat.toDigits 10 number

/-- The number written `whole.fraction`. -/
def ofDigits (whole fraction : List Char) : Decimal :=
  ⟨natOfDigits (whole ++ fraction), -(fraction.length : Int)⟩

/-- The exponent of the leading digit: `3` for `1234`, `-2` for `0.012`. -/
def magnitude (decimal : Decimal) : Int :=
  (digitsOfNat decimal.digits).length - 1 + decimal.exponent

/-- The digits before and after the point when a decimal is written without an exponent. There
is at least one before it, and none after it for a whole number with exponent 0 or more. -/
def positional (decimal : Decimal) : List Char × List Char :=
  let digits := digitsOfNat decimal.digits
  let places := (-decimal.exponent).toNat
  let padded := List.replicate (places + 1 - digits.length) '0' ++ digits
    ++ List.replicate decimal.exponent.toNat '0'
  padded.splitAt (padded.length - places)

end Decimal

end Lox

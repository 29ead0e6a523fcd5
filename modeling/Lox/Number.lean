import Lox.Decimal.Shortest

/-!
Numbers as text. A style fixes how the digits of the shortest decimal are laid out; the language
has two, one for what a program prints and one for dumps. Reading accepts both and more.
-/

set_option autoImplicit false

namespace Lox.Number

/-- The decisions that lay out a number as text. -/
structure Style where
  /-- What follows a whole number that is written without an exponent. -/
  wholeEnding : String
  /-- Whether a number whose leading digit has this exponent is written without one. -/
  isPositional : Int → Bool
  nan : String
  infinity : String

/-- What a program prints: never an exponent, and no point in a whole number. -/
def Style.shown : Style where
  wholeEnding := ""
  isPositional _ := true
  nan := "NaN"
  infinity := "Infinity"

/-- What a dump shows: always a point or an exponent, the latter below `10 ^ -4` and from
`10 ^ 16` on. -/
def Style.dumped : Style where
  wholeEnding := ".0"
  isPositional magnitude := -4 ≤ magnitude && magnitude < 16
  nan := "nan"
  infinity := "inf"

/-- An exponent with its sign and at least two digits. -/
def exponentText (exponent : Int) : String :=
  let digits := Decimal.digitsOfNat exponent.natAbs
  let padded := List.replicate (2 - digits.length) '0' ++ digits
  (if exponent < 0 then "e-" else "e+") ++ String.ofList padded

/-- A decimal laid out in a style. -/
def Style.layOut (style : Style) (decimal : Decimal) : String :=
  if style.isPositional decimal.magnitude then
    match decimal.positional with
    | (whole, []) => String.ofList whole ++ style.wholeEnding
    | (whole, fraction) => String.ofList (whole ++ '.' :: fraction)
  else
    match Decimal.digitsOfNat decimal.digits with
    | first :: second :: rest =>
      String.ofList (first :: '.' :: second :: rest) ++ exponentText decimal.magnitude
    | digits => String.ofList digits ++ exponentText decimal.magnitude

def nan : Float :=
  .ofBits 0x7ff8000000000000

def infinity : Float :=
  .ofBits 0x7ff0000000000000

/-- Whether the sign bit is set; it is for the negative zero. -/
def isNegative (number : Float) : Bool :=
  number.toBits ≥ 0x8000000000000000

/-- A number as text. The sign is shown for the negative zero too, but never for NaN. -/
def Style.write (style : Style) (number : Float) : String :=
  if number.isNaN then style.nan
  else
    let size := if number.isInf then style.infinity else style.layOut (.shortest number)
    if isNegative number then "-" ++ size else size

/-- Splits a text at the first character that satisfies a test, dropping that character. -/
def splitAtFirst (isMark : Char → Bool) (text : List Char) : List Char × Option (List Char) :=
  match text.dropWhile (!isMark ·) with
  | [] => (text, none)
  | _ :: rest => (text.takeWhile (!isMark ·), some rest)

/-- Reads a run of digits, which may be empty, with an optional sign. -/
def readExponent? (text : List Char) : Option Int :=
  let (negative, digits) := match text with
    | '-' :: rest => (true, rest)
    | '+' :: rest => (false, rest)
    | rest => (false, rest)
  if digits.isEmpty || !digits.all Decimal.isDigit then none
  else
    let size : Int := Decimal.natOfDigits digits
    some (if negative then -size else size)

/-- Reads a decimal without a sign: digits, an optional fraction, an optional exponent. -/
def readDecimal? (text : List Char) : Option Decimal := do
  let (mantissa, exponentDigits) := splitAtFirst (fun char => char == 'e' || char == 'E') text
  let (whole, fraction) := splitAtFirst (· == '.') mantissa
  let fraction := fraction.getD []
  let exponent ← match exponentDigits with
    | none => some 0
    | some digits => readExponent? digits
  if (whole ++ fraction).isEmpty || !(whole ++ fraction).all Decimal.isDigit then none
  else
    let decimal := Decimal.ofDigits whole fraction
    some ⟨decimal.digits, decimal.exponent + exponent⟩

/-- Reads the text of a number, rounding to the nearest one. -/
def read? (text : String) : Option Float :=
  let (negative, size) := match text.toList with
    | '-' :: rest => (true, rest)
    | '+' :: rest => (false, rest)
    | rest => (false, rest)
  let number := match String.ofList size with
    | "nan" => some (0.0 / 0.0)
    | "inf" => some (1.0 / 0.0)
    | _ => (readDecimal? size).map Decimal.toFloat
  number.map fun number => if negative then -number else number

end Lox.Number

import Lox.Decimal

/-!
The decimal that stands for a binary64 number: of those that read back as the number it is one
with the fewest digits, and of these the nearest to the exact value, a tie going to the even one.
-/

set_option autoImplicit false

namespace Lox.Decimal

/-- A non-negative number as an exact fraction. -/
structure Ratio where
  numerator : Nat
  denominator : Nat

namespace Ratio

/-- The least significand of a normal number, `2 ^ 52`. -/
def leastNormal : Nat :=
  0x10000000000000

/-- The exact size of a finite binary64 number, `significand * 2 ^ exponent`. -/
def ofFloat (number : Float) : Ratio :=
  let bits := number.toBits.toNat
  let biased := bits / leastNormal % 0x800
  let stored := bits % leastNormal
  let significand := if biased = 0 then stored else leastNormal + stored
  let exponent : Int := if biased = 0 then -1074 else (biased : Int) - 1075
  ⟨significand * Nat.pow 2 exponent.toNat, Nat.pow 2 (-exponent).toNat⟩

/-- A fraction divided by a power of ten. -/
def shift (ratio : Ratio) (exponent : Int) : Ratio :=
  ⟨ratio.numerator * Nat.pow 10 (-exponent).toNat, ratio.denominator * Nat.pow 10 exponent.toNat⟩

/-- The least `scale` with the fraction below `10 ^ scale`. The lengths of the two parts leave
two candidates. -/
def scale (ratio : Ratio) : Int :=
  let estimate : Int :=
    (digitsOfNat ratio.numerator).length - ((digitsOfNat ratio.denominator).length : Int)
  let shifted := ratio.shift estimate
  if shifted.numerator < shifted.denominator then estimate else estimate + 1

/-- The neighbour of a fraction on the grid of multiples of `10 ^ exponent` that reads back as
`number`, if there is one: of two the nearer, and the even one of two that are equally near. -/
def neighbour? (ratio : Ratio) (number : Float) (exponent : Int) : Option Decimal :=
  let shifted := ratio.shift exponent
  let below : Decimal := ⟨shifted.numerator / shifted.denominator, exponent⟩
  let above : Decimal := ⟨below.digits + 1, exponent⟩
  let readsBack (decimal : Decimal) := decimal.toFloat.toBits == number.toBits
  match readsBack below, readsBack above with
  | false, false => none
  | true, false => some below
  | false, true => some above
  | true, true =>
    match compare (2 * shifted.numerator) ((2 * below.digits + 1) * shifted.denominator) with
    | .lt => some below
    | .gt => some above
    | .eq => some (if below.digits % 2 = 0 then below else above)

/-- A fraction whose denominator is `2 ^ places`, as a decimal. -/
def exactly (ratio : Ratio) : Decimal :=
  let places := ratio.denominator.log2
  ⟨ratio.numerator * Nat.pow 5 places, -(places : Int)⟩

end Ratio

/-- The decimal that stands for the size of a finite number. Grids of one digit, two digits and
so on are tried in turn; the exact value stands in should seventeen digits not be enough. -/
def shortest (number : Float) : Decimal :=
  let size := number.abs
  let ratio := Ratio.ofFloat size
  if ratio.numerator = 0 then ⟨0, 0⟩
  else
    let scale := ratio.scale
    let found := (List.range 17).findSome? fun (count : Nat) =>
      ratio.neighbour? size (scale - (count + 1 : Nat))
    (found.getD ratio.exactly).reduced

end Lox.Decimal

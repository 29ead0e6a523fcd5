/-!
What a program computes with: nil, booleans, binary64 numbers and text, with the two
questions the language asks of every value.
-/

set_option autoImplicit false

namespace Lox

/-- A value of the language. There is one kind of number and no conversion between kinds. -/
inductive Value where
  | nil
  | boolean (value : Bool)
  | number (value : Float)
  | text (value : String)
  deriving DecidableEq, Inhabited

namespace Value

/-- Only nil and false count as false. -/
def isTruthy : Value → Bool
  | .nil => false
  | .boolean value => value
  | .number _ => true
  | .text _ => true

/-- Equality of the language. Values of different kinds differ, and numbers are compared by
IEEE rules: NaN differs from itself, and the two zeros agree. -/
def equals : Value → Value → Bool
  | .nil, .nil => true
  | .boolean left, .boolean right => left == right
  | .number left, .number right => left == right
  | .text left, .text right => left == right
  | _, _ => false

end Value

end Lox

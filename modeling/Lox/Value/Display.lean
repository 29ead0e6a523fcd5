import Lox.Number
import Lox.Value

/-!
What printing a value shows.
-/

set_option autoImplicit false

namespace Lox

/-- The text that printing a value shows. -/
def Value.display : Value → String
  | .nil => "nil"
  | .boolean true => "true"
  | .boolean false => "false"
  | .number value => Number.Style.shown.write value
  | .text value => value

end Lox

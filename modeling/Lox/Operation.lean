import Lox.Diagnostic
import Lox.Number

/-!
What operators do with values, and the errors that stop a program.
-/

set_option autoImplicit false

namespace Lox

/-- Why an operation fails. -/
inductive RuntimeError.Cause where
  | operandNotNumber
  | operandsNotNumbers
  | operandsNotAddable
  | unknownUnary
  | unknownBinary
  deriving DecidableEq

/-- An error that stops a program. -/
inductive RuntimeError where
  | operation (operator : Token) (cause : RuntimeError.Cause)
  /-- No open scope has the name. -/
  | undefinedVariable (name : Token)
  deriving DecidableEq

namespace RuntimeError

/-- The message of a failed operation. -/
def Cause.message (operator : Token) : Cause → String
  | .operandNotNumber => "Operand must be a number"
  | .operandsNotNumbers => "Operands must be numbers."
  | .operandsNotAddable => "Operands must be two numbers or two strings"
  | .unknownUnary => "Unknown unary operator '" ++ operator.lexeme ++ "'."
  | .unknownBinary => "Unknown binary operator '" ++ operator.lexeme ++ "'."

def diagnostic : RuntimeError → Diagnostic
  | .operation operator cause => .runtime operator (cause.message operator)
  | .undefinedVariable name => .undefinedVariable name

end RuntimeError

namespace Operation

/-- An operator in front of an operand. -/
def unary (operator : Token) (operand : Value) : Except RuntimeError Value :=
  match operator.kind, operand with
  | .bang, operand => .ok (.boolean !operand.isTruthy)
  | .minus, .number value => .ok (.number (-value))
  | .minus, _ => .error (.operation operator .operandNotNumber)
  | _, _ => .error (.operation operator .unknownUnary)

/-- An operation that both operands must be numbers for. -/
def onNumbers (operator : Token) (compute : Float → Float → Value) :
    Value → Value → Except RuntimeError Value
  | .number left, .number right => .ok (compute left right)
  | _, _ => .error (.operation operator .operandsNotNumbers)

/-- The sum of two numbers, or two texts joined. -/
def add (operator : Token) : Value → Value → Except RuntimeError Value
  | .number left, .number right => .ok (.number (left + right))
  | .text left, .text right => .ok (.text (left ++ right))
  | _, _ => .error (.operation operator .operandsNotAddable)

/-- The quotient of two numbers of which the second is not zero. -/
def quotient (left right : Float) (_nonzero : ¬right == 0.0) : Float :=
  left / right

/-- The quotient of any two numbers. A division by zero is infinite, and negative if one of the
two is, or NaN for zero by zero. -/
def divide (left right : Float) : Float :=
  if zero : right == 0.0 then
    if left == 0.0 || left.isNaN then Number.nan
    else if Number.isNegative left == Number.isNegative right then Number.infinity
    else -Number.infinity
  else quotient left right zero

/-- An operator between two operands. Arithmetic and comparison follow IEEE rules. -/
def binary (operator : Token) (left right : Value) : Except RuntimeError Value :=
  match operator.kind with
  | .plus => add operator left right
  | .minus => onNumbers operator (fun left right => .number (left - right)) left right
  | .slash => onNumbers operator (fun left right => .number (divide left right)) left right
  | .star => onNumbers operator (fun left right => .number (left * right)) left right
  | .greater => onNumbers operator (fun left right => .boolean (left > right)) left right
  | .greaterEqual => onNumbers operator (fun left right => .boolean (left ≥ right)) left right
  | .less => onNumbers operator (fun left right => .boolean (left < right)) left right
  | .lessEqual => onNumbers operator (fun left right => .boolean (left ≤ right)) left right
  | .bangEqual => .ok (.boolean !left.equals right)
  | .equalEqual => .ok (.boolean (left.equals right))
  | _ => .error (.operation operator .unknownBinary)

end Operation

end Lox

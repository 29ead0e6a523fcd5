import Lox.Environment
import Lox.Operation
import Lox.Tree.Dump

/-!
The value of an expression. Operands are evaluated from left to right, each once, and an
assignment takes effect as soon as its value is known, also if something fails after it.
-/

set_option autoImplicit false

namespace Lox

/-- Why a program stops before its end. -/
inductive Stop where
  | failed (error : RuntimeError)
  /-- A tree that is no expression stands where one is needed. -/
  | notExpression (found : Node)
  /-- A tree that is no statement stands where one is needed. -/
  | notStatement (found : Node)

/-- The message of a program that is no program; an error of a program proper has a report. -/
def Stop.message : Stop → String
  | .failed error => error.diagnostic.message
  | .notExpression found => "Invalid expression node: " ++ found.dump
  | .notStatement found => "Unknown statement type: " ++ found.kindName

/-- Something that may read and change variables, and may stop. -/
abbrev Evaluation : Type → Type :=
  EStateM Stop Environment

namespace Evaluation

def ofOperation {α : Type} : Except RuntimeError α → Evaluation α
  | .ok result => pure result
  | .error error => throw (.failed error)

/-- Reads a variable. -/
def read (name : Token) : Evaluation Value := do
  match (← get).get? name.lexeme with
  | some value => pure value
  | none => throw (.failed (.undefinedVariable name))

/-- Gives a variable a new value. -/
def write (name : Token) (value : Value) : Evaluation Unit := do
  match (← get).assign? name.lexeme value with
  | some environment => set environment
  | none => throw (.failed (.undefinedVariable name))

theorem bind_apply {α β : Type} (first : Evaluation α) (next : α → Evaluation β)
    (environment : Environment) :
    (first >>= next) environment =
      match first environment with
      | .ok result reached => next result reached
      | .error stop reached => .error stop reached := by
  change EStateM.bind first next environment = _
  unfold EStateM.bind
  cases first environment with
  | ok result reached => rfl
  | error stop reached => rfl

theorem read_apply (name : Token) (environment : Environment) :
    read name environment =
      match environment.get? name.lexeme with
      | some value => .ok value environment
      | none => .error (.failed (.undefinedVariable name)) environment := by
  change (match environment.get? name.lexeme with
    | some value => pure value
    | none => throw (.failed (.undefinedVariable name)) : Evaluation Value) environment = _
  cases environment.get? name.lexeme with
  | some value => rfl
  | none => rfl

theorem write_apply (name : Token) (value : Value) (environment : Environment) :
    write name value environment =
      match environment.assign? name.lexeme value with
      | some changed => .ok () changed
      | none => .error (.failed (.undefinedVariable name)) environment := by
  change (match environment.assign? name.lexeme value with
    | some changed => set changed
    | none => throw (.failed (.undefinedVariable name)) : Evaluation Unit) environment = _
  cases environment.assign? name.lexeme value with
  | some changed => rfl
  | none => rfl

end Evaluation

/-- The value of an expression. -/
def Expr.eval : Expr → Evaluation Value
  | .literal value => pure value
  | .group inner => inner.eval
  | .unary operator operand => do
    let operand ← operand.eval
    .ofOperation (Operation.unary operator operand)
  | .binary left operator right => do
    let left ← left.eval
    let right ← right.eval
    .ofOperation (Operation.binary operator left right)
  | .assign name value => do
    let value ← value.eval
    .write name value
    pure value
  | .var name => .read name
  | .misplaced found => throw (.notExpression found)

end Lox

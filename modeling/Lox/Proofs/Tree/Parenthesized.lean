import Lox.Evaluation
import Lox.Proofs.Tree.Written

/-!
Expressions of any shape written as tokens. An operand that has an operator or an assignment of its
own is put in parentheses, so that the precedence of operators has no say in how it is read; read
back, the tree has a group in each of these places. The groups make no difference to its value:
`Expr.eval_grouped`.
-/

set_option autoImplicit false

namespace Lox

namespace Expr

/-- Whether an operand is put in parentheses. -/
def isCompound : Expr → Bool
  | .unary _ _ => true
  | .binary _ _ _ => true
  | .assign _ _ => true
  | _ => false

/-- An operand, in a group if it is compound. -/
def asOperand (operand : Expr) : Expr :=
  if operand.isCompound then .group operand else operand

/-- The tree with a group around each compound operand. -/
def grouped : Expr → Expr
  | .literal value => .literal value
  | .group inner => .group inner.grouped
  | .unary operator operand => .unary operator operand.grouped.asOperand
  | .binary left operator right =>
    .binary left.grouped.asOperand operator right.grouped.asOperand
  | .assign name value => .assign name value.grouped
  | .var name => .var name
  | .misplaced found => .misplaced found

/-- The tokens of an operand, in parentheses if it is compound. -/
def enclose (operand : Expr) (tokens : List Token) : List Token :=
  if operand.isCompound then .plain .leftParen .nil :: (tokens ++ [.plain .rightParen .nil])
  else tokens

/-- The tokens of an expression, with each compound operand in parentheses. -/
def parenthesized : Expr → List Token
  | .literal value => [value.written]
  | .group inner => .plain .leftParen .nil :: (inner.parenthesized ++ [.plain .rightParen .nil])
  | .unary operator operand => operator :: operand.enclose operand.parenthesized
  | .binary left operator right =>
    left.enclose left.parenthesized ++ operator :: right.enclose right.parenthesized
  | .assign name value => name :: .plain .equal .nil :: value.parenthesized
  | .var name => [name]
  | .misplaced _ => []

/-- Every variable is named by an identifier. -/
def IsNamed : Expr → Prop
  | .literal _ => True
  | .group inner => inner.IsNamed
  | .unary _ operand => operand.IsNamed
  | .binary left _ right => left.IsNamed ∧ right.IsNamed
  | .assign name value => name.kind = .identifier ∧ value.IsNamed
  | .var name => name.kind = .identifier
  | .misplaced _ => True

theorem isCompound_grouped (tree : Expr) : tree.grouped.isCompound = tree.isCompound := by
  cases tree <;> rfl

theorem asOperand_of_compound {operand : Expr} (compound : operand.isCompound) :
    operand.grouped.asOperand = .group operand.grouped := by
  rw [asOperand, isCompound_grouped, if_pos compound]

theorem asOperand_of_simple {operand : Expr} (simple : ¬operand.isCompound) :
    operand.grouped.asOperand = operand.grouped := by
  rw [asOperand, isCompound_grouped, if_neg simple]

theorem eval_asOperand (operand : Expr) : operand.asOperand.eval = operand.eval := by
  unfold asOperand
  split
  · rfl
  · rfl

/-- A group has the value of what is in it, so groups can be put anywhere. -/
theorem eval_grouped (tree : Expr) : tree.grouped.eval = tree.eval := by
  induction tree with
  | literal value => rfl
  | group inner ih => exact ih
  | unary operator operand ih => rw [grouped, eval, eval_asOperand, ih, eval]
  | binary left operator right first second =>
      rw [grouped, eval, eval_asOperand, eval_asOperand, first, second, eval]
  | assign name value ih => rw [grouped, eval, ih, eval]
  | var name => rfl
  | misplaced found => rfl

end Expr

end Lox

import Lox.Grammar.Expression

/-!
Trees that the language has a meaning for: every operator is one of those that can stand where it
does, expressions and statements are in their places, and nothing is missing.
-/

set_option autoImplicit false

namespace Lox

open Grammar

inductive Expr.Proper : Expr → Prop where
  | literal (value : Value) : Proper (.literal value)
  | group {inner : Expr} (proper : inner.Proper) : Proper (.group inner)
  | unary {operator : Token} {operand : Expr} (isOperator : operator.kind ∈ unaryOperators)
      (proper : operand.Proper) : Proper (.unary operator operand)
  | binary {left right : Expr} {operator : Token} (tier : Tier)
      (isOperator : operator.kind ∈ tier.operators) (proper : left.Proper)
      (properRight : right.Proper) : Proper (.binary left operator right)
  | assign (name : Token) {value : Expr} (proper : value.Proper) : Proper (.assign name value)
  | var (name : Token) : Proper (.var name)

inductive Stmt.Proper : Stmt → Prop where
  | expression {inner : Expr} (proper : inner.Proper) : Proper (.expression inner)
  | print {inner : Expr} (proper : inner.Proper) : Proper (.print inner)
  | declare (name : Token) : Proper (.declare name none)
  | initialized (name : Token) {initial : Expr} (proper : initial.Proper) :
      Proper (.declare name (some initial))
  | block {body : List Stmt} (proper : ∀ statement ∈ body, statement.Proper) :
      Proper (.block body)

end Lox

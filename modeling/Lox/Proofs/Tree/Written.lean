import Lox.Tree

/-!
Trees written back as tokens. Names and operators are tokens of the tree; keywords, punctuation and
parentheses are restored, and a literal is written as a token that stands for it. A parenthesis is
written just where the tree has a group.
-/

set_option autoImplicit false

namespace Lox

/-- How the kinds that a tree does not keep are spelled. -/
def Token.Kind.spelling : Token.Kind → String
  | .leftParen => "("
  | .rightParen => ")"
  | .leftBrace => "\x7b"
  | .rightBrace => "\x7d"
  | .semicolon => ";"
  | .equal => "="
  | .varWord => "var"
  | .printWord => "print"
  | .trueWord => "true"
  | .falseWord => "false"
  | .nilWord => "nil"
  | _ => ""

/-- A token with nothing of its own but what it stands for. -/
def Token.plain (kind : Token.Kind) (literal : Value) : Token :=
  ⟨kind, kind.spelling, literal, 0⟩

def Value.written : Value → Token
  | .nil => .plain .nilWord .nil
  | .boolean true => .plain .trueWord .nil
  | .boolean false => .plain .falseWord .nil
  | .number value => .plain .number (.number value)
  | .text value => .plain .string (.text value)

/-- The tokens of an expression, in source order. -/
def Expr.written : Expr → List Token
  | .literal value => [value.written]
  | .group inner => .plain .leftParen .nil :: (inner.written ++ [.plain .rightParen .nil])
  | .unary operator operand => operator :: operand.written
  | .binary left operator right => left.written ++ operator :: right.written
  | .assign name value => name :: .plain .equal .nil :: value.written
  | .var name => [name]
  | .misplaced _ => []

mutual

/-- The tokens of a statement, in source order. -/
def Stmt.written : Stmt → List Token
  | .expression inner => inner.written ++ [.plain .semicolon .nil]
  | .print inner => .plain .printWord .nil :: (inner.written ++ [.plain .semicolon .nil])
  | .declare name none => [.plain .varWord .nil, name, .plain .semicolon .nil]
  | .declare name (some initial) =>
    .plain .varWord .nil :: name :: .plain .equal .nil ::
      (initial.written ++ [.plain .semicolon .nil])
  | .block body =>
    .plain .leftBrace .nil :: (Stmt.writtenAll body ++ [.plain .rightBrace .nil])
  | .misplaced _ => []

/-- The tokens of statements, one after the other. -/
def Stmt.writtenAll : List Stmt → List Token
  | [] => []
  | statement :: rest => statement.written ++ Stmt.writtenAll rest

end

end Lox

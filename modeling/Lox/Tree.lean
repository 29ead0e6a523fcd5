import Lox.Token

/-!
Program trees. `Expr` and `Stmt` are the two families a program is made of. `Node` is a tree
before anyone has checked that its parts belong where they stand: it may mix the families and
leave gaps. Every node reads as an expression and as a statement; what does not belong there is
kept as `misplaced`, so that a run fails on it only when it gets there.
-/

set_option autoImplicit false

namespace Lox

/-- A tree of any shape. -/
inductive Node where
  /-- A gap. As the initial value of a declaration it means that there is none. -/
  | missing
  | literal (value : Value)
  | group (inner : Node)
  | unary (operator : Token) (operand : Node)
  | binary (left : Node) (operator : Token) (right : Node)
  | assign (name : Token) (value : Node)
  | var (name : Token)
  | expression (inner : Node)
  | print (inner : Node)
  | declare (name : Token) (initial : Node)
  | block (body : List Node)
  deriving Inhabited

/-- An expression. -/
inductive Expr where
  | literal (value : Value)
  /-- An expression in parentheses. -/
  | group (inner : Expr)
  | unary (operator : Token) (operand : Expr)
  | binary (left : Expr) (operator : Token) (right : Expr)
  | assign (name : Token) (value : Expr)
  | var (name : Token)
  /-- A tree that is no expression, where one is needed. -/
  | misplaced (found : Node)
  deriving Inhabited

/-- A statement. -/
inductive Stmt where
  | expression (inner : Expr)
  | print (inner : Expr)
  | declare (name : Token) (initial : Option Expr)
  | block (body : List Stmt)
  /-- A tree that is no statement, where one is needed. -/
  | misplaced (found : Node)
  deriving Inhabited

namespace Node

/-- A node read as an expression. -/
def toExpr : Node → Expr
  | .literal value => .literal value
  | .group inner => .group inner.toExpr
  | .unary operator operand => .unary operator operand.toExpr
  | .binary left operator right => .binary left.toExpr operator right.toExpr
  | .assign name value => .assign name value.toExpr
  | .var name => .var name
  | found => .misplaced found

mutual

/-- A node read as a statement. -/
def toStmt : Node → Stmt
  | .expression inner => .expression inner.toExpr
  | .print inner => .print inner.toExpr
  | .declare name .missing => .declare name none
  | .declare name initial => .declare name (some initial.toExpr)
  | .block body => .block (toStmts body)
  | found => .misplaced found

/-- Nodes read as statements. -/
def toStmts : List Node → List Stmt
  | [] => []
  | node :: rest => node.toStmt :: toStmts rest

end

end Node

/-- The tree of an expression. -/
def Expr.toNode : Expr → Node
  | .literal value => .literal value
  | .group inner => .group inner.toNode
  | .unary operator operand => .unary operator operand.toNode
  | .binary left operator right => .binary left.toNode operator right.toNode
  | .assign name value => .assign name value.toNode
  | .var name => .var name
  | .misplaced found => found

mutual

/-- The tree of a statement. -/
def Stmt.toNode : Stmt → Node
  | .expression inner => .expression inner.toNode
  | .print inner => .print inner.toNode
  | .declare name none => .declare name .missing
  | .declare name (some initial) => .declare name initial.toNode
  | .block body => .block (Stmt.toNodes body)
  | .misplaced found => found

/-- The trees of statements. -/
def Stmt.toNodes : List Stmt → List Node
  | [] => []
  | statement :: rest => statement.toNode :: Stmt.toNodes rest

end

end Lox

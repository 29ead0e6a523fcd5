import Lox.Tree

/-!
The names of variables in a program: those that are read, those that are written, by an assignment
or a declaration, and those that a list of statements declares directly, not in a block. A tree
that is not in its place is not looked into, and has no names.
-/

set_option autoImplicit false

namespace Lox

/-- The names that are read in an expression. -/
def Expr.reads : Expr → List String
  | .literal _ => []
  | .group inner => inner.reads
  | .unary _ operand => operand.reads
  | .binary left _ right => left.reads ++ right.reads
  | .assign _ value => value.reads
  | .var name => [name.lexeme]
  | .misplaced _ => []

/-- The names that are assigned to in an expression. -/
def Expr.writes : Expr → List String
  | .literal _ => []
  | .group inner => inner.writes
  | .unary _ operand => operand.writes
  | .binary left _ right => left.writes ++ right.writes
  | .assign name value => name.lexeme :: value.writes
  | .var _ => []
  | .misplaced _ => []

/-- An expression with other names. -/
def Expr.mapNames (place : Token → Token) : Expr → Expr
  | .literal value => .literal value
  | .group inner => .group (inner.mapNames place)
  | .unary operator operand => .unary operator (operand.mapNames place)
  | .binary left operator right => .binary (left.mapNames place) operator (right.mapNames place)
  | .assign name value => .assign (place name) (value.mapNames place)
  | .var name => .var (place name)
  | .misplaced found => .misplaced found

theorem Expr.mapNames_id (expression : Expr) : expression.mapNames id = expression := by
  induction expression with
  | literal value => rfl
  | group inner ih => rw [mapNames, ih]
  | unary operator operand ih => rw [mapNames, ih]
  | binary left operator right first second => rw [mapNames, first, second]
  | assign name value ih => rw [mapNames, ih, id]
  | var name => rfl
  | misplaced found => rfl

namespace Stmt

mutual

/-- The names that are read in a statement. -/
def reads : Stmt → List String
  | .expression inner => inner.reads
  | .print inner => inner.reads
  | .declare _ none => []
  | .declare _ (some initial) => initial.reads
  | .block body => allReads body
  | .misplaced _ => []

/-- The names that are read in statements. -/
def allReads : List Stmt → List String
  | [] => []
  | statement :: rest => statement.reads ++ allReads rest

end

mutual

/-- The names that are declared or assigned to in a statement. -/
def writes : Stmt → List String
  | .expression inner => inner.writes
  | .print inner => inner.writes
  | .declare name none => [name.lexeme]
  | .declare name (some initial) => name.lexeme :: initial.writes
  | .block body => allWrites body
  | .misplaced _ => []

/-- The names that are declared or assigned to in statements. -/
def allWrites : List Stmt → List String
  | [] => []
  | statement :: rest => statement.writes ++ allWrites rest

end

/-- All names in statements. -/
def names (statements : List Stmt) : List String :=
  allReads statements ++ allWrites statements

/-- The name that a statement declares itself. -/
def declaredName? : Stmt → Option String
  | .declare name _ => some name.lexeme
  | .expression _ | .print _ | .block _ | .misplaced _ => none

/-- The names that statements declare themselves, and not in a block. -/
def declaredNames (statements : List Stmt) : List String :=
  statements.filterMap declaredName?

end Stmt

end Lox

import Lox.Proofs.Scan.Written

/-!
Trees of scanned texts: each name in them is a word that is not reserved, each operator is written
as its kind is, and no text has a quote in it. Tokens are told apart by their lexemes, but for the
lines they are on.
-/

set_option autoImplicit false

namespace Lox

open Segment

/-- The operators that a tree keeps. -/
def Token.operators : List (List Char × Token.Kind) :=
  [(['!'], .bang), (['-'], .minus), (['+'], .plus), (['/'], .slash), (['*'], .star),
    (['!', '='], .bangEqual), (['=', '='], .equalEqual), (['>'], .greater),
    (['>', '='], .greaterEqual), (['<'], .less), (['<', '='], .lessEqual)]

/-- An operator as it is scanned. -/
structure Token.IsOperator (token : Token) : Prop where
  listed : (token.lexeme.toList, token.kind) ∈ Token.operators
  literal : token.literal = .nil

/-- A name as it is scanned. -/
structure Token.IsName (token : Token) : Prop where
  kind : token.kind = .identifier
  literal : token.literal = .nil
  starts : ∃ first rest, token.lexeme.toList = first :: rest ∧ isWordStart first ∧
    ∀ char ∈ rest, isWordPart char
  free : ∀ entry ∈ Token.Kind.reserved, entry.1.toList ≠ token.lexeme.toList

/-- A text without a quote, or no text. -/
def Value.IsUnquoted (value : Value) : Prop :=
  ∀ text, value = .text text → '"' ∉ text.toList

/-- A tree as it is read of a scanned text. -/
inductive Expr.Scanned : Expr → Prop where
  | literal {value : Value} (unquoted : value.IsUnquoted) : Scanned (.literal value)
  | group {inner : Expr} (scanned : inner.Scanned) : Scanned (.group inner)
  | unary {operator : Token} {operand : Expr} (isOperator : operator.IsOperator)
      (scanned : operand.Scanned) : Scanned (.unary operator operand)
  | binary {left right : Expr} {operator : Token} (isOperator : operator.IsOperator)
      (scanned : left.Scanned) (scannedRight : right.Scanned) :
      Scanned (.binary left operator right)
  | assign {name : Token} {value : Expr} (isName : name.IsName) (scanned : value.Scanned) :
      Scanned (.assign name value)
  | var {name : Token} (isName : name.IsName) : Scanned (.var name)

inductive Stmt.Scanned : Stmt → Prop where
  | expression {inner : Expr} (scanned : inner.Scanned) : Scanned (.expression inner)
  | print {inner : Expr} (scanned : inner.Scanned) : Scanned (.print inner)
  | declare {name : Token} (isName : name.IsName) : Scanned (.declare name none)
  | initialized {name : Token} {initial : Expr} (isName : name.IsName)
      (scanned : initial.Scanned) : Scanned (.declare name (some initial))
  | block {body : List Stmt} (scanned : ∀ statement ∈ body, statement.Scanned) :
      Scanned (.block body)

/-! The numbers that stand in a program. -/

def Expr.numbers : Expr → List Float
  | .literal (.number number) => [number]
  | .literal _ => []
  | .group inner => inner.numbers
  | .unary _ operand => operand.numbers
  | .binary left _ right => left.numbers ++ right.numbers
  | .assign _ value => value.numbers
  | .var _ => []
  | .misplaced _ => []

mutual

def Stmt.numbers : Stmt → List Float
  | .expression inner => inner.numbers
  | .print inner => inner.numbers
  | .declare _ none => []
  | .declare _ (some initial) => initial.numbers
  | .block body => Stmt.allNumbers body
  | .misplaced _ => []

def Stmt.allNumbers : List Stmt → List Float
  | [] => []
  | statement :: rest => statement.numbers ++ Stmt.allNumbers rest

end

theorem Stmt.allNumbers_eq_flatMap (statements : List Stmt) :
    allNumbers statements = statements.flatMap numbers := by
  induction statements with
  | nil => rfl
  | cons statement rest ih => rw [allNumbers, ih, List.flatMap_cons]

theorem Stmt.mem_allNumbers {statements : List Stmt} {statement : Stmt}
    (member : statement ∈ statements) {number : Float} (inside : number ∈ statement.numbers) :
    number ∈ allNumbers statements := by
  rw [allNumbers_eq_flatMap]
  exact List.mem_flatMap_of_mem member inside

end Lox

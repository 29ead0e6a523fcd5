import Lox.Proofs.Tree.Names

/-!
Resolution of names before a program is run. One walk over a program in source order keeps the names
declared so far in each open scope, and gives every use of a name the number of the innermost open
scope that has it, counted from the global one, which is number 0. A name is declared after its
initial value, and counts for what comes after it only.
-/

set_option autoImplicit false

namespace Lox

/-- A place in a program where a name is looked up. -/
inductive Occurrence where
  | read (name : Token)
  | write (name : Token)
  deriving DecidableEq

def Occurrence.name : Occurrence → Token
  | .read name => name
  | .write name => name

/-- Where a name is looked up, and the number of the scope it is found in, if it is found. -/
structure Resolution where
  occurrence : Occurrence
  level : Option Nat
  deriving DecidableEq

/-- The number of the innermost scope that has a name, where the names of each scope are given from
the innermost outwards. -/
def innermost? (name : String) : List (List String) → Option Nat
  | [] => none
  | names :: outer => if name ∈ names then some outer.length else innermost? name outer

theorem innermost?_of_mem {name : String} {names : List String} (member : name ∈ names)
    (outer : List (List String)) : innermost? name (names :: outer) = some outer.length :=
  if_pos member

theorem innermost?_of_not_mem {name : String} {names : List String} (unknown : name ∉ names)
    (outer : List (List String)) : innermost? name (names :: outer) = innermost? name outer :=
  if_neg unknown

/-- The names of the open scopes with one more in the innermost. -/
def declareName (name : String) : List (List String) → List (List String)
  | [] => []
  | names :: outer => (name :: names) :: outer

/-- An occurrence where the open scopes have the names given. -/
def Occurrence.resolve (declared : List (List String)) (occurrence : Occurrence) : Resolution :=
  ⟨occurrence, innermost? occurrence.name.lexeme declared⟩

/-- The names looked up in an expression, in the order of evaluation: an assignment comes after its
value. -/
def Expr.resolve (declared : List (List String)) : Expr → List Resolution
  | .literal _ => []
  | .group inner => inner.resolve declared
  | .unary _ operand => operand.resolve declared
  | .binary left _ right => left.resolve declared ++ right.resolve declared
  | .assign name value => value.resolve declared ++ [Occurrence.resolve declared (.write name)]
  | .var name => [Occurrence.resolve declared (.read name)]
  | .misplaced _ => []

/-- The names of the open scopes after a statement. -/
def Stmt.declares (declared : List (List String)) : Stmt → List (List String)
  | .declare name _ => declareName name.lexeme declared
  | .expression _ | .print _ | .block _ | .misplaced _ => declared

/-- The names of the open scopes after some statements. -/
def Stmt.declaresAll (declared : List (List String)) : List Stmt → List (List String)
  | [] => declared
  | statement :: rest => declaresAll (statement.declares declared) rest

mutual

/-- The names looked up in a statement. -/
def Stmt.resolve (declared : List (List String)) : Stmt → List Resolution
  | .expression inner => inner.resolve declared
  | .print inner => inner.resolve declared
  | .declare _ none => []
  | .declare _ (some initial) => initial.resolve declared
  | .block body => Stmt.resolveAll ([] :: declared) body
  | .misplaced _ => []

/-- The names looked up in statements. -/
def Stmt.resolveAll (declared : List (List String)) : List Stmt → List Resolution
  | [] => []
  | statement :: rest =>
    Stmt.resolve declared statement ++ Stmt.resolveAll (statement.declares declared) rest

end

/-- Statements of a block declare nothing around it, and in it the names that they declare
themselves. -/
theorem Stmt.exists_declaresAll (names : List String) (outer : List (List String))
    (statements : List Stmt) :
    ∃ later, Stmt.declaresAll (names :: outer) statements = later :: outer ∧
      ∀ name, name ∈ later ↔ name ∈ names ∨ name ∈ declaredNames statements := by
  induction statements generalizing names with
  | nil => exact ⟨names, rfl, fun name => by simp [declaredNames]⟩
  | cons statement rest ih =>
      rw [declaresAll]
      cases statement with
      | declare name initial =>
          obtain ⟨later, same, members⟩ := ih (name.lexeme :: names)
          refine ⟨later, same, fun other => ?_⟩
          rw [members, List.mem_cons, or_assoc, or_left_comm]
          exact or_congr_right List.mem_cons.symm
      | expression inner => exact ih names
      | print inner => exact ih names
      | block body => exact ih names
      | misplaced found => exact ih names

end Lox

import Lox.Value

/-!
A scope: the variables declared in one place, each with its present value.
-/

set_option autoImplicit false

namespace Lox

/-- Names with their values, each name once, in the order of their declaration. -/
structure Scope where
  bindings : List (String × Value)
  deriving DecidableEq, Inhabited

namespace Scope

def empty : Scope :=
  ⟨[]⟩

/-- The value of a name. A variable that is nil has one. -/
def get? (scope : Scope) (name : String) : Option Value :=
  scope.bindings.lookup name

def has (scope : Scope) (name : String) : Bool :=
  (scope.get? name).isSome

/-- The bindings with one name bound to a value, whether it was bound before or not. -/
def bind (name : String) (value : Value) : List (String × Value) → List (String × Value)
  | [] => [(name, value)]
  | (known, old) :: rest =>
    if name = known then (name, value) :: rest else (known, old) :: bind name value rest

/-- The scope with one name bound to a value. -/
def set (scope : Scope) (name : String) (value : Value) : Scope :=
  ⟨bind name value scope.bindings⟩

/-- Puts a binding in front of the first one whose name does not come before its own. -/
def insertSorted (binding : String × Value) : List (String × Value) → List (String × Value)
  | [] => [binding]
  | other :: rest =>
    if binding.1 ≤ other.1 then binding :: other :: rest else other :: insertSorted binding rest

/-- The bindings in the order of their names. -/
def sorted (scope : Scope) : List (String × Value) :=
  scope.bindings.foldr insertSorted []

end Scope

end Lox

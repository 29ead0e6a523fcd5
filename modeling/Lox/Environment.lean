import Lox.Scope

/-!
Environments: the scopes that are open at one place in a program, from the innermost outwards. A
name means its variable in the nearest scope that has one.
-/

set_option autoImplicit false

namespace Lox

/-- The global scope, or a scope inside an environment. -/
inductive Environment where
  | global (scope : Scope)
  | inner (scope : Scope) (outer : Environment)
  deriving DecidableEq, Inhabited

namespace Environment

/-- The global scope with nothing declared. -/
def empty : Environment :=
  .global .empty

/-- The scope that encloses all others. -/
def globals : Environment → Scope
  | .global scope => scope
  | .inner _ outer => outer.globals

def isGlobal : Environment → Bool
  | .global _ => true
  | .inner _ _ => false

/-- The scope that variables are declared in. -/
def innermost : Environment → Scope
  | .global scope => scope
  | .inner scope _ => scope

/-- Opens a scope with nothing declared. -/
def enter (environment : Environment) : Environment :=
  .inner .empty environment

/-- Closes the innermost scope; the global one stays open. -/
def leave : Environment → Environment
  | .global scope => .global scope
  | .inner _ outer => outer

/-- Declares a variable in the innermost scope. Declaring it again is allowed. -/
def define (name : String) (value : Value) : Environment → Environment
  | .global scope => .global (scope.set name value)
  | .inner scope outer => .inner (scope.set name value) outer

/-- The value of a name in the nearest scope that has it. -/
def get? (name : String) : Environment → Option Value
  | .global scope => scope.get? name
  | .inner scope outer => (scope.get? name).or (outer.get? name)

/-- The environment with a new value for a name in the nearest scope that has it, if one does. -/
def assign? (name : String) (value : Value) : Environment → Option Environment
  | .global scope => if scope.has name then some (.global (scope.set name value)) else none
  | .inner scope outer =>
    if scope.has name then some (.inner (scope.set name value) outer)
    else (outer.assign? name value).map (.inner scope)

end Environment

end Lox

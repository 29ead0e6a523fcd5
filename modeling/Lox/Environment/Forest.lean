import Lox.Environment
import Lox.Operation

/-!
Scopes that live side by side, each alone or inside one that is older. Several may be inside the
same one, so what is written through one of them is seen through all.
-/

set_option autoImplicit false

namespace Lox

/-- A scope and the number of the one it is inside. -/
structure Forest.Frame where
  scope : Scope
  parent : Option Nat

/-- Scopes, the newest first. They are numbered in the order of their creation, from 0. -/
structure Forest where
  frames : List Forest.Frame

namespace Forest

def empty : Forest :=
  ⟨[]⟩

/-- Creates a scope, alone or inside the one with a number. -/
def new (forest : Forest) (parent : Option Nat) : Forest :=
  ⟨⟨.empty, parent⟩ :: forest.frames⟩

/-- The scopes in the order of their creation. -/
def scopes (forest : Forest) : List Scope :=
  (forest.frames.map (·.scope)).reverse

/-- The number of the nearest scope that has a name, from the scope with a number outwards. -/
def holderIn? (name : String) : List Frame → Nat → Option Nat
  | [], _ => none
  | frame :: older, number =>
    if number = older.length then
      if frame.scope.has name then some number
      else frame.parent.bind fun parent => holderIn? name older parent
    else holderIn? name older number

def holder? (forest : Forest) (number : Nat) (name : String) : Option Nat :=
  holderIn? name forest.frames number

/-- Changes the scope with a number. -/
def modify (change : Scope → Scope) : List Frame → Nat → List Frame
  | [], _ => []
  | frame :: older, number =>
    if number = older.length then { frame with scope := change frame.scope } :: older
    else frame :: modify change older number

/-- Declares a variable in the scope with a number. -/
def define (forest : Forest) (number : Nat) (name : String) (value : Value) : Forest :=
  ⟨modify (·.set name value) forest.frames number⟩

/-- The value of a name in the nearest scope that has it. -/
def get? (forest : Forest) (number : Nat) (name : String) : Option Value := do
  let holder ← forest.holder? number name
  let scope ← forest.scopes[holder]?
  scope.get? name

/-- The forest with a new value for a name in the nearest scope that has it, if one does. -/
def assign? (forest : Forest) (number : Nat) (name : String) (value : Value) : Option Forest :=
  (forest.holder? number name).map fun holder => forest.define holder name value

/-- The scope with a number, and those it is inside. -/
def environmentIn? : List Frame → Nat → Option Environment
  | [], _ => none
  | frame :: older, number =>
    if number = older.length then
      some ((frame.parent.bind (environmentIn? older)).elim (.global frame.scope)
        (.inner frame.scope))
    else environmentIn? older number

def environment? (forest : Forest) (number : Nat) : Option Environment :=
  environmentIn? forest.frames number

/-- Gives the scope with a number, and those it is inside, the contents of an environment. -/
def putIn : List Frame → Nat → Environment → List Frame
  | [], _, _ => []
  | frame :: older, number, environment =>
    if number = older.length then
      { frame with scope := environment.innermost } ::
        frame.parent.elim older fun parent => putIn older parent environment.leave
    else frame :: putIn older number environment

def put (forest : Forest) (number : Nat) (environment : Environment) : Forest :=
  ⟨putIn forest.frames number environment⟩

/-- What scopes can be asked for, each by its number. -/
inductive Request where
  | new (parent : Option Nat)
  | define (number : Nat) (name : String) (value : Value)
  | get (number : Nat) (name : Token)
  | assign (number : Nat) (name : Token) (value : Value)

/-- Carries out a request. Reading gives a value, and the others give none; to read or assign a
name that no scope has is an error, and nothing is changed. -/
def perform (forest : Forest) : Request → Forest × Except RuntimeError (Option Value)
  | .new parent => (forest.new parent, .ok none)
  | .define number name value => (forest.define number name value, .ok none)
  | .get number name =>
    match forest.get? number name.lexeme with
    | some value => (forest, .ok (some value))
    | none => (forest, .error (.undefinedVariable name))
  | .assign number name value =>
    match forest.assign? number name.lexeme value with
    | some changed => (changed, .ok none)
    | none => (forest, .error (.undefinedVariable name))

/-- Carries out requests one after another, whatever comes of them. -/
def performAll (forest : Forest) (requests : List Request) : Forest :=
  requests.foldl (fun forest request => (forest.perform request).1) forest

end Forest

end Lox

import Lox.Environment.Forest
import Lox.Execution

/-!
An interpreter among several scopes. It carries out what it is asked for in its current scope; the
nodes of a block are executed in another one, which is current until they end in whatever way.
-/

set_option autoImplicit false

namespace Lox

/-- Scopes, and the number of the current one. -/
structure Interpreter where
  forest : Forest
  current : Nat

namespace Interpreter

/-- Runs something in the current scope, if it is there. The scope and those it is inside are then
as it leaves them. -/
def inCurrent (interpreter : Interpreter) (run : Environment → Execution) :
    Option (Interpreter × Execution) := do
  let environment ← interpreter.forest.environment? interpreter.current
  let execution := run environment
  return ({ interpreter with
    forest := interpreter.forest.put interpreter.current execution.environment }, execution)

/-- Executes nodes in order, up to the first that stops. -/
def interpret (interpreter : Interpreter) (nodes : List Node) : Option (Interpreter × Execution) :=
  interpreter.inCurrent fun environment => Stmt.execAll environment (Node.toStmts nodes)

def execute (interpreter : Interpreter) (node : Node) : Option (Interpreter × Execution) :=
  interpreter.inCurrent fun environment => Stmt.exec environment node.toStmt

/-- Executes nodes in the scope with a number, which is the current one meanwhile. However they
end, the one that was current before is so again. -/
def executeBlock (interpreter : Interpreter) (nodes : List Node) (scope : Nat) :
    Option (Interpreter × Execution) := do
  let previous := interpreter.current
  let (interpreter, execution) ← { interpreter with current := scope }.interpret nodes
  return ({ interpreter with current := previous }, execution)

def evaluate (interpreter : Interpreter) (node : Node) : Option (Interpreter × Execution) :=
  interpreter.inCurrent fun environment =>
    .ofValue node.toExpr environment fun _ reached => ⟨[], reached, none⟩

/-- What an interpreter can be asked for, with trees of any shape. -/
inductive Request where
  | interpret (nodes : List Node)
  | execute (node : Node)
  /-- Executes nodes in the scope with a number, which need not be the current one. -/
  | executeBlock (nodes : List Node) (scope : Nat)
  | evaluate (node : Node)

/-- Carries out a request, if the scope for it is there. -/
def perform (interpreter : Interpreter) : Request → Option (Interpreter × Execution)
  | .interpret nodes => interpreter.interpret nodes
  | .execute node => interpreter.execute node
  | .executeBlock nodes scope => interpreter.executeBlock nodes scope
  | .evaluate node => interpreter.evaluate node

end Interpreter

end Lox

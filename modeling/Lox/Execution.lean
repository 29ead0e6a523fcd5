import Lox.Evaluation
import Lox.Value.Display

/-!
Running statements. An execution is what comes of it: the texts printed, the environment it ends
in, and why it stopped if it did not come to its end. A block has a scope of its own, which is
closed when the block ends in whatever way.
-/

set_option autoImplicit false

namespace Lox

/-- What comes of running statements. -/
structure Execution where
  /-- The texts printed, in order. -/
  printed : List String
  environment : Environment
  stop : Option Stop

namespace Execution

/-- Goes on in the environment that an execution ends in, unless it stopped. -/
def andThen (first : Execution) (next : Environment → Execution) : Execution :=
  match first.stop with
  | some _ => first
  | none =>
    let last := next first.environment
    { last with printed := first.printed ++ last.printed }

/-- Evaluates an expression and goes on with its value, unless it stops. -/
def ofValue (expression : Expr) (environment : Environment)
    (next : Value → Environment → Execution) : Execution :=
  match expression.eval environment with
  | .ok value environment => next value environment
  | .error stop environment => ⟨[], environment, some stop⟩

end Execution

mutual

/-- Runs a statement. -/
def Stmt.exec (environment : Environment) : Stmt → Execution
  | .expression inner => .ofValue inner environment fun _ environment => ⟨[], environment, none⟩
  | .print inner =>
    .ofValue inner environment fun value environment => ⟨[value.display], environment, none⟩
  | .declare name none => ⟨[], environment.define name.lexeme .nil, none⟩
  | .declare name (some initial) =>
    .ofValue initial environment fun value environment =>
      ⟨[], environment.define name.lexeme value, none⟩
  | .block body =>
    let inner := Stmt.execAll environment.enter body
    { inner with environment := inner.environment.leave }
  | .misplaced found => ⟨[], environment, some (.notStatement found)⟩

/-- Runs statements in order, up to the first that stops. -/
def Stmt.execAll (environment : Environment) : List Stmt → Execution
  | [] => ⟨[], environment, none⟩
  | statement :: rest =>
    (Stmt.exec environment statement).andThen fun environment => Stmt.execAll environment rest

end

end Lox

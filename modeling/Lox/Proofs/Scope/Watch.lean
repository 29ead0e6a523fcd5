import Lox.Execution
import Lox.Proofs.Scope.Resolution

/-!
Running a program under watch: beside what comes of it, every lookup of a name is noted down with
the environment it is made in. What comes of the program is the same: `Stmt.watchAll_execution`.
-/

set_option autoImplicit false

namespace Lox

/-- A name is looked up in an environment. -/
structure Lookup where
  occurrence : Occurrence
  environment : Environment

/-- What comes of an evaluation, with the lookups made, in order. -/
structure Watched (α : Type) where
  lookups : List Lookup
  result : EStateM.Result Stop Environment α

namespace Watched

variable {α β : Type}

/-- An evaluation that looks up no name. -/
def plain (evaluation : Evaluation α) (environment : Environment) : Watched α :=
  ⟨[], evaluation environment⟩

def read (name : Token) (environment : Environment) : Watched Value :=
  ⟨[⟨.read name, environment⟩], Evaluation.read name environment⟩

def write (name : Token) (value : Value) (environment : Environment) : Watched Unit :=
  ⟨[⟨.write name, environment⟩], Evaluation.write name value environment⟩

def andThen (first : Watched α) (next : α → Environment → Watched β) : Watched β :=
  match first.result with
  | .ok result reached =>
    ⟨first.lookups ++ (next result reached).lookups, (next result reached).result⟩
  | .error stop reached => ⟨first.lookups, .error stop reached⟩

/-- Why an evaluation stopped, if it did. -/
def stop? (watched : Watched α) : Option Stop :=
  match watched.result with
  | .ok _ _ => none
  | .error stop _ => some stop

theorem result_andThen (first : Watched α) (next : α → Environment → Watched β)
    (evaluation : Evaluation α) (goesOn : α → Evaluation β) (environment : Environment)
    (same : first.result = evaluation environment)
    (later : ∀ result reached, (next result reached).result = goesOn result reached) :
    (first.andThen next).result = (evaluation >>= goesOn) environment := by
  rw [Evaluation.bind_apply, ← same, andThen]
  cases first.result with
  | ok result reached => exact later result reached
  | error stop reached => rfl

end Watched

/-- The value of an expression, with the lookups made for it. -/
def Expr.watch (environment : Environment) : Expr → Watched Value
  | .literal value => .plain (pure value) environment
  | .group inner => inner.watch environment
  | .unary operator operand =>
    (operand.watch environment).andThen fun operand =>
      .plain (.ofOperation (Operation.unary operator operand))
  | .binary left operator right =>
    (left.watch environment).andThen fun left reached =>
      (right.watch reached).andThen fun right =>
        .plain (.ofOperation (Operation.binary operator left right))
  | .assign name value =>
    (value.watch environment).andThen fun value reached =>
      (Watched.write name value reached).andThen fun _ => .plain (pure value)
  | .var name => .read name environment
  | .misplaced found => .plain (throw (.notExpression found)) environment

theorem Expr.watch_result (environment : Environment) (expression : Expr) :
    (expression.watch environment).result = expression.eval environment := by
  induction expression generalizing environment with
  | literal value => rfl
  | group inner ih => exact ih environment
  | unary operator operand ih =>
      rw [watch, eval]
      exact Watched.result_andThen _ _ _ _ environment (ih environment) fun _ _ => rfl
  | binary left operator right first second =>
      rw [watch, eval]
      apply Watched.result_andThen _ _ _ _ environment (first environment)
      intro left reached
      exact Watched.result_andThen _ _ _ _ reached (second reached) fun _ _ => rfl
  | assign name value ih =>
      rw [watch, eval]
      apply Watched.result_andThen _ _ _ _ environment (ih environment)
      intro value reached
      exact Watched.result_andThen _ _ _ _ reached rfl fun _ _ => rfl
  | var name => rfl
  | misplaced found => rfl

/-- What comes of running statements, with the lookups made, in order. -/
structure WatchedExecution where
  lookups : List Lookup
  execution : Execution

namespace WatchedExecution

def andThen (first : WatchedExecution) (next : Environment → WatchedExecution) :
    WatchedExecution :=
  match first.execution.stop with
  | some _ => first
  | none =>
    ⟨first.lookups ++ (next first.execution.environment).lookups,
      first.execution.andThen fun environment => (next environment).execution⟩

def ofValue (expression : Expr) (environment : Environment)
    (next : Value → Environment → Execution) : WatchedExecution :=
  ⟨(expression.watch environment).lookups,
    match (expression.watch environment).result with
    | .ok value reached => next value reached
    | .error stop reached => ⟨[], reached, some stop⟩⟩

theorem execution_andThen (first : WatchedExecution) (next : Environment → WatchedExecution) :
    (first.andThen next).execution =
      first.execution.andThen fun environment => (next environment).execution := by
  rw [andThen]
  cases ended : first.execution.stop with
  | none => rfl
  | some stop => simp only [Execution.andThen, ended]

theorem execution_ofValue (expression : Expr) (environment : Environment)
    (next : Value → Environment → Execution) :
    (ofValue expression environment next).execution =
      .ofValue expression environment next := by
  cases ended : expression.eval environment with
  | ok value reached => simp only [ofValue, Execution.ofValue, Expr.watch_result, ended]
  | error stop reached => simp only [ofValue, Execution.ofValue, Expr.watch_result, ended]

end WatchedExecution

mutual

/-- Runs a statement under watch. -/
def Stmt.watch (environment : Environment) : Stmt → WatchedExecution
  | .expression inner => .ofValue inner environment fun _ environment => ⟨[], environment, none⟩
  | .print inner =>
    .ofValue inner environment fun value environment => ⟨[value.display], environment, none⟩
  | .declare name none => ⟨[], [], environment.define name.lexeme .nil, none⟩
  | .declare name (some initial) =>
    .ofValue initial environment fun value environment =>
      ⟨[], environment.define name.lexeme value, none⟩
  | .block body =>
    let inner := Stmt.watchAll environment.enter body
    ⟨inner.lookups, { inner.execution with environment := inner.execution.environment.leave }⟩
  | .misplaced found => ⟨[], [], environment, some (.notStatement found)⟩

/-- Runs statements under watch. -/
def Stmt.watchAll (environment : Environment) : List Stmt → WatchedExecution
  | [] => ⟨[], [], environment, none⟩
  | statement :: rest =>
    (Stmt.watch environment statement).andThen fun reached => Stmt.watchAll reached rest

end

mutual

theorem Stmt.watch_execution (environment : Environment) (statement : Stmt) :
    (Stmt.watch environment statement).execution = Stmt.exec environment statement := by
  match statement with
  | .expression inner => rw [watch, exec, WatchedExecution.execution_ofValue]
  | .print inner => rw [watch, exec, WatchedExecution.execution_ofValue]
  | .declare name none => rw [watch, exec]
  | .declare name (some initial) => rw [watch, exec, WatchedExecution.execution_ofValue]
  | .block body => rw [watch, exec, Stmt.watchAll_execution environment.enter body]
  | .misplaced found => rw [watch, exec]

/-- Watching a program does not change what comes of it. -/
theorem Stmt.watchAll_execution (environment : Environment) (statements : List Stmt) :
    (Stmt.watchAll environment statements).execution = Stmt.execAll environment statements := by
  match statements with
  | [] => rw [watchAll, execAll]
  | statement :: rest =>
      rw [watchAll, execAll, WatchedExecution.execution_andThen,
        Stmt.watch_execution environment statement]
      congr 1
      funext reached
      exact Stmt.watchAll_execution reached rest

end

end Lox

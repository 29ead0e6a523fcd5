import Lox.Proofs.Lines.Moved

/-!
What a program does has nothing to do with the lines its tokens are on. Only the error that stops
it is blamed on a token, and so on a line: `Expr.eval_moved`, `Stmt.execAll_moved`.
-/

set_option autoImplicit false

namespace Lox

variable (move : Int → Int)

namespace Operation

theorem moved_unary (operator : Token) (operand : Value) :
    unary (operator.moved move) operand =
      (unary operator operand).mapError (RuntimeError.moved move) := by
  unfold unary
  rw [Token.moved_kind]
  split <;> rfl

theorem moved_onNumbers (operator : Token) (compute : Float → Float → Value)
    (left right : Value) :
    onNumbers (operator.moved move) compute left right =
      (onNumbers operator compute left right).mapError (RuntimeError.moved move) := by
  unfold onNumbers
  split <;> rfl

theorem moved_add (operator : Token) (left right : Value) :
    add (operator.moved move) left right =
      (add operator left right).mapError (RuntimeError.moved move) := by
  unfold add
  split <;> rfl

theorem moved_binary (operator : Token) (left right : Value) :
    binary (operator.moved move) left right =
      (binary operator left right).mapError (RuntimeError.moved move) := by
  unfold binary
  rw [Token.moved_kind]
  split
  · exact moved_add move operator left right
  · exact moved_onNumbers move operator _ left right
  · exact moved_onNumbers move operator _ left right
  · exact moved_onNumbers move operator _ left right
  · exact moved_onNumbers move operator _ left right
  · exact moved_onNumbers move operator _ left right
  · exact moved_onNumbers move operator _ left right
  · exact moved_onNumbers move operator _ left right
  · rfl
  · rfl
  · rfl

end Operation

namespace Evaluation

variable {α β : Type}

def movedResult : EStateM.Result Stop Environment α → EStateM.Result Stop Environment α
  | .ok result environment => .ok result environment
  | .error stop environment => .error (stop.moved move) environment

/-- Two evaluations that do the same, except that the second stops on other lines. -/
def Moved (first second : Evaluation α) : Prop :=
  ∀ environment, second environment = movedResult move (first environment)

theorem Moved.pure (result : α) : Moved move (Pure.pure result) (Pure.pure result) := by
  intro environment
  rfl

theorem Moved.bind {first second : Evaluation α} {next later : α → Evaluation β}
    (same : Moved move first second) (goesOn : ∀ result, Moved move (next result) (later result)) :
    Moved move (first >>= next) (second >>= later) := by
  intro environment
  rw [bind_apply, bind_apply, same environment]
  cases first environment with
  | ok result reached => exact goesOn result reached
  | error stop reached => rfl

theorem Moved.ofOperation (result : Except RuntimeError α) :
    Moved move (.ofOperation result)
      (.ofOperation (result.mapError (RuntimeError.moved move))) := by
  intro environment
  cases result with
  | ok found => rfl
  | error error => rfl

theorem Moved.read (name : Token) : Moved move (.read name) (.read (name.moved move)) := by
  intro environment
  rw [read_apply, read_apply, Token.moved_lexeme]
  cases environment.get? name.lexeme with
  | some value => rfl
  | none => rfl

theorem Moved.write (name : Token) (value : Value) :
    Moved move (.write name value) (.write (name.moved move) value) := by
  intro environment
  rw [write_apply, write_apply, Token.moved_lexeme]
  cases environment.assign? name.lexeme value with
  | some changed => rfl
  | none => rfl

end Evaluation

/-- An expression on other lines has the same value, and fails on other lines. -/
theorem Expr.eval_moved (expression : Expr) :
    Evaluation.Moved move expression.eval (expression.moved move).eval := by
  induction expression with
  | literal value => exact .pure move value
  | group inner ih => exact ih
  | unary operator operand ih =>
      rw [Expr.moved, Expr.eval, Expr.eval]
      apply ih.bind
      intro value
      rw [Operation.moved_unary]
      exact .ofOperation move _
  | binary left operator right first second =>
      rw [Expr.moved, Expr.eval, Expr.eval]
      apply first.bind
      intro leftValue
      apply second.bind
      intro rightValue
      rw [Operation.moved_binary]
      exact .ofOperation move _
  | assign name value ih =>
      rw [Expr.moved, Expr.eval, Expr.eval]
      apply ih.bind
      intro result
      apply (Evaluation.Moved.write move name result).bind
      intro done
      exact .pure move result
  | var name => exact .read move name
  | misplaced found =>
      intro environment
      rfl

namespace Execution

theorem moved_andThen {first second : Execution} {next later : Environment → Execution}
    (same : second = first.moved move)
    (goesOn : ∀ environment, later environment = (next environment).moved move) :
    second.andThen later = (first.andThen next).moved move := by
  subst same
  unfold andThen
  cases stopped : first.stop with
  | some stop => simp [moved, stopped]
  | none => simp [moved, stopped, goesOn]

theorem moved_ofValue (expression : Expr) (environment : Environment)
    {next later : Value → Environment → Execution}
    (goesOn : ∀ value reached, later value reached = (next value reached).moved move) :
    ofValue (expression.moved move) environment later =
      (ofValue expression environment next).moved move := by
  unfold ofValue
  rw [expression.eval_moved move environment]
  cases expression.eval environment with
  | ok value reached => exact goesOn value reached
  | error stop reached => rfl

end Execution

theorem Stmt.exec_moved_mutual :
    (∀ environment statement, Stmt.exec environment (statement.moved move) =
      (Stmt.exec environment statement).moved move) ∧
      ∀ environment statements, Stmt.execAll environment (Stmt.allMoved move statements) =
        (Stmt.execAll environment statements).moved move := by
  apply Stmt.exec.mutual_induct
  case case1 =>
    intro environment inner
    rw [Stmt.moved, Stmt.exec, Stmt.exec]
    exact Execution.moved_ofValue move inner environment fun _ _ => rfl
  case case2 =>
    intro environment inner
    rw [Stmt.moved, Stmt.exec, Stmt.exec]
    exact Execution.moved_ofValue move inner environment fun _ _ => rfl
  case case3 =>
    intro environment name
    rw [Stmt.moved, Stmt.exec, Stmt.exec]
    rfl
  case case4 =>
    intro environment name initial
    rw [Stmt.moved, Stmt.exec, Stmt.exec]
    exact Execution.moved_ofValue move initial environment fun _ _ => rfl
  case case5 =>
    intro environment body ih
    rw [Stmt.moved, Stmt.exec, Stmt.exec, ih]
    rfl
  case case6 =>
    intro environment found
    rw [Stmt.moved, Stmt.exec]
    rfl
  case case7 =>
    intro environment
    rw [Stmt.allMoved, Stmt.execAll]
    rfl
  case case8 =>
    intro environment statement rest first second
    rw [Stmt.allMoved, Stmt.execAll, Stmt.execAll]
    exact Execution.moved_andThen move first second

/-- Statements on other lines do the same, and fail on other lines. -/
theorem Stmt.execAll_moved (environment : Environment) (statements : List Stmt) :
    Stmt.execAll environment (statements.map (Stmt.moved move)) =
      (Stmt.execAll environment statements).moved move := by
  rw [← Stmt.allMoved_eq_map]
  exact (Stmt.exec_moved_mutual move).2 environment statements

end Lox

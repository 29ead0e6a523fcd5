import Lox.Proofs.Tree.Proper
import Lox.Run

/-!
Proper trees are safe to run. What stops them is an error that the language has a message for: an
operand of the wrong type or a variable that is not there, and never an operator or a tree that
should not be where it is: `execAll_isOrdinary`.
-/

set_option autoImplicit false

namespace Lox

open Grammar

def RuntimeError.IsOrdinary : RuntimeError → Prop
  | .operation _ cause => cause ≠ .unknownUnary ∧ cause ≠ .unknownBinary
  | .undefinedVariable _ => True

def Stop.IsOrdinary : Stop → Prop
  | .failed error => error.IsOrdinary
  | .notExpression _ => False
  | .notStatement _ => False

namespace Operation

theorem onNumbers_error {operator : Token} {compute : Float → Float → Value} {left right : Value}
    {error : RuntimeError} (failed : onNumbers operator compute left right = .error error) :
    error = .operation operator .operandsNotNumbers := by
  unfold onNumbers at failed
  split at failed
  · cases failed
  · cases failed
    rfl

theorem add_error {operator : Token} {left right : Value} {error : RuntimeError}
    (failed : add operator left right = .error error) :
    error = .operation operator .operandsNotAddable := by
  unfold add at failed
  split at failed
  · cases failed
  · cases failed
  · cases failed
    rfl

/-- An operation on one operand fails for that operand, or because there is no such operation. -/
theorem unary_error {operator : Token} {operand : Value} {error : RuntimeError}
    (failed : unary operator operand = .error error) :
    error = .operation operator .operandNotNumber ∨
      error = .operation operator .unknownUnary ∧ operator.kind ∉ unaryOperators := by
  unfold unary at failed
  split at failed
  · cases failed
  · cases failed
  · cases failed
    exact Or.inl rfl
  · rename_i noBang noMinus noNumber
    cases failed
    refine Or.inr ⟨rfl, ?_⟩
    intro isOperator
    have kinds : operator.kind = .bang ∨ operator.kind = .minus := by
      simpa [unaryOperators] using isOperator
    exact kinds.elim noBang noMinus

/-- An operation on two operands fails for them, or because there is no such operation: the tiers
have all the operators. -/
theorem binary_error {operator : Token} {left right : Value} {error : RuntimeError}
    (failed : binary operator left right = .error error) :
    error = .operation operator .operandsNotNumbers ∨
      error = .operation operator .operandsNotAddable ∨
      error = .operation operator .unknownBinary ∧
        ∀ tier : Tier, operator.kind ∉ tier.operators := by
  unfold binary at failed
  split at failed
  · exact Or.inr (Or.inl (add_error failed))
  · exact Or.inl (onNumbers_error failed)
  · exact Or.inl (onNumbers_error failed)
  · exact Or.inl (onNumbers_error failed)
  · exact Or.inl (onNumbers_error failed)
  · exact Or.inl (onNumbers_error failed)
  · exact Or.inl (onNumbers_error failed)
  · exact Or.inl (onNumbers_error failed)
  · cases failed
  · cases failed
  · cases failed
    refine Or.inr (Or.inr ⟨rfl, ?_⟩)
    intro tier isOperator
    cases tier <;> simp only [Tier.operators, List.mem_cons, List.not_mem_nil] at isOperator <;>
      grind

theorem unary_isOrdinary {operator : Token} (isOperator : operator.kind ∈ unaryOperators)
    {operand : Value} {error : RuntimeError} (failed : unary operator operand = .error error) :
    error.IsOrdinary := by
  rcases unary_error failed with rfl | ⟨-, other⟩
  · exact ⟨nofun, nofun⟩
  · exact absurd isOperator other

theorem binary_isOrdinary {operator : Token} {tier : Tier}
    (isOperator : operator.kind ∈ tier.operators) {left right : Value} {error : RuntimeError}
    (failed : binary operator left right = .error error) : error.IsOrdinary := by
  rcases binary_error failed with rfl | rfl | ⟨-, other⟩
  · exact ⟨nofun, nofun⟩
  · exact ⟨nofun, nofun⟩
  · exact absurd isOperator (other tier)

end Operation

namespace Evaluation

variable {α β : Type}

/-- An evaluation that stops for ordinary reasons only. -/
def IsOrdinary (evaluation : Evaluation α) : Prop :=
  ∀ environment stop reached, evaluation environment = .error stop reached → stop.IsOrdinary

theorem IsOrdinary.pure (result : α) : IsOrdinary (Pure.pure result) := by
  intro environment stop reached stopped
  cases stopped

theorem IsOrdinary.bind {first : Evaluation α} {next : α → Evaluation β}
    (begins : first.IsOrdinary) (goesOn : ∀ result, (next result).IsOrdinary) :
    (first >>= next).IsOrdinary := by
  intro environment stop reached stopped
  rw [bind_apply] at stopped
  cases found : first environment with
  | ok result middle =>
      rw [found] at stopped
      exact goesOn result middle stop reached stopped
  | error earlier middle =>
      rw [found] at stopped
      cases stopped
      exact begins environment stop reached found

theorem IsOrdinary.ofOperation {result : Except RuntimeError α}
    (ordinary : ∀ error, result = .error error → error.IsOrdinary) :
    (ofOperation result).IsOrdinary := by
  intro environment stop reached stopped
  cases result with
  | ok found => cases stopped
  | error error =>
      cases stopped
      exact ordinary error rfl

theorem IsOrdinary.read (name : Token) : (read name).IsOrdinary := by
  intro environment stop reached stopped
  rw [read_apply] at stopped
  split at stopped
  · cases stopped
  · cases stopped
    trivial

theorem IsOrdinary.write (name : Token) (value : Value) : (write name value).IsOrdinary := by
  intro environment stop reached stopped
  rw [write_apply] at stopped
  split at stopped
  · cases stopped
  · cases stopped
    trivial

end Evaluation

theorem Expr.Proper.eval_isOrdinary {expression : Expr} (proper : expression.Proper) :
    Evaluation.IsOrdinary expression.eval := by
  induction proper with
  | literal value => exact .pure value
  | group proper ih => exact ih
  | unary isOperator proper ih =>
      apply ih.bind
      intro operand
      exact .ofOperation fun _ failed => Operation.unary_isOrdinary isOperator failed
  | binary tier isOperator proper properRight first second =>
      apply first.bind
      intro left
      apply second.bind
      intro right
      exact .ofOperation fun _ failed => Operation.binary_isOrdinary isOperator failed
  | assign name proper ih =>
      apply ih.bind
      intro value
      apply (Evaluation.IsOrdinary.write name value).bind
      intro done
      exact .pure value
  | var name => exact .read name

namespace Execution

def IsOrdinary (execution : Execution) : Prop :=
  ∀ stop ∈ execution.stop, stop.IsOrdinary

theorem IsOrdinary.andThen {first : Execution} {next : Environment → Execution}
    (begins : first.IsOrdinary) (goesOn : ∀ environment, (next environment).IsOrdinary) :
    (first.andThen next).IsOrdinary := by
  unfold Execution.andThen
  split
  · exact begins
  · exact goesOn first.environment

theorem IsOrdinary.ofValue {expression : Expr} (proper : expression.Proper)
    (environment : Environment) {next : Value → Environment → Execution}
    (goesOn : ∀ value reached, (next value reached).IsOrdinary) :
    (ofValue expression environment next).IsOrdinary := by
  unfold Execution.ofValue
  cases found : expression.eval environment with
  | ok value reached => exact goesOn value reached
  | error stop reached =>
      intro stopped member
      cases member
      exact proper.eval_isOrdinary environment stop reached found

theorem IsOrdinary.completed (printed : List String) (environment : Environment) :
    IsOrdinary ⟨printed, environment, none⟩ := by
  intro stop member
  cases member

/-- What an ordinary execution fails with, if it fails, is an error with a message. -/
theorem IsOrdinary.failure? {execution : Execution} (ordinary : execution.IsOrdinary) :
    ∃ failure : Option RuntimeError, execution.failure? = .ok failure ∧
      execution.stop = failure.map .failed ∧ ∀ error ∈ failure, error.IsOrdinary := by
  unfold Execution.failure?
  cases stopped : execution.stop with
  | none =>
      refine ⟨none, rfl, rfl, ?_⟩
      intro error member
      cases member
  | some stop =>
      have isOrdinary := ordinary stop stopped
      cases stop with
      | failed error =>
          refine ⟨some error, rfl, rfl, ?_⟩
          intro found member
          cases member
          exact isOrdinary
      | notExpression found => exact isOrdinary.elim
      | notStatement found => exact isOrdinary.elim

end Execution

namespace Stmt

theorem execAll_isOrdinary_of_each {statements : List Stmt}
    (each : ∀ statement ∈ statements, ∀ environment, (exec environment statement).IsOrdinary)
    (environment : Environment) : (execAll environment statements).IsOrdinary := by
  induction statements generalizing environment with
  | nil => exact .completed [] environment
  | cons statement rest ih =>
      rw [List.forall_mem_cons] at each
      rw [execAll]
      exact (each.1 environment).andThen (ih each.2)

theorem Proper.exec_isOrdinary {statement : Stmt} (proper : statement.Proper)
    (environment : Environment) : (exec environment statement).IsOrdinary := by
  induction proper generalizing environment with
  | expression proper =>
      rw [exec]
      exact .ofValue proper environment fun _ _ => .completed _ _
  | print proper =>
      rw [exec]
      exact .ofValue proper environment fun _ _ => .completed _ _
  | declare name =>
      rw [exec]
      exact .completed _ _
  | initialized name proper =>
      rw [exec]
      exact .ofValue proper environment fun _ _ => .completed _ _
  | block proper ih =>
      rw [exec]
      exact execAll_isOrdinary_of_each ih environment.enter

/-- A proper program stops for ordinary reasons only. -/
theorem execAll_isOrdinary {statements : List Stmt}
    (proper : ∀ statement ∈ statements, statement.Proper) (environment : Environment) :
    (execAll environment statements).IsOrdinary :=
  execAll_isOrdinary_of_each (fun statement member => (proper statement member).exec_isOrdinary)
    environment

end Stmt

end Lox

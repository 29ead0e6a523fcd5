import Lox.Proofs.Execution.Alike
import Lox.Proofs.Execution.Sequence
import Lox.Proofs.Scope.Holder

/-!
The names that statements leave declared. However they end, each open scope has the names that it
had, and the innermost has those of the declarations that came to their end besides:
`Stmt.execAll_declares`.
-/

set_option autoImplicit false

namespace Lox

namespace Environment

/-- The names of the open scopes, from the innermost outwards. -/
def names : Environment → List (List String)
  | .global scope => [scope.names]
  | .inner scope outer => scope.names :: outer.names

theorem declares_names (environment : Environment) : environment.Declares environment.names := by
  induction environment with
  | global scope => exact .global scope.mem_names
  | inner scope outer ih => exact .inner scope.mem_names ih

theorem names_eq (environment : Environment) :
    environment.names = environment.innermost.names :: environment.names.tail := by
  cases environment with
  | global scope => rfl
  | inner scope outer => rfl

theorem Declares.mem_innermost {environment : Environment} {names : List String}
    {outer : List (List String)} (declares : environment.Declares (names :: outer))
    (name : String) : name ∈ names ↔ environment.innermost.has name := by
  cases declares with
  | global same => exact same name
  | inner same rest => exact same name

end Environment

/-- Evaluation declares nothing. -/
theorem Expr.eval_declares (expression : Expr) {declared : List (List String)}
    {environment : Environment} (declares : environment.Declares declared) :
    (Evaluation.reached (expression.eval environment)).Declares declared :=
  expression.eval_keepsInvariant (fun before assigned => before.assign assigned) declares

namespace Execution

/-- The names declared after an execution: those given for its end, or those from before it if it
stopped. -/
def Declares (declared later : List (List String)) (execution : Execution) : Prop :=
  execution.environment.Declares (if execution.stop = none then later else declared)

variable {declared later : List (List String)}

theorem Declares.completed {environment : Environment} (declares : environment.Declares later)
    (printed : List String) : Declares declared later ⟨printed, environment, none⟩ :=
  declares

theorem Declares.stopped {environment : Environment} (declares : environment.Declares declared)
    (stop : Stop) : Declares declared later ⟨[], environment, some stop⟩ :=
  declares

theorem Declares.ofValue (expression : Expr) {environment : Environment}
    (declares : environment.Declares declared) {next : Value → Environment → Execution}
    (ends : ∀ value reached, Environment.Declares declared reached →
      (next value reached).Declares declared later) :
    (ofValue expression environment next).Declares declared later := by
  have still := expression.eval_declares declares
  unfold Execution.ofValue
  generalize expression.eval environment = result at still
  cases result with
  | ok value reached => exact ends value reached still
  | error stop reached => exact .stopped still stop

end Execution

namespace Stmt

/-- The statements that come to their end: those before the first that stops. -/
def completed (environment : Environment) : List Stmt → List Stmt
  | [] => []
  | statement :: rest =>
    let first := exec environment statement
    if first.stop.isSome then [] else statement :: completed first.environment rest

mutual

theorem exec_declares (statement : Stmt) {declared : List (List String)}
    {environment : Environment} (declares : environment.Declares declared) :
    (exec environment statement).Declares declared (statement.declares declared) := by
  match statement with
  | .expression inner =>
      rw [exec]
      exact .ofValue inner declares fun _ _ still => .completed still []
  | .print inner =>
      rw [exec]
      exact .ofValue inner declares fun value _ still => .completed still [value.display]
  | .declare name none =>
      rw [exec]
      exact .completed (declares.define name.lexeme .nil) []
  | .declare name (some initial) =>
      rw [exec]
      exact .ofValue initial declares fun value _ still =>
        .completed (still.define name.lexeme value) []
  | .block body =>
      rw [exec]
      have inside := execAll_declares body declares.enter
      obtain ⟨names, same, -⟩ :=
        exists_declaresAll [] declared (completed environment.enter body)
      rw [same] at inside
      have after := inside.leave declares.ne_nil
      unfold Execution.Declares
      rw [Stmt.declares, ite_self]
      exact after
  | .misplaced found =>
      rw [exec]
      exact .stopped declares (.notStatement found)

/-- However statements end, what is declared is what was declared and the declarations among them
that came to their end. -/
theorem execAll_declares (statements : List Stmt) {declared : List (List String)}
    {environment : Environment} (declares : environment.Declares declared) :
    (execAll environment statements).environment.Declares
      (declaresAll declared (completed environment statements)) := by
  match statements with
  | [] =>
      rw [execAll, completed]
      exact declares
  | statement :: rest =>
      have first := exec_declares statement declares
      unfold Execution.Declares at first
      rw [execAll, completed]
      cases ended : (exec environment statement).stop with
      | none =>
          rw [ended, if_pos rfl] at first
          rw [Execution.andThen_of_none ended]
          exact execAll_declares rest first
      | some stop =>
          rw [ended, if_neg nofun] at first
          rw [Execution.andThen_of_some ended]
          exact first

end

/-- Only the innermost scope has names more. -/
theorem exists_execAll_declares (environment : Environment) (statements : List Stmt) :
    ∃ later,
      (execAll environment statements).environment.Declares (later :: environment.names.tail) ∧
        ∀ name, name ∈ later ↔ environment.innermost.has name ∨
          name ∈ declaredNames (completed environment statements) := by
  have declares := execAll_declares statements environment.declares_names
  obtain ⟨later, same, members⟩ := exists_declaresAll environment.innermost.names
    environment.names.tail (completed environment statements)
  rw [environment.names_eq, same] at declares
  refine ⟨later, declares, fun name => ?_⟩
  rw [members, Scope.mem_names]

end Stmt

end Lox

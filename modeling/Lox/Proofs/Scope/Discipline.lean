import Lox.Interpreter
import Lox.Proofs.Environment.Chain
import Lox.Proofs.Execution.Depth

/-!
What an interpreter does to its scopes. Whatever it is asked to carry out, and however that ends, it
is left in the scope that it was in, and the only names that it adds are those of the declarations
that came to their end, in the scope that they are carried out in: `Interpreter.perform_scopes`. A
block is carried out as its nodes are in a new scope, which is then gone:
`Interpreter.execute_block`.
-/

set_option autoImplicit false

namespace Lox

namespace Interpreter

namespace Request

/-- The scope that a request is carried out in. -/
def scope (current : Nat) : Request → Nat
  | .executeBlock _ scope => scope
  | .interpret _ | .execute _ | .evaluate _ => current

/-- The statements of a request. An expression alone is none. -/
def statements : Request → List Stmt
  | .interpret nodes | .executeBlock nodes _ => Node.toStmts nodes
  | .execute node => [node.toStmt]
  | .evaluate _ => []

/-- What comes of a request in an environment. -/
def run (environment : Environment) : Request → Execution
  | .interpret nodes | .executeBlock nodes _ => Stmt.execAll environment (Node.toStmts nodes)
  | .execute node => Stmt.exec environment node.toStmt
  | .evaluate node => .ofValue node.toExpr environment fun _ reached => ⟨[], reached, none⟩

/-- What comes of an expression has the names that were there. -/
theorem run_evaluate_declares (node : Node) (environment : Environment) :
    ((evaluate node).run environment).environment.Declares environment.names := by
  have declares : Execution.Declares environment.names environment.names
      ((evaluate node).run environment) :=
    .ofValue node.toExpr environment.declares_names fun _ _ still => .completed still []
  unfold Execution.Declares at declares
  rwa [ite_self] at declares

theorem run_evaluate_printed (node : Node) (environment : Environment) :
    ((evaluate node).run environment).printed = [] := by
  rw [run, Execution.ofValue]
  cases node.toExpr.eval environment with
  | ok value reached => rfl
  | error stop reached => rfl

/-- The scopes open at the end are those open at the start. The innermost has the names besides of
the declarations that came to their end. -/
theorem exists_run_declares (request : Request) (environment : Environment) :
    ∃ later, (request.run environment).environment.Declares (later :: environment.names.tail) ∧
      ∀ name, name ∈ later ↔ environment.innermost.has name ∨
        name ∈ Stmt.declaredNames (Stmt.completed environment request.statements) := by
  cases request with
  | interpret nodes => exact Stmt.exists_execAll_declares environment (Node.toStmts nodes)
  | executeBlock nodes scope => exact Stmt.exists_execAll_declares environment (Node.toStmts nodes)
  | execute node =>
      rw [run, ← Stmt.execAll_singleton]
      exact Stmt.exists_execAll_declares environment [node.toStmt]
  | evaluate node =>
      have declares := run_evaluate_declares node environment
      rw [environment.names_eq] at declares
      refine ⟨environment.innermost.names, declares, fun name => ?_⟩
      simp [Scope.mem_names, statements, Stmt.completed, Stmt.declaredNames]

end Request

theorem inCurrent_of_found {interpreter : Interpreter} {environment : Environment}
    (found : interpreter.forest.environment? interpreter.current = some environment)
    (run : Environment → Execution) :
    interpreter.inCurrent run =
      some (⟨interpreter.forest.put interpreter.current (run environment).environment,
        interpreter.current⟩, run environment) := by
  rw [inCurrent, found]
  rfl

/-- What a request does to the environment of its scope. -/
theorem perform_of_found (interpreter : Interpreter) (request : Request)
    {environment : Environment}
    (found : interpreter.forest.environment? (request.scope interpreter.current) =
      some environment) :
    interpreter.perform request =
      some (⟨interpreter.forest.put (request.scope interpreter.current)
        (request.run environment).environment, interpreter.current⟩, request.run environment) := by
  cases request with
  | interpret nodes => exact inCurrent_of_found found _
  | execute node => exact inCurrent_of_found found _
  | evaluate node => exact inCurrent_of_found found _
  | executeBlock nodes scope =>
      have moved : ({ interpreter with current := scope } : Interpreter).interpret nodes = some _ :=
        inCurrent_of_found found _
      rw [perform, executeBlock, moved]
      rfl

/-- A block is executed as its nodes are in a new scope inside the current one, and that scope is
then gone. -/
theorem execute_block (interpreter : Interpreter) (nodes : List Node) {environment : Environment}
    (found : interpreter.forest.environment? interpreter.current = some environment) :
    let opened := interpreter.forest.new (some interpreter.current)
    ∃ scope forest execution,
      executeBlock ⟨opened, interpreter.current⟩ nodes interpreter.forest.frames.length =
        some (⟨⟨⟨scope, some interpreter.current⟩ :: forest.frames⟩, interpreter.current⟩,
          execution) ∧
        interpreter.execute (.block nodes) = some (⟨forest, interpreter.current⟩,
          { execution with environment := execution.environment.leave }) := by
  intro opened
  have inside : opened.environment? interpreter.forest.frames.length = some environment.enter :=
    (Forest.Begins.inside (Forest.begins_of_found found)).found
  let execution := Stmt.execAll environment.enter (Node.toStmts nodes)
  have performed := perform_of_found ⟨opened, interpreter.current⟩
    (.executeBlock nodes interpreter.forest.frames.length) inside
  have put : opened.put interpreter.forest.frames.length execution.environment =
      ⟨⟨execution.environment.innermost, some interpreter.current⟩ ::
        (interpreter.forest.put interpreter.current execution.environment.leave).frames⟩ :=
    congrArg Forest.mk (Forest.putIn_inside _ _ _ _)
  refine ⟨execution.environment.innermost,
    interpreter.forest.put interpreter.current execution.environment.leave, execution,
    performed.trans ?_, inCurrent_of_found found _⟩
  rw [← put]
  rfl

/-- However a request ends, the interpreter is in the scope that it was in, and the scope of the
request and those around it are the environment that it ended in. In the scope of the request are
the names besides of the declarations that came to their end; no other scope has other names than
before, and no name is lost. An expression adds no name and prints nothing. -/
theorem perform_scopes (interpreter : Interpreter) (request : Request) {environment : Environment}
    (found : interpreter.forest.environment? (request.scope interpreter.current) =
      some environment) :
    ∃ after, interpreter.perform request = some (after, request.run environment) ∧
      after.current = interpreter.current ∧
      after.forest.parents = interpreter.forest.parents ∧
      (request.run environment).environment.depth = environment.depth ∧
      after.forest.environment? (request.scope interpreter.current) =
        some (request.run environment).environment ∧
      (∀ number name, after.forest.has number name ↔ interpreter.forest.has number name ∨
        number = request.scope interpreter.current ∧
          name ∈ Stmt.declaredNames (Stmt.completed environment request.statements)) ∧
      ∀ node, request = .evaluate node → (request.run environment).printed = [] ∧
        ∀ number name, after.forest.has number name ↔ interpreter.forest.has number name := by
  obtain ⟨later, declares, members⟩ := request.exists_run_declares environment
  obtain ⟨again, names⟩ := Forest.put_spec found declares members
  have before := environment.declares_names
  rw [environment.names_eq] at before
  refine ⟨_, interpreter.perform_of_found request found, rfl, Forest.parents_putIn _ _ _, ?_,
    again, names, ?_⟩
  · rw [before.depth_eq, declares.depth_eq]
  · rintro node rfl
    refine ⟨Request.run_evaluate_printed node environment, fun number name => ?_⟩
    simpa [Request.statements, Stmt.completed, Stmt.declaredNames] using names number name

/-- In the global scope, number 0, are the scopes 1 and 2, and 1 is current. In 2, `var a; { var b;
a = b; x = a; } ... var c;` is executed with a gap for the dots: it adds `a` to scope 2, and has
changed the global `x`, when it stops at the gap. -/
theorem perform_scopes_gap :
    let token := fun name : String => (⟨.identifier, name, .nil, 1⟩ : Token)
    let forest : Forest := ⟨[⟨.empty, some 0⟩, ⟨⟨[("y", .nil)]⟩, some 0⟩,
      ⟨⟨[("x", .boolean true)]⟩, none⟩]⟩
    let nodes : List Node := [.declare (token "a") .missing,
      .block [.declare (token "b") .missing,
        .expression (.assign (token "a") (.var (token "b"))),
        .expression (.assign (token "x") (.var (token "a")))],
      .missing, .declare (token "c") .missing]
    ∃ after execution,
      Interpreter.perform ⟨forest, 1⟩ (.executeBlock nodes 2) = some (after, execution) ∧
        execution.stop = some (.notStatement .missing) ∧ after.current = 1 ∧
        after.forest.environment? 2 =
          some (.inner ⟨[("a", .nil)]⟩ (.global ⟨[("x", .nil)]⟩)) ∧
        after.forest.has 2 "a" ∧ ¬after.forest.has 2 "c" ∧ ¬after.forest.has 1 "a" := by
  intro token forest nodes
  have found : forest.environment? 2 =
      some (.inner .empty (.global ⟨[("x", .boolean true)]⟩)) := rfl
  obtain ⟨after, performed, current, -, -, ended, names, -⟩ :=
    perform_scopes ⟨forest, 1⟩ (.executeBlock nodes 2) found
  refine ⟨after, _, performed, rfl, current, ended.trans rfl, (names 2 "a").2 (.inr ?_), ?_, ?_⟩
  · exact ⟨rfl, by decide⟩
  · rw [names]
    decide
  · rw [names]
    decide

end Interpreter

end Lox

import Lox.Evaluation

/-!
Expressions worked out on a stack. The nodes of a tree in post-order, operands from left to right
before their operator and a value before its assignment, are the steps of a machine that keeps the
operands in between on a stack; a group is no step. What an expression comes to is what the machine
comes to, and where it stops is the first step that the machine cannot take:
`Expr.eval_postorder`.
-/

set_option autoImplicit false

namespace Lox

/-- A step of the machine. -/
inductive StackStep where
  /-- Puts a value on the stack. -/
  | literal (value : Value)
  /-- Puts the value of a variable on the stack. -/
  | read (name : Token)
  /-- Gives a variable the value on top, which stays there. -/
  | write (name : Token)
  /-- Puts the result of an operator in the place of its operand. -/
  | unary (operator : Token)
  /-- Puts the result of an operator in the place of its two operands, the right one on top. -/
  | binary (operator : Token)
  /-- A tree that is no expression. -/
  | misplaced (found : Node)

/-- The nodes of an expression in post-order, as steps. -/
def Expr.postorder : Expr → List StackStep
  | .literal value => [.literal value]
  | .group inner => inner.postorder
  | .unary operator operand => operand.postorder ++ [.unary operator]
  | .binary left operator right => left.postorder ++ right.postorder ++ [.binary operator]
  | .assign name value => value.postorder ++ [.write name]
  | .var name => [.read name]
  | .misplaced found => [.misplaced found]

/-- The machine: the operands that wait, the last one on top, and the variables. -/
structure StackMachine where
  stack : List Value
  environment : Environment

namespace StackMachine

/-- Why a step cannot be taken. -/
inductive Fault where
  | stopped (stop : Stop)
  /-- The stack has too few operands. -/
  | underflow

/-- The machine with the result of an operation on top of a stack. -/
def put (stack : List Value) (environment : Environment) :
    Except RuntimeError Value → Except Fault StackMachine
  | .ok result => .ok ⟨result :: stack, environment⟩
  | .error error => .error (.stopped (.failed error))

/-- Takes a step. -/
def take (machine : StackMachine) (step : StackStep) : Except Fault StackMachine :=
  match step, machine with
  | .literal value, ⟨stack, environment⟩ => .ok ⟨value :: stack, environment⟩
  | .read name, ⟨stack, environment⟩ =>
    match environment.get? name.lexeme with
    | some value => .ok ⟨value :: stack, environment⟩
    | none => .error (.stopped (.failed (.undefinedVariable name)))
  | .write name, ⟨value :: stack, environment⟩ =>
    match environment.assign? name.lexeme value with
    | some changed => .ok ⟨value :: stack, changed⟩
    | none => .error (.stopped (.failed (.undefinedVariable name)))
  | .unary operator, ⟨operand :: stack, environment⟩ =>
    put stack environment (Operation.unary operator operand)
  | .binary operator, ⟨right :: left :: stack, environment⟩ =>
    put stack environment (Operation.binary operator left right)
  | .misplaced found, _ => .error (.stopped (.notExpression found))
  | _, _ => .error .underflow

/-- What comes of taking steps. -/
inductive Outcome where
  | finished (machine : StackMachine)
  /-- A step could not be taken where the machine stood then. -/
  | failed (fault : Fault) (machine : StackMachine)

/-- Takes steps in order, up to the first that cannot be taken. -/
def run (machine : StackMachine) : List StackStep → Outcome
  | [] => .finished machine
  | step :: rest =>
    match machine.take step with
    | .ok next => next.run rest
    | .error fault => .failed fault machine

theorem run_append (machine : StackMachine) (front back : List StackStep) :
    machine.run (front ++ back) =
      match machine.run front with
      | .finished next => next.run back
      | .failed fault reached => .failed fault reached := by
  induction front generalizing machine with
  | nil => rfl
  | cons step front ih =>
      rw [List.cons_append, run, run]
      cases machine.take step with
      | ok next => exact ih next
      | error fault => rfl

theorem run_singleton (machine : StackMachine) (step : StackStep) :
    machine.run [step] =
      match machine.take step with
      | .ok next => .finished next
      | .error fault => .failed fault machine := rfl

/-- A run fails at the first step that cannot be taken, on the machine that the steps before it
leave. -/
theorem exists_of_run_failed {machine reached : StackMachine} {steps : List StackStep}
    {fault : Fault} (failed : machine.run steps = .failed fault reached) :
    ∃ front step back, steps = front ++ step :: back ∧ machine.run front = .finished reached ∧
      reached.take step = .error fault := by
  induction steps generalizing machine with
  | nil => cases failed
  | cons step rest ih =>
      rw [run] at failed
      cases taken : machine.take step with
      | error found =>
          rw [taken] at failed
          cases failed
          exact ⟨[], step, rest, rfl, rfl, taken⟩
      | ok next =>
          rw [taken] at failed
          obtain ⟨front, last, back, rfl, went, stopped⟩ := ih failed
          refine ⟨step :: front, last, back, rfl, ?_, stopped⟩
          rw [run, taken]
          exact went

/-- What comes of steps agrees with what an evaluation comes to: its value is on top of a stack, or
its reason to stop is that of the step that failed. The variables are the same in any case. -/
def Outcome.Agrees (outcome : Outcome) (stack : List Value) :
    EStateM.Result Stop Environment Value → Prop
  | .ok value reached => outcome = .finished ⟨value :: stack, reached⟩
  | .error stop reached => ∃ left, outcome = .failed (.stopped stop) ⟨left, reached⟩

/-- Steps and then others agree with an evaluation that goes on. The others find the first value on
the stack `inner` and leave the last one on `stack`. -/
theorem agrees_bind {machine : StackMachine} {steps more : List StackStep}
    {inner stack : List Value} {first : Evaluation Value} {next : Value → Evaluation Value}
    {environment : Environment}
    (begins : (machine.run steps).Agrees inner (first environment))
    (goesOn : ∀ value reached,
      (run ⟨value :: inner, reached⟩ more).Agrees stack (next value reached)) :
    (machine.run (steps ++ more)).Agrees stack ((first >>= next) environment) := by
  rw [Evaluation.bind_apply, run_append]
  cases found : first environment with
  | ok value reached =>
      rw [found] at begins
      have went : machine.run steps = .finished ⟨value :: inner, reached⟩ := begins
      rw [went]
      exact goesOn value reached
  | error stop reached =>
      rw [found] at begins
      obtain ⟨left, failed⟩ := begins
      rw [failed]
      exact ⟨left, rfl⟩

theorem agrees_pure (value : Value) (stack : List Value) (environment : Environment) :
    (Outcome.finished ⟨value :: stack, environment⟩).Agrees stack
      ((pure value : Evaluation Value) environment) := rfl

/-- An operation agrees with a step that puts its result on the stack. -/
theorem agrees_ofOperation {machine : StackMachine} {step : StackStep} {stack : List Value}
    {environment : Environment} {result : Except RuntimeError Value}
    (same : machine.environment = environment)
    (puts : machine.take step = put stack environment result) :
    (machine.run [step]).Agrees stack (Evaluation.ofOperation result environment) := by
  obtain ⟨before, _⟩ := machine
  obtain rfl := same
  rw [run_singleton, puts]
  cases result with
  | ok value => exact agrees_pure value stack _
  | error error => exact ⟨before, rfl⟩

theorem agrees_read (name : Token) (stack : List Value) (environment : Environment) :
    (run ⟨stack, environment⟩ [.read name]).Agrees stack (Evaluation.read name environment) := by
  rw [run_singleton, take, Evaluation.read_apply]
  cases environment.get? name.lexeme with
  | some value => exact agrees_pure value stack environment
  | none => exact ⟨stack, rfl⟩

theorem agrees_write (name : Token) (value : Value) (stack : List Value)
    (environment : Environment) :
    (run ⟨value :: stack, environment⟩ [.write name]).Agrees stack
      ((Evaluation.write name value >>= fun _ => pure value) environment) := by
  rw [run_singleton, take, Evaluation.bind_apply, Evaluation.write_apply]
  cases environment.assign? name.lexeme value with
  | some changed => exact agrees_pure value stack changed
  | none => exact ⟨value :: stack, rfl⟩

/-- The induction is on the tree, on top of any stack. -/
theorem run_postorder (tree : Expr) (stack : List Value) (environment : Environment) :
    (run ⟨stack, environment⟩ tree.postorder).Agrees stack (tree.eval environment) := by
  induction tree generalizing stack environment with
  | literal value => exact agrees_pure value stack environment
  | group inner ih => exact ih stack environment
  | unary operator operand ih =>
      apply agrees_bind (ih stack environment)
      intro value reached
      exact agrees_ofOperation rfl rfl
  | binary left operator right ihLeft ihRight =>
      rw [Expr.postorder, List.append_assoc]
      apply agrees_bind (ihLeft stack environment)
      intro leftValue middle
      apply agrees_bind (ihRight (leftValue :: stack) middle)
      intro rightValue reached
      exact agrees_ofOperation rfl rfl
  | assign name value ih =>
      apply agrees_bind (ih stack environment)
      intro found reached
      exact agrees_write name found stack reached
  | var name => exact agrees_read name stack environment
  | misplaced found => exact ⟨stack, rfl⟩

end StackMachine

/-- An expression comes to the value that the steps of its post-order leave on an empty stack, with
the variables as they leave them. If it stops, a first step of them cannot be taken, for the same
reason, and the variables are those that the steps before it leave. -/
theorem Expr.eval_postorder (tree : Expr) (environment : Environment) :
    let start : StackMachine := ⟨[], environment⟩
    match tree.eval environment with
    | .ok value reached => start.run tree.postorder = .finished ⟨[value], reached⟩
    | .error stop reached => ∃ front step back stack, tree.postorder = front ++ step :: back ∧
        start.run front = .finished ⟨stack, reached⟩ ∧
          StackMachine.take ⟨stack, reached⟩ step = .error (.stopped stop) := by
  intro start
  have agrees := StackMachine.run_postorder tree [] environment
  cases found : tree.eval environment with
  | ok value reached =>
      rw [found] at agrees
      exact agrees
  | error stop reached =>
      rw [found] at agrees
      obtain ⟨stack, failed⟩ := agrees
      obtain ⟨front, step, back, split, went, stopped⟩ := StackMachine.exists_of_run_failed failed
      exact ⟨front, step, back, stack, split, went, stopped⟩

end Lox

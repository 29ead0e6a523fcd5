import Lox.Run

/-!
Statements in sequence. Running a list of statements and then another is running both as one list,
and what the first list prints stays in front.
-/

set_option autoImplicit false

namespace Lox

namespace Execution

/-- An execution with the texts that were printed before it. -/
def precededBy (printed : List String) (execution : Execution) : Execution :=
  { execution with printed := printed ++ execution.printed }

theorem andThen_of_none {first : Execution} (ended : first.stop = none)
    (next : Environment → Execution) :
    first.andThen next = (next first.environment).precededBy first.printed := by
  unfold andThen
  rw [ended]
  rfl

theorem andThen_of_some {first : Execution} {stop : Stop} (stopped : first.stop = some stop)
    (next : Environment → Execution) : first.andThen next = first := by
  unfold andThen
  rw [stopped]

theorem precededBy_andThen (printed : List String) (first : Execution)
    (next : Environment → Execution) :
    (first.precededBy printed).andThen next = (first.andThen next).precededBy printed := by
  cases ended : first.stop with
  | some stop =>
      have stopped : (first.precededBy printed).stop = some stop := ended
      rw [andThen_of_some ended, andThen_of_some stopped]
  | none =>
      have still : (first.precededBy printed).stop = none := ended
      rw [andThen_of_none ended, andThen_of_none still]
      simp only [precededBy, List.append_assoc]

theorem andThen_assoc (first : Execution) (second third : Environment → Execution) :
    (first.andThen second).andThen third =
      first.andThen fun environment => (second environment).andThen third := by
  cases ended : first.stop with
  | some stop => rw [andThen_of_some ended, andThen_of_some ended, andThen_of_some ended]
  | none => rw [andThen_of_none ended, andThen_of_none ended, precededBy_andThen]

theorem output_precededBy (first second : Execution) :
    (second.precededBy first.printed).output = first.output ++ second.output := by
  simp only [output, precededBy, List.map_append, String.join_append]

end Execution

/-- A statement alone is run as a list of one. -/
theorem Stmt.execAll_singleton (environment : Environment) (statement : Stmt) :
    execAll environment [statement] = exec environment statement := by
  rw [execAll]
  cases ended : (exec environment statement).stop with
  | some stop => rw [Execution.andThen_of_some ended]
  | none =>
      rw [Execution.andThen_of_none ended, execAll]
      simp only [Execution.precededBy, List.append_nil, ← ended]

theorem Stmt.execAll_append (environment : Environment) (first second : List Stmt) :
    execAll environment (first ++ second) =
      (execAll environment first).andThen fun reached => execAll reached second := by
  induction first generalizing environment with
  | nil =>
      rw [execAll, Execution.andThen_of_none rfl]
      rfl
  | cons statement rest ih =>
      rw [List.cons_append, execAll, execAll, Execution.andThen_assoc]
      congr 1
      funext reached
      exact ih reached

end Lox

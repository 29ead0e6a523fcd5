import Mathlib.Data.List.Forall2
import Lox.Proofs.Execution.Safety
import Lox.Proofs.Execution.Sequence
import Lox.Proofs.Scope.Holder
import Lox.Proofs.Scope.Watch

/-!
Names are looked up where they resolve to. A program looks its names up in the order in which they
are resolved, each of them in the scope it resolves to; it stops at the first that resolves to none,
unless it stops before: `Stmt.watchAll_resolved`.
-/

set_option autoImplicit false

namespace Lox

/-- A lookup goes to the scope it resolves to. -/
structure Lookup.Agrees (lookup : Lookup) (resolution : Resolution) : Prop where
  same : resolution.occurrence = lookup.occurrence
  hits : lookup.environment.Hits lookup.occurrence.name.lexeme resolution.level

/-- A lookup that agrees with its resolution and is found. -/
def Lookup.Found (lookup : Lookup) (resolution : Resolution) : Prop :=
  lookup.Agrees resolution ∧ resolution.level ≠ none

/-- How lookups relate to the resolutions of a program, by how it stops. -/
inductive Follows : List Lookup → List Resolution → Option Stop → Prop where
  | done {lookups : List Lookup} {resolutions : List Resolution}
      (found : List.Forall₂ Lookup.Found lookups resolutions) : Follows lookups resolutions none
  | missing {lookups : List Lookup} {resolutions rest : List Resolution} {lookup : Lookup}
      {resolution : Resolution} (found : List.Forall₂ Lookup.Found lookups resolutions)
      (agrees : lookup.Agrees resolution) (nowhere : resolution.level = none) :
      Follows (lookups ++ [lookup]) (resolutions ++ resolution :: rest)
        (some (.failed (.undefinedVariable lookup.occurrence.name)))
  | stopped {lookups : List Lookup} {resolutions rest : List Resolution} {stop : Stop}
      (found : List.Forall₂ Lookup.Found lookups resolutions)
      (other : ∀ name, stop ≠ .failed (.undefinedVariable name)) :
      Follows lookups (resolutions ++ rest) (some stop)

namespace Follows

variable {lookups later : List Lookup} {resolutions more : List Resolution}

theorem append {stop : Option Stop} (first : Follows lookups resolutions none)
    (second : Follows later more stop) : Follows (lookups ++ later) (resolutions ++ more) stop := by
  generalize ended : (none : Option Stop) = before at first
  cases first with
  | done found =>
      cases second with
      | done also => exact .done (List.rel_append found also)
      | missing also agrees nowhere =>
          rw [← List.append_assoc, ← List.append_assoc]
          exact .missing (List.rel_append found also) agrees nowhere
      | stopped also other =>
          rw [← List.append_assoc]
          exact .stopped (List.rel_append found also) other
  | missing found agrees nowhere => cases ended
  | stopped found other => cases ended

/-- What comes after a stop is not reached. -/
theorem before {stop : Stop} (first : Follows lookups resolutions (some stop))
    (more : List Resolution) : Follows lookups (resolutions ++ more) (some stop) := by
  cases first with
  | missing found agrees nowhere =>
      rw [List.append_assoc, List.cons_append]
      exact .missing found agrees nowhere
  | stopped found other =>
      rw [List.append_assoc]
      exact .stopped found other

variable {stop : Option Stop}

/-- The lookups made agree with the first resolutions, one by one. -/
theorem agrees (follows : Follows lookups resolutions stop) :
    List.Forall₂ Lookup.Agrees lookups (resolutions.take lookups.length) := by
  cases follows with
  | done found =>
      rw [found.length_eq, List.take_length]
      exact found.imp fun _ _ both => both.1
  | @missing lookups resolutions rest lookup resolution found agrees nowhere =>
      have split : resolutions ++ resolution :: rest = (resolutions ++ [resolution]) ++ rest := by
        rw [List.append_assoc, List.singleton_append]
      have all := List.rel_append (found.imp fun _ _ both => both.1) (.cons agrees .nil)
      rw [split, List.take_left' all.length_eq.symm]
      exact all
  | stopped found other =>
      rw [List.take_left' found.length_eq.symm]
      exact found.imp fun _ _ both => both.1

theorem levels_of_found (found : List.Forall₂ Lookup.Found lookups resolutions) :
    ∀ resolution ∈ resolutions, resolution.level ≠ none := by
  induction found with
  | nil => exact List.forall_mem_nil _
  | cons first rest ih => exact List.forall_mem_cons.2 ⟨first.2, ih⟩

theorem level_of_index (found : List.Forall₂ Lookup.Found lookups resolutions) {index : Nat}
    {resolution : Resolution} (within : index < lookups.length)
    (resolved : (resolutions ++ more)[index]? = some resolution) : resolution.level ≠ none := by
  rw [List.getElem?_append_left (found.length_eq ▸ within)] at resolved
  exact levels_of_found found resolution (List.mem_of_getElem? resolved)

/-- A name that resolves to nothing is looked up last, and then the program stops. -/
theorem missing_iff (follows : Follows lookups resolutions stop) {index : Nat} {lookup : Lookup}
    {resolution : Resolution} (looked : lookups[index]? = some lookup)
    (resolved : resolutions[index]? = some resolution) :
    resolution.level = none ↔
      index + 1 = lookups.length ∧
        stop = some (.failed (.undefinedVariable lookup.occurrence.name)) := by
  obtain ⟨within, -⟩ := List.getElem?_eq_some_iff.1 looked
  cases follows with
  | done found =>
      rw [← List.append_nil resolutions] at resolved
      exact iff_of_false (level_of_index found within resolved) fun last => nomatch last.2
  | @missing lookups resolutions rest final nothing found agrees nowhere =>
      rw [List.length_append, List.length_singleton] at within ⊢
      rcases Nat.lt_or_eq_of_le (Nat.le_of_lt_succ within) with earlier | last
      · apply iff_of_false (level_of_index found earlier resolved)
        rintro ⟨last, -⟩
        omega
      · rw [last, List.getElem?_concat_length, Option.some.injEq] at looked
        rw [last, found.length_eq, List.getElem?_append_right (Nat.le_refl _), Nat.sub_self,
          List.getElem?_cons_zero, Option.some.injEq] at resolved
        rw [← looked, ← resolved, last]
        exact iff_of_true nowhere ⟨rfl, rfl⟩
  | stopped found other =>
      apply iff_of_false (level_of_index found within resolved)
      rintro ⟨-, same⟩
      exact other _ (Option.some.inj same)

theorem stop_ne (follows : Follows lookups resolutions stop)
    (known : ∀ resolution ∈ resolutions, resolution.level ≠ none) (name : Token) :
    stop ≠ some (.failed (.undefinedVariable name)) := by
  cases follows with
  | done found => exact nofun
  | missing found agrees nowhere => exact absurd nowhere (known _ (by simp))
  | stopped found other =>
      intro same
      exact other name (Option.some.inj same)

theorem of_completed (follows : Follows lookups resolutions none) :
    lookups.length = resolutions.length ∧
      ∀ resolution ∈ resolutions, resolution.level ≠ none := by
  generalize ended : (none : Option Stop) = stop at follows
  cases follows with
  | done found => exact ⟨found.length_eq, levels_of_found found⟩
  | missing found agrees nowhere => cases ended
  | stopped found other => cases ended

end Follows

namespace Operation

/-- An operation fails for reasons of its own, never for want of a variable. -/
theorem unary_cause {operator : Token} {operand : Value} {error : RuntimeError}
    (failed : unary operator operand = .error error) :
    ∃ cause, error = .operation operator cause := by
  rcases unary_error failed with same | ⟨same, -⟩
  · exact ⟨_, same⟩
  · exact ⟨_, same⟩

theorem binary_cause {operator : Token} {left right : Value} {error : RuntimeError}
    (failed : binary operator left right = .error error) :
    ∃ cause, error = .operation operator cause := by
  rcases binary_error failed with same | same | ⟨same, -⟩
  · exact ⟨_, same⟩
  · exact ⟨_, same⟩
  · exact ⟨_, same⟩

end Operation

namespace Evaluation

variable {name : Token} {environment : Environment} {level : Nat} (value : Value)

theorem read_of_found (hits : environment.Hits name.lexeme (some level)) :
    ∃ value, read name environment = .ok value environment := by
  cases hits with
  | found level scope there has nearest reads writes =>
      obtain ⟨value, got⟩ := Scope.get?_of_has has
      refine ⟨value, ?_⟩
      rw [read_apply, reads, got]

theorem read_of_missing (hits : environment.Hits name.lexeme none) :
    read name environment = .error (.failed (.undefinedVariable name)) environment := by
  cases hits with
  | missing nowhere reads writes => rw [read_apply, reads]

theorem write_of_found (hits : environment.Hits name.lexeme (some level)) :
    ∃ changed, environment.assign? name.lexeme value = some changed ∧
      write name value environment = .ok () changed := by
  cases hits with
  | found level scope there has nearest reads writes =>
      obtain ⟨changed, assigned, -⟩ := writes value
      refine ⟨changed, assigned, ?_⟩
      rw [write_apply, assigned]

theorem write_of_missing (hits : environment.Hits name.lexeme none) :
    write name value environment = .error (.failed (.undefinedVariable name)) environment := by
  cases hits with
  | missing nowhere reads writes => rw [write_apply, writes]

end Evaluation

namespace Watched

variable {α β : Type} {declared : List (List String)} {environment : Environment}

/-- An evaluation whose lookups follow the resolutions given, with the same names declared after
it. -/
structure Resolves (declared : List (List String)) (resolutions : List Resolution)
    (watched : Watched α) : Prop where
  follows : Follows watched.lookups resolutions watched.stop?
  declares : ∀ result reached, watched.result = .ok result reached →
    reached.Declares declared

theorem Resolves.of_error {watched : Watched α} {resolutions : List Resolution} {stop : Stop}
    {reached : Environment} (ended : watched.result = .error stop reached)
    (follows : Follows watched.lookups resolutions (some stop)) :
    watched.Resolves declared resolutions := by
  constructor
  · rw [stop?, ended]
    exact follows
  · intro result environment found
    rw [ended] at found
    cases found

theorem Resolves.andThen {first : Watched α} {next : α → Environment → Watched β}
    {resolutions more : List Resolution} (begins : first.Resolves declared resolutions)
    (goesOn : ∀ result reached, Environment.Declares declared reached →
      (next result reached).Resolves declared more) :
    (first.andThen next).Resolves declared (resolutions ++ more) := by
  obtain ⟨follows, declares⟩ := begins
  rw [stop?] at follows
  rw [Watched.andThen]
  cases ended : first.result with
  | ok result reached =>
      rw [ended] at follows
      have later := goesOn result reached (declares result reached ended)
      exact ⟨follows.append later.follows, later.declares⟩
  | error stop reached =>
      rw [ended] at follows
      exact .of_error rfl (follows.before more)

theorem Resolves.pure (declares : environment.Declares declared) (result : α) :
    (plain (Pure.pure result) environment).Resolves declared [] := by
  refine ⟨.done .nil, ?_⟩
  intro found reached same
  cases same
  exact declares

theorem Resolves.throw (environment : Environment) {stop : Stop}
    (other : ∀ name, stop ≠ .failed (.undefinedVariable name)) :
    (plain (throw stop : Evaluation α) environment).Resolves declared [] := by
  have follows : Follows [] ([] ++ []) (some stop) := .stopped .nil other
  exact .of_error rfl follows

theorem Resolves.ofOperation (declares : environment.Declares declared)
    {result : Except RuntimeError α} {operator : Token}
    (failed : ∀ error, result = .error error → ∃ cause, error = .operation operator cause) :
    (plain (.ofOperation result) environment).Resolves declared [] := by
  cases result with
  | ok result => exact .pure declares result
  | error error =>
      obtain ⟨cause, rfl⟩ := failed error rfl
      exact .throw environment (by simp)

/-- A lookup that has a result if the name is found, and fails for want of it otherwise. -/
theorem Resolves.lookup {occurrence : Occurrence} {evaluation : Evaluation α}
    (declares : environment.Declares declared)
    (found : ∀ level, environment.Hits occurrence.name.lexeme (some level) →
      ∃ result reached, evaluation environment = .ok result reached ∧ reached.Declares declared)
    (missing : environment.Hits occurrence.name.lexeme none →
      evaluation environment =
        .error (.failed (.undefinedVariable occurrence.name)) environment) :
    Resolves declared [occurrence.resolve declared]
      ⟨[⟨occurrence, environment⟩], evaluation environment⟩ := by
  have hits := declares.hits occurrence.name.lexeme
  have agrees : Lookup.Agrees ⟨occurrence, environment⟩ (occurrence.resolve declared) :=
    ⟨rfl, hits⟩
  cases level : innermost? occurrence.name.lexeme declared with
  | some number =>
      rw [level] at hits
      obtain ⟨result, reached, same, still⟩ := found number hits
      have known : (occurrence.resolve declared).level ≠ none := by
        rw [Occurrence.resolve, level]
        exact Option.some_ne_none number
      rw [same]
      refine ⟨.done (.cons ⟨agrees, known⟩ .nil), ?_⟩
      rintro _ _ ⟨⟩
      exact still
  | none =>
      rw [level] at hits
      have follows : Follows ([] ++ [⟨occurrence, environment⟩])
          ([] ++ [occurrence.resolve declared]) _ := .missing .nil agrees level
      exact .of_error (missing hits) follows

theorem Resolves.read (declares : environment.Declares declared) (name : Token) :
    (read name environment).Resolves declared [Occurrence.resolve declared (.read name)] := by
  refine Resolves.lookup declares (fun level hits => ?_) Evaluation.read_of_missing
  obtain ⟨value, same⟩ := Evaluation.read_of_found hits
  exact ⟨value, environment, same, declares⟩

theorem Resolves.write (declares : environment.Declares declared) (name : Token)
    (value : Value) :
    (write name value environment).Resolves declared
      [Occurrence.resolve declared (.write name)] := by
  refine Resolves.lookup declares (fun level hits => ?_) (Evaluation.write_of_missing value)
  obtain ⟨changed, assigned, same⟩ := Evaluation.write_of_found value hits
  exact ⟨(), changed, same, declares.assign assigned⟩

end Watched

theorem Expr.watch_resolves {declared : List (List String)} (expression : Expr)
    {environment : Environment} (declares : environment.Declares declared) :
    (expression.watch environment).Resolves declared (expression.resolve declared) := by
  induction expression generalizing environment with
  | literal value => exact .pure declares value
  | group inner ih => exact ih declares
  | unary operator operand ih =>
      rw [watch, resolve, ← List.append_nil (operand.resolve declared)]
      exact (ih declares).andThen fun _ _ declares =>
        .ofOperation declares fun _ => Operation.unary_cause
  | binary left operator right first second =>
      rw [watch, resolve, ← List.append_nil (right.resolve declared)]
      refine (first declares).andThen fun _ _ declares => ?_
      exact (second declares).andThen fun _ _ declares =>
        .ofOperation declares fun _ => Operation.binary_cause
  | assign name value ih =>
      rw [watch, resolve]
      refine (ih declares).andThen fun value _ declares => ?_
      rw [← List.append_nil [_]]
      exact (Watched.Resolves.write declares name value).andThen fun _ _ declares =>
        .pure declares value
  | var name => exact .read declares name
  | misplaced found => exact .throw environment (by simp)

namespace WatchedExecution

variable {declared later : List (List String)} {environment : Environment}

/-- An execution whose lookups follow the resolutions given, with the names declared that are given
for its end. -/
structure Resolves (later : List (List String)) (resolutions : List Resolution)
    (watched : WatchedExecution) : Prop where
  follows : Follows watched.lookups resolutions watched.execution.stop
  declares : watched.execution.stop = none → watched.execution.environment.Declares later

theorem Resolves.of_stop {watched : WatchedExecution} {resolutions : List Resolution} {stop : Stop}
    (ended : watched.execution.stop = some stop)
    (follows : Follows watched.lookups resolutions (some stop)) :
    watched.Resolves later resolutions := by
  constructor
  · rw [ended]
    exact follows
  · intro completed
    rw [ended] at completed
    cases completed

theorem Resolves.andThen {first : WatchedExecution} {next : Environment → WatchedExecution}
    {resolutions more : List Resolution} (begins : first.Resolves declared resolutions)
    (goesOn : ∀ reached, Environment.Declares declared reached →
      (next reached).Resolves later more) :
    (first.andThen next).Resolves later (resolutions ++ more) := by
  obtain ⟨follows, declares⟩ := begins
  rw [WatchedExecution.andThen]
  cases ended : first.execution.stop with
  | none =>
      rw [ended] at follows
      have last := goesOn _ (declares ended)
      have both := Execution.andThen_of_none ended fun reached => (next reached).execution
      refine ⟨?_, ?_⟩
      · rw [both]
        exact follows.append last.follows
      · rw [both]
        exact last.declares
  | some stop =>
      rw [ended] at follows
      exact .of_stop ended (follows.before more)

theorem Resolves.ofValue (declares : environment.Declares declared) (expression : Expr)
    {next : Value → Environment → Execution}
    (goesOn : ∀ value reached, Environment.Declares declared reached →
      (next value reached).stop = none ∧ (next value reached).environment.Declares later) :
    (ofValue expression environment next).Resolves later (expression.resolve declared) := by
  obtain ⟨follows, still⟩ := expression.watch_resolves declares
  rw [Watched.stop?] at follows
  rw [WatchedExecution.ofValue]
  cases ended : (expression.watch environment).result with
  | ok value reached =>
      obtain ⟨completed, declaresLater⟩ := goesOn value reached (still value reached ended)
      rw [ended] at follows
      refine ⟨?_, fun _ => declaresLater⟩
      dsimp only
      rw [completed]
      exact follows
  | error stop reached =>
      rw [ended] at follows
      exact .of_stop rfl follows

theorem Resolves.block (declares : environment.Declares declared) {resolutions : List Resolution}
    {names : List String} {body : WatchedExecution}
    (inside : body.Resolves (names :: declared) resolutions) :
    Resolves declared resolutions
      ⟨body.lookups, { body.execution with environment := body.execution.environment.leave }⟩ :=
  ⟨inside.follows, fun completed => (inside.declares completed).leave declares.ne_nil⟩

end WatchedExecution

mutual

theorem Stmt.watch_resolves (statement : Stmt) {declared : List (List String)}
    {environment : Environment} (declares : environment.Declares declared) :
    (Stmt.watch environment statement).Resolves (statement.declares declared)
      (Stmt.resolve declared statement) := by
  match statement with
  | .expression inner =>
      rw [watch, resolve]
      exact .ofValue declares inner fun _ _ still => ⟨rfl, still⟩
  | .print inner =>
      rw [watch, resolve]
      exact .ofValue declares inner fun _ _ still => ⟨rfl, still⟩
  | .declare name none =>
      rw [watch, resolve]
      exact ⟨.done .nil, fun _ => declares.define name.lexeme .nil⟩
  | .declare name (some initial) =>
      rw [watch, resolve]
      exact .ofValue declares initial fun value _ still => ⟨rfl, still.define name.lexeme value⟩
  | .block body =>
      have inside := Stmt.watchAll_resolves body declares.enter
      obtain ⟨names, same, -⟩ := Stmt.exists_declaresAll [] declared body
      rw [same] at inside
      rw [watch, resolve]
      exact .block declares inside
  | .misplaced found =>
      rw [watch, resolve]
      have follows : Follows [] ([] ++ []) (some (.notStatement found)) := .stopped .nil (by simp)
      exact .of_stop rfl follows

/-- Each statement resolves with the names declared that those before it leave. -/
theorem Stmt.watchAll_resolves (statements : List Stmt) {declared : List (List String)}
    {environment : Environment} (declares : environment.Declares declared) :
    (Stmt.watchAll environment statements).Resolves (Stmt.declaresAll declared statements)
      (Stmt.resolveAll declared statements) := by
  match statements with
  | [] =>
      rw [watchAll, resolveAll]
      exact ⟨.done .nil, fun _ => declares⟩
  | statement :: rest =>
      rw [watchAll, resolveAll]
      exact (Stmt.watch_resolves statement declares).andThen fun reached still =>
        Stmt.watchAll_resolves rest still

end

/-- Names are looked up where they resolve to, whatever the globals and the program. What is watched
is the run itself. Each lookup goes to the scope of its resolution, in order, and fails just when
there is none, and then the program stops there. So a program all of whose names resolve never stops
for want of a variable, and one that comes to its end has looked up all its names, and they all
resolve. -/
theorem Stmt.watchAll_resolved (globals : Scope) (statements : List Stmt) :
    let watched := Stmt.watchAll (.global globals) statements
    let execution := Stmt.execAll (.global globals) statements
    let resolutions := Stmt.resolveAll [globals.names] statements
    watched.execution = execution ∧
      List.Forall₂ Lookup.Agrees watched.lookups (resolutions.take watched.lookups.length) ∧
      (∀ (index : Nat) (lookup : Lookup) (resolution : Resolution),
        watched.lookups[index]? = some lookup → resolutions[index]? = some resolution →
          (resolution.level = none ↔
            index + 1 = watched.lookups.length ∧
              execution.stop = some (.failed (.undefinedVariable lookup.occurrence.name)))) ∧
      ((∀ resolution ∈ resolutions, resolution.level ≠ none) →
        ∀ name, execution.stop ≠ some (.failed (.undefinedVariable name))) ∧
      (execution.stop = none →
        watched.lookups.length = resolutions.length ∧
          ∀ resolution ∈ resolutions, resolution.level ≠ none) := by
  intro watched execution resolutions
  have same : watched.execution = execution := watchAll_execution (.global globals) statements
  have declares : Environment.Declares [globals.names] (.global globals) :=
    .global globals.mem_names
  have follows : Follows watched.lookups resolutions watched.execution.stop :=
    (watchAll_resolves statements declares).follows
  rw [same] at follows
  refine ⟨same, follows.agrees, fun _ _ _ => follows.missing_iff, follows.stop_ne, ?_⟩
  intro completed
  rw [completed] at follows
  exact follows.of_completed

/-- In `{ a; var a = a; a = b; }` after a global `a`, the first two uses are of the global one, `b`
is nowhere, and the assignment is to the one of the block. -/
example :
    let a : Token := ⟨.identifier, "a", .nil, 1⟩
    let b : Token := ⟨.identifier, "b", .nil, 1⟩
    (Stmt.resolveAll [["a"]]
      [.block [.expression (.var a), .declare a (some (.var a)),
        .expression (.assign a (.var b))]]).map (·.level) = [some 0, some 0, none, some 1] := rfl

end Lox
